import Mathlib.Algebra.Ring.Nat
import Mathlib.Data.List.Basic
import Mathlib.Tactic.Common

/-!
# Streams that are taken in blocks

A machine that takes its input in blocks of one size works off every block that is
complete and keeps the rest until more input comes.

* `absorb` — the state behind the complete blocks of a stream, and the rest
* `absorb_append` — a stream may be cut anywhere, and so come in any pieces: the rest of the
  first part goes in front of the second part

## Design notes

**The function.**  What is done with a block is any function of the state and the block; what is
left at the end is shorter than a block.  A block has a size that is not zero, The size of a
block is not zero, which is where the recursion ends..

**Pieces.**  A machine that stores the rest and calls `absorb` again with the next piece in
front of it computes what one call on the whole stream computes.  So a result about a digest,
say, needs no induction over the pieces of its own.
-/

namespace Library.BlockStream

universe u v

variable {α : Type u} {σ : Type v} {size : ℕ} [NeZero size]

/-- Work off all complete blocks of the stream. -/
def absorb (size : ℕ) [NeZero size] (compress : σ → List α → σ) (s : σ) (stream : List α) :
    σ × List α :=
  if size ≤ stream.length then
    absorb size compress (compress s (stream.take size)) (stream.drop size)
  else (s, stream)
termination_by stream.length
decreasing_by
  have hpos := Nat.pos_of_neZero size
  rw [List.length_drop]
  omega

variable {compress : σ → List α → σ}

/-- A stream that fills no block. -/
theorem absorb_of_lt (s : σ) {stream : List α} (h : stream.length < size) :
    absorb size compress s stream = (s, stream) := by
  rw [absorb, if_neg (Nat.not_le.2 h)]

/-- The first block of a stream. -/
theorem absorb_block (s : σ) {block : List α} (h : block.length = size) (stream : List α) :
    absorb size compress s (block ++ stream) = absorb size compress (compress s block) stream := by
  have hle : size ≤ (block ++ stream).length := by
    rw [List.length_append, h]
    exact Nat.le_add_right _ _
  rw [absorb, if_pos hle, List.take_left' h, List.drop_left' h]

/-- What is left is what the blocks leave of the length. -/
theorem length_rest (s : σ) (stream : List α) :
    (absorb size compress s stream).2.length = stream.length % size := by
  fun_induction absorb size compress s stream with
  | case1 s stream hle ih => rw [ih, List.length_drop, ← Nat.mod_eq_sub_mod hle]
  | case2 s stream hlt => exact (Nat.mod_eq_of_lt (Nat.not_le.1 hlt)).symm

/-- What is left is the end of the stream. -/
theorem rest_eq (s : σ) (stream : List α) :
    (absorb size compress s stream).2 = stream.drop (stream.length - stream.length % size) := by
  fun_induction absorb size compress s stream with
  | case1 s stream hle ih =>
      have hmod : stream.length % size ≤ stream.length - size := by
        rw [Nat.mod_eq_sub_mod hle]
        exact Nat.mod_le _ _
      rw [ih, List.length_drop, ← Nat.mod_eq_sub_mod hle, List.drop_drop]
      congr 1
      omega
  | case2 s stream hlt =>
      rw [Nat.mod_eq_of_lt (Nat.not_le.1 hlt), Nat.sub_self, List.drop_zero]

/-- **Cutting a stream in two.** -/
theorem absorb_append (s : σ) (front back : List α) :
    absorb size compress s (front ++ back) =
      absorb size compress (absorb size compress s front).1
        ((absorb size compress s front).2 ++ back) := by
  fun_induction absorb size compress s front with
  | case1 s front hle ih =>
      have hblock : (front.take size).length = size := by
        rw [List.length_take, Nat.min_eq_left hle]
      rw [← ih, ← absorb_block s hblock, ← List.append_assoc, List.take_append_drop]
  | case2 s front _ => rfl

end Library.BlockStream
