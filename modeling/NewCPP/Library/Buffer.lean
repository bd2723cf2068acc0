import Mathlib.Data.List.Basic
import Mathlib.Data.Set.Basic
import Mathlib.Tactic.Common

/-!
# Buffers and the fields inside them

A buffer is a list; a *field* is a run of consecutive cells.  Two operations
carry everything a record codec does to a buffer: `window`, which reads a field,
and `blit`, which overwrites one in place.

## Main definitions

* `window buf off len` — the `len` cells from `off`
* `blit buf off bs` — `buf` with the cells from `off` replaced by `bs`
* `blitAll buf writes` — the writes of a list, one after the other
* `AgreesOff touched buf buf'` — the buffers differ at most in the cells of `touched`

The laws are those of a lens: reading what was written (`window_blit_self`),
writing back what was read (`blit_window_self`), and the frame law for a read
elsewhere (`window_blit_of_disjoint`).  All of them are consequences of one pointwise
description, `getElem?_blit`.  Writes to disjoint fields commute (`blit_comm`), and each of
a run of them is found back after the whole run (`window_blitAll_of_mem`).

Two buffers that take the same writes differ in fewer and fewer cells (`AgreesOff.set`),
until they are equal.
-/

namespace Library.Buffer

universe u

variable {α : Type u}

/-- The `len` cells of `buf` from `off` on. -/
def window (buf : List α) (off len : ℕ) : List α :=
  (buf.drop off).take len

/-- `buf` with the cells from `off` on replaced by `bs`. -/
def blit (buf : List α) (off : ℕ) (bs : List α) : List α :=
  buf.take off ++ bs ++ buf.drop (off + bs.length)

/-- Two fields share no cell. -/
abbrev Disjoint (off len off' len' : ℕ) : Prop :=
  off + len ≤ off' ∨ off' + len' ≤ off

theorem length_window {buf : List α} {off len : ℕ} (h : off + len ≤ buf.length) :
    (window buf off len).length = len := by
  simp only [window, List.length_take, List.length_drop]
  omega

/-- A field between what is in front of it and behind it. -/
theorem window_append (front field rest : List α) :
    window (front ++ (field ++ rest)) front.length field.length = field := by
  rw [window, List.drop_left, List.take_left]

theorem length_blit {buf : List α} {off : ℕ} {bs : List α}
    (h : off + bs.length ≤ buf.length) :
    (blit buf off bs).length = buf.length := by
  simp only [blit, List.length_append, List.length_take, List.length_drop]
  omega

/-- The cells of a field. -/
theorem getElem?_window (buf : List α) (off len i : ℕ) :
    (window buf off len)[i]? = if i < len then buf[off + i]? else none := by
  simp only [window, List.getElem?_take, List.getElem?_drop]

/-- The front of a field. -/
theorem take_window {buf : List α} {off len n : ℕ} (h : n ≤ len) :
    (window buf off len).take n = window buf off n := by
  rw [window, window, List.take_take, Nat.min_eq_left h]

/-- The rest of a field. -/
theorem drop_window (buf : List α) (off len n : ℕ) :
    (window buf off len).drop n = window buf (off + n) (len - n) := by
  rw [window, window, List.drop_take, List.drop_drop]

/-- **The pointwise description of a write**: inside the field the new cells,
elsewhere the old ones. -/
theorem getElem?_blit {buf : List α} {off : ℕ} {bs : List α}
    (h : off + bs.length ≤ buf.length) (i : ℕ) :
    (blit buf off bs)[i]? =
      if off ≤ i ∧ i < off + bs.length then bs[i - off]? else buf[i]? := by
  have hoff : (buf.take off).length = off := by
    rw [List.length_take]
    omega
  have hleft : (buf.take off ++ bs).length = off + bs.length := by
    rw [List.length_append, hoff]
  by_cases hlo : i < off
  · rw [if_neg (by omega), blit, List.getElem?_append_left (by omega),
      List.getElem?_append_left (by omega), List.getElem?_take, if_pos hlo]
  · by_cases hhi : i < off + bs.length
    · rw [if_pos ⟨by omega, hhi⟩, blit, List.getElem?_append_left (by omega),
        List.getElem?_append_right (by omega), hoff]
    · rw [if_neg (by omega), blit, List.getElem?_append_right (by omega), hleft,
        List.getElem?_drop]
      congr 1
      omega

/-- Reading a field just written returns what was written. -/
theorem window_blit_self {buf : List α} {off : ℕ} {bs : List α}
    (h : off + bs.length ≤ buf.length) :
    window (blit buf off bs) off bs.length = bs := by
  apply List.ext_getElem?
  intro i
  rw [getElem?_window, getElem?_blit h]
  by_cases hi : i < bs.length
  · rw [if_pos hi, if_pos (by omega)]
    congr 1
    omega
  · rw [if_neg hi, List.getElem?_eq_none (by omega)]

/-- Writing back the field just read changes nothing. -/
theorem blit_window_self {buf : List α} {off len : ℕ} (h : off + len ≤ buf.length) :
    blit buf off (window buf off len) = buf := by
  have hlen := length_window h
  apply List.ext_getElem?
  intro i
  rw [getElem?_blit (by omega), hlen]
  by_cases hi : off ≤ i ∧ i < off + len
  · rw [if_pos hi, getElem?_window, if_pos (by omega)]
    congr 1
    omega
  · rw [if_neg hi]

/-- A write leaves every disjoint field alone. -/
theorem window_blit_of_disjoint {buf : List α} {off off' len : ℕ} {bs : List α}
    (h : off + bs.length ≤ buf.length) (hd : Disjoint off bs.length off' len) :
    window (blit buf off bs) off' len = window buf off' len := by
  apply List.ext_getElem?
  intro i
  rw [getElem?_window, getElem?_window, getElem?_blit h]
  by_cases hi : i < len
  · rw [if_pos hi, if_pos hi, if_neg (by omega)]
  · rw [if_neg hi, if_neg hi]

/-- Two adjacent writes are one write. -/
theorem blit_append {buf : List α} {off : ℕ} {bs bs' : List α}
    (h : off + (bs ++ bs').length ≤ buf.length) :
    blit (blit buf off bs) (off + bs.length) bs' = blit buf off (bs ++ bs') := by
  have happ : (bs ++ bs').length = bs.length + bs'.length := List.length_append
  have h₁ : off + bs.length ≤ buf.length := by omega
  apply List.ext_getElem?
  intro i
  rw [getElem?_blit (by rw [length_blit h₁]; omega), getElem?_blit h₁, getElem?_blit h]
  by_cases hlo : off ≤ i ∧ i < off + bs.length
  · rw [if_neg (by omega), if_pos hlo, if_pos (by omega),
      List.getElem?_append_left (by omega)]
  · by_cases hhi : off + bs.length ≤ i ∧ i < off + bs.length + bs'.length
    · rw [if_pos hhi, if_pos (by omega), List.getElem?_append_right (by omega)]
      congr 1
      omega
    · rw [if_neg hhi, if_neg hlo, if_neg (by omega)]

/-- A buffer whose cells before `off` are already `pre` is filled up to
`off + bs.length` by writing `bs` at `off`. -/
theorem take_blit {buf : List α} {off : ℕ} {bs : List α}
    (h : off + bs.length ≤ buf.length) :
    (blit buf off bs).take (off + bs.length) = buf.take off ++ bs := by
  have hlen : (buf.take off ++ bs).length = off + bs.length := by
    rw [List.length_append, List.length_take]
    omega
  rw [blit, ← hlen, List.take_left]

/-- A one-cell write is `List.set`. -/
theorem set_eq_blit {buf : List α} {off : ℕ} (a : α) (h : off < buf.length) :
    buf.set off a = blit buf off [a] := by
  apply List.ext_getElem?
  intro i
  rw [getElem?_blit (by rw [List.length_singleton]; omega), List.getElem?_set,
    List.length_singleton]
  by_cases hi : off = i
  · subst hi
    rw [if_pos rfl, if_pos h, if_pos (by omega), Nat.sub_self]
    rfl
  · rw [if_neg hi, if_neg (by omega)]

/-- Nothing is written. -/
@[simp] theorem blit_nil (buf : List α) (off : ℕ) : blit buf off [] = buf := by
  rw [blit, List.append_nil, List.length_nil, Nat.add_zero, List.take_append_drop]

/-- A write, one cell at a time. -/
theorem blit_cons {buf : List α} {off : ℕ} {a : α} {bs : List α}
    (h : off + (a :: bs).length ≤ buf.length) :
    blit buf off (a :: bs) = blit (buf.set off a) (off + 1) bs := by
  have happ : blit (blit buf off [a]) (off + [a].length) bs = blit buf off ([a] ++ bs) :=
    blit_append h
  have hcons : (a :: bs).length = bs.length + 1 := List.length_cons
  rw [set_eq_blit a (by omega)]
  exact happ.symm

/-- A field inside a prefix is a field of the prefix. -/
theorem window_take (buf : List α) {off len n : ℕ} (h : off + len ≤ n) :
    window (buf.take n) off len = window buf off len := by
  apply List.ext_getElem?
  intro i
  rw [getElem?_window, getElem?_window]
  by_cases hi : i < len
  · rw [if_pos hi, if_pos hi, List.getElem?_take, if_pos (by omega)]
  · rw [if_neg hi, if_neg hi]

/-! ## Writes in another order -/

/-- Writes to disjoint fields commute. -/
theorem blit_comm {buf : List α} {off off' : ℕ} {bs bs' : List α}
    (h : off + bs.length ≤ buf.length) (h' : off' + bs'.length ≤ buf.length)
    (hd : Disjoint off bs.length off' bs'.length) :
    blit (blit buf off bs) off' bs' = blit (blit buf off' bs') off bs := by
  have hleft : off' + bs'.length ≤ (blit buf off bs).length := by rwa [length_blit h]
  have hright : off + bs.length ≤ (blit buf off' bs').length := by rwa [length_blit h']
  apply List.ext_getElem?
  intro i
  rw [getElem?_blit hleft, getElem?_blit h, getElem?_blit hright, getElem?_blit h']
  by_cases hi : off ≤ i ∧ i < off + bs.length
  · rw [if_pos hi, if_pos hi, if_neg (by omega)]
  · rw [if_neg hi, if_neg hi]

/-- A write by itself: where, and the cells. -/
abbrev Write (α : Type u) := ℕ × List α

/-- The field of the write lies inside the buffer. -/
abbrev Write.Fits (write : Write α) (buf : List α) : Prop :=
  write.1 + write.2.length ≤ buf.length

/-- The fields of the two writes share no cell. -/
abbrev Write.Apart (write write' : Write α) : Prop :=
  Disjoint write.1 write.2.length write'.1 write'.2.length

/-- The first write ends where the second one begins, or in front of it. -/
abbrev Write.Before (write write' : Write α) : Prop :=
  write.1 + write.2.length ≤ write'.1

instance : Trans (@Write.Before α) (@Write.Before α) (@Write.Before α) where
  trans h h' := h.trans ((Nat.le_add_right _ _).trans h')

/-- Writes that go up through the buffer share no cell, however far apart in the list. -/
theorem pairwise_apart_of_isChain {writes : List (Write α)}
    (h : writes.IsChain Write.Before) : writes.Pairwise Write.Apart :=
  h.pairwise.imp Or.inl

/-- The writes of a list, the first one first. -/
def blitAll (buf : List α) (writes : List (Write α)) : List α :=
  writes.foldl (fun buf write => blit buf write.1 write.2) buf

@[simp] theorem blitAll_cons (buf : List α) (write : Write α) (writes : List (Write α)) :
    blitAll buf (write :: writes) = blitAll (blit buf write.1 write.2) writes := rfl

/-- A write leaves the others their room. -/
theorem fits_blit {buf : List α} {write : Write α} {writes : List (Write α)}
    (h : write.Fits buf) (hfits : ∀ other ∈ writes, other.Fits buf) :
    ∀ other ∈ writes, other.Fits (blit buf write.1 write.2) := by
  intro other hmem
  rw [Write.Fits, length_blit h]
  exact hfits other hmem

/-- A field that no write of the run touches reads as before. -/
theorem window_blitAll_of_disjoint {buf : List α} {writes : List (Write α)} {off len : ℕ}
    (hfits : ∀ write ∈ writes, write.Fits buf)
    (hd : ∀ write ∈ writes, Disjoint write.1 write.2.length off len) :
    window (blitAll buf writes) off len = window buf off len := by
  induction writes generalizing buf with
  | nil => rfl
  | cons write writes ih =>
    rw [List.forall_mem_cons] at hfits hd
    rw [blitAll_cons, ih (fits_blit hfits.1 hfits.2) hd.2,
      window_blit_of_disjoint hfits.1 hd.1]

/-- **Every write of a run is found back**, as long as no two of them share a cell. -/
theorem window_blitAll_of_mem {buf : List α} {write : Write α} {writes : List (Write α)}
    (hfits : ∀ write ∈ writes, write.Fits buf) (hapart : writes.Pairwise Write.Apart)
    (hmem : write ∈ writes) :
    window (blitAll buf writes) write.1 write.2.length = write.2 := by
  induction writes generalizing buf with
  | nil => cases hmem
  | cons first writes ih =>
    rw [List.forall_mem_cons] at hfits
    rw [List.pairwise_cons] at hapart
    have hrest := fits_blit hfits.1 hfits.2
    rw [blitAll_cons]
    rcases List.mem_cons.mp hmem with rfl | hlater
    · rw [window_blitAll_of_disjoint hrest fun other h => (hapart.1 other h).symm,
        window_blit_self hfits.1]
    · exact ih hrest hapart.2 hlater

/-! ## Agreement -/

/-- The cells of a field. -/
def cells (off len : ℕ) : Set ℕ :=
  {i | off ≤ i ∧ i < off + len}

@[simp] theorem mem_cells {off len i : ℕ} :
    i ∈ cells off len ↔ off ≤ i ∧ i < off + len := Iff.rfl

/-- Two buffers of one size that differ at most in the cells of `touched`. -/
structure AgreesOff (touched : Set ℕ) (buf buf' : List α) : Prop where
  length_eq : buf.length = buf'.length
  cell_eq : ∀ i ∉ touched, buf[i]? = buf'[i]?

namespace AgreesOff

variable {touched touched' : Set ℕ} {buf buf' buf'' : List α}

theorem refl (touched : Set ℕ) (buf : List α) : AgreesOff touched buf buf :=
  ⟨rfl, fun _ _ => rfl⟩

/-- It does not matter which buffer comes first. -/
theorem symm (h : AgreesOff touched buf buf') : AgreesOff touched buf' buf :=
  ⟨h.length_eq.symm, fun i hi => (h.cell_eq i hi).symm⟩

theorem trans (h : AgreesOff touched buf buf') (h' : AgreesOff touched buf' buf'') :
    AgreesOff touched buf buf'' :=
  ⟨h.length_eq.trans h'.length_eq, fun i hi => (h.cell_eq i hi).trans (h'.cell_eq i hi)⟩

/-- Fewer cells may have been touched than are named. -/
theorem mono (h : AgreesOff touched buf buf') (hsub : touched ⊆ touched') :
    AgreesOff touched' buf buf' :=
  ⟨h.length_eq, fun i hi => h.cell_eq i fun hmem => hi (hsub hmem)⟩

/-- Buffers that differ nowhere. -/
theorem eq (h : AgreesOff touched buf buf') (hnone : ∀ i, i ∉ touched) : buf = buf' :=
  List.ext_getElem? fun i => h.cell_eq i (hnone i)

/-- A write into a cell that counts as touched. -/
theorem set_left (h : AgreesOff touched buf buf') {off : ℕ} (a : α) (hoff : off ∈ touched) :
    AgreesOff touched (buf.set off a) buf' := by
  refine ⟨by rw [List.length_set, h.length_eq], fun i hi => ?_⟩
  have hne : off ≠ i := fun heq => hi (heq ▸ hoff)
  rw [List.getElem?_set_ne hne, h.cell_eq i hi]

/-- The same write into both makes them agree there. -/
theorem set (h : AgreesOff touched buf buf') (off : ℕ) (a : α) :
    AgreesOff (touched \ cells off 1) (buf.set off a) (buf'.set off a) := by
  refine ⟨by rw [List.length_set, List.length_set, h.length_eq], fun i hi => ?_⟩
  by_cases heq : off = i
  · subst heq
    rw [List.getElem?_set, List.getElem?_set, h.length_eq, if_pos rfl, if_pos rfl]
  · rw [List.getElem?_set_ne heq, List.getElem?_set_ne heq]
    exact h.cell_eq i fun hmem => hi ⟨hmem, fun hcell => heq
      (Nat.le_antisymm hcell.1 (Nat.le_of_lt_succ hcell.2))⟩

end AgreesOff

/-- A write changes its own field only. -/
theorem agreesOff_blit {buf : List α} {off : ℕ} {bs : List α}
    (h : off + bs.length ≤ buf.length) :
    AgreesOff (cells off bs.length) (blit buf off bs) buf := by
  refine ⟨length_blit h, fun i hi => ?_⟩
  rw [mem_cells] at hi
  rw [getElem?_blit h, if_neg hi]

end Library.Buffer
