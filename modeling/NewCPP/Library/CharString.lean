import Mathlib.Data.List.Basic
import Mathlib.Data.List.TakeWhile
import Mathlib.Tactic.Common

/-!
# Searching strings

The searches of the standard string class, over any alphabet.  A position is a natural
number and `none` stands for `npos`.

* `find` — where a pattern occurs first; `findFrom` starts the search at a position.
* `findLastOf` — where a character occurs last.
* `cString` — what a function that looks for the end of a string finds in it.
* `find_eq_zero_iff` — a pattern at position 0 is a prefix.
* `find_singleton_append` — the first separator of such an equation is the one that is found.

The pieces of a string around the occurrence of a separator are stated as an equation
`s = pre ++ sep :: post`, from which the position follows as `pre.length`.

The alphabet needs decidable equality and nothing else.  What a library function does with a
null character inside a string is `cString`: it sees the part in front of it.
-/

namespace Library.CharString

universe u

variable {α : Type u} [DecidableEq α]

/-! ## The first occurrence -/

/-- The first position at which the pattern occurs. -/
def find (pattern : List α) : List α → Option ℕ
  | [] => if pattern = [] then some 0 else none
  | c :: s => if pattern <+: c :: s then some 0 else (find pattern s).map (· + 1)

/-- The first position from `pos` on at which the pattern occurs. -/
def findFrom (pattern s : List α) (pos : ℕ) : Option ℕ :=
  (find pattern (s.drop pos)).map (· + pos)

/-- A pattern at the beginning is found there. -/
theorem find_eq_zero_iff (pattern s : List α) : find pattern s = some 0 ↔ pattern <+: s := by
  cases s with
  | nil => simp [find]
  | cons c s => simp [find]

/-- The search for one character, step by step. -/
theorem find_singleton_cons (c a : α) (s : List α) :
    find [c] (a :: s) = if c = a then some 0 else (find [c] s).map (· + 1) := by
  simp [find]

/-- A character that is not there is not found. -/
theorem find_singleton_eq_none {c : α} {s : List α} (h : c ∉ s) : find [c] s = none := by
  induction s with
  | nil => rfl
  | cons a s ih =>
      rw [List.mem_cons, not_or] at h
      rw [find_singleton_cons, if_neg h.1, ih h.2]
      rfl

/-- A character occurs first behind a piece that does not hold it. -/
theorem find_singleton_append {c : α} {pre : List α} (h : c ∉ pre) (post : List α) :
    find [c] (pre ++ c :: post) = some pre.length := by
  induction pre with
  | nil => simp [find_singleton_cons]
  | cons a pre ih =>
      rw [List.mem_cons, not_or] at h
      rw [List.cons_append, find_singleton_cons, if_neg h.1, ih h.2]
      rfl

/-- One that is there is found. -/
theorem find_singleton_isSome (c : α) (s : List α) : (find [c] s).isSome ↔ c ∈ s := by
  constructor
  · intro h
    by_contra hc
    simp [find_singleton_eq_none hc] at h
  · intro h
    obtain ⟨pre, post, rfl, hpre⟩ := List.eq_append_cons_of_mem h
    simp [find_singleton_append hpre]

/-! ## The last occurrence -/

/-- The last position of the character. -/
def findLastOf (c : α) : List α → Option ℕ
  | [] => none
  | a :: s =>
      match findLastOf c s with
      | some pos => some (pos + 1)
      | none => if a = c then some 0 else none

/-- Nor is it found from the end. -/
theorem findLastOf_eq_none {c : α} {s : List α} (h : c ∉ s) : findLastOf c s = none := by
  induction s with
  | nil => rfl
  | cons a s ih =>
      rw [List.mem_cons, not_or] at h
      rw [findLastOf, ih h.2]
      exact if_neg fun ha => h.1 ha.symm

/-- A character occurs last in front of a piece that does not hold it. -/
theorem findLastOf_append (c : α) (pre : List α) {post : List α} (h : c ∉ post) :
    findLastOf c (pre ++ c :: post) = some pre.length := by
  induction pre with
  | nil => simp [findLastOf, findLastOf_eq_none h]
  | cons a pre ih =>
      rw [List.cons_append, findLastOf, ih]
      rfl

omit [DecidableEq α] in
/-- A string that holds a character falls apart at its last occurrence. -/
theorem exists_last_occurrence {c : α} {s : List α} (h : c ∈ s) :
    ∃ pre post, s = pre ++ c :: post ∧ c ∉ post := by
  obtain ⟨post, pre, hsplit, hpost⟩ := List.eq_append_cons_of_mem (List.mem_reverse.2 h)
  refine ⟨pre.reverse, post.reverse, ?_, by simpa using hpost⟩
  rw [← List.reverse_reverse s, hsplit]
  simp

omit [DecidableEq α] in
/-- What is behind an occurrence. -/
theorem drop_succ_append (pre : List α) (c : α) (post : List α) :
    (pre ++ c :: post).drop (pre.length + 1) = post := by
  simp

/-! ## Terminated strings -/

/-- What is in front of the first terminator. -/
def cString (nul : α) (s : List α) : List α :=
  s.takeWhile (· ≠ nul)

/-- The first null character ends the string. -/
theorem not_mem_cString (nul : α) (s : List α) : nul ∉ cString nul s := by
  intro hmem
  have hne := List.mem_takeWhile_imp hmem
  simp at hne

/-- Without one there is nothing to cut off. -/
theorem cString_of_not_mem {nul : α} {s : List α} (h : nul ∉ s) : cString nul s = s := by
  rw [cString, List.takeWhile_eq_self_iff]
  intro c hc
  rw [decide_eq_true_iff]
  rintro rfl
  exact h hc

theorem length_cString_le (nul : α) (s : List α) : (cString nul s).length ≤ s.length :=
  (List.takeWhile_prefix _).length_le

/-- Text with terminators behind it. -/
theorem cString_append_replicate {nul : α} {s : List α} (h : nul ∉ s) (count : ℕ) :
    cString nul (s ++ List.replicate count nul) = s := by
  rw [cString, List.takeWhile_append_of_pos]
  · cases count <;> simp [List.replicate_succ]
  · intro c hc
    rw [decide_eq_true_iff]
    rintro rfl
    exact h hc

end Library.CharString
