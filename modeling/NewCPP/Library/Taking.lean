import Mathlib.Data.List.Pairwise
import Mathlib.Data.Set.Basic
import Mathlib.Tactic.Common

/-!
# Taking elements off a set

`Takes r before after taken`: the elements `taken`, one after the other, were taken off
the set `before`, and `after` is part of what is left.  The relation `r` orders what is
taken: each element stands in it to those taken later and to those still there.  With
`≠` for `r` nothing is taken twice; with a strict order the elements come in ascending
order.

Takings compose (`trans`), so what one step of a program takes decides what a whole run
takes.

* `Takes.nothing`, `Takes.trans` — taking nothing, and one taking after the other
* `Takes.nodup` — with an irreflexive relation nothing is taken twice

## Design notes

**Sets and lists.**  What is there is a set, since nothing depends on where an element is kept;
what was taken is a list, because the order in which it was taken is the point.
-/

namespace Library

universe u

variable {α : Type u} {r : α → α → Prop}

/-- `taken` was taken off `before`, in the order `r`, and `after` is left. -/
structure Takes (r : α → α → Prop) (before after : Set α) (taken : List α) : Prop where
  mem : ∀ a ∈ taken, a ∈ before
  left : after ⊆ before
  ordered : taken.Pairwise r
  ahead : ∀ a ∈ taken, ∀ b ∈ after, r a b

namespace Takes

/-- Nothing is taken. -/
theorem nothing (s : Set α) : Takes r s s [] where
  mem := fun _ h => absurd h List.not_mem_nil
  left := subset_rfl
  ordered := List.Pairwise.nil
  ahead := fun _ h => absurd h List.not_mem_nil

/-- One taking after the other. -/
theorem trans {s t u : Set α} {xs ys : List α} (h : Takes r s t xs) (h' : Takes r t u ys) :
    Takes r s u (xs ++ ys) where
  mem := by
    intro a ha
    rcases List.mem_append.mp ha with ha | ha
    · exact h.mem a ha
    · exact h.left (h'.mem a ha)
  left := h'.left.trans h.left
  ordered := List.pairwise_append.mpr
    ⟨h.ordered, h'.ordered, fun a ha b hb => h.ahead a ha b (h'.mem b hb)⟩
  ahead := by
    intro a ha b hb
    rcases List.mem_append.mp ha with ha | ha
    · exact h.ahead a ha b (h'.left hb)
    · exact h'.ahead a ha b hb

/-- With `≠` in the order, no element is taken twice. -/
theorem nodup {s t : Set α} {xs : List α} (h : Takes r s t xs)
    (hne : ∀ {a b}, r a b → a ≠ b) : xs.Nodup :=
  h.ordered.imp hne

end Takes

end Library
