import Mathlib.Data.List.Basic
import Mathlib.Data.List.Nodup
import Mathlib.Tactic.Common

/-!
# Sets with room for a number of elements

A set that is kept as an array with room for `room` elements, in the order in which they came;
what comes when it is full is not added.

* `ofList_eq_take` — of elements that differ, the first ones are in the set.
* `not_mem_ofList` — what has `room` elements in front of it is not, and stays out of the set
  however many are put between them.
* `mem_of_mem_ofList` — nothing gets in that was not in the list.

## Design notes

**The array.**  The elements are a list without repetitions, and adding an element that is there
already does nothing, whether there is room or not.  The set is built from a list by adding its
elements from the front, so that it is the place in that list which decides who gets in.
-/

namespace Library.BoundedSet

universe u

variable {α : Type u} [DecidableEq α] {room : ℕ}

/-- An element more, unless it is there or there is no room. -/
def add (room : ℕ) (set : List α) (a : α) : List α :=
  if a ∈ set then set else if set.length < room then set ++ [a] else set

/-- The elements of a list, added one after the other. -/
def ofList (room : ℕ) (list : List α) : List α :=
  list.foldl (add room) []

/-- Nothing gets in that was not in the list. -/
theorem mem_of_mem_ofList {list : List α} {a : α} (h : a ∈ ofList room list) : a ∈ list := by
  have hadd (list : List α) : ∀ front : List α, a ∈ list.foldl (add room) front →
      a ∈ front ∨ a ∈ list := by
    induction list with
    | nil => exact fun front h => Or.inl h
    | cons b list ih =>
        intro front h
        rcases ih _ h with hadded | hrest
        · rw [add] at hadded
          split at hadded
          case isTrue => exact Or.inl hadded
          case isFalse =>
            split at hadded
            case isTrue =>
              refine (List.mem_append.1 hadded).imp_right fun hb => ?_
              rw [List.mem_singleton.1 hb]
              exact List.mem_cons_self
            case isFalse => exact Or.inl hadded
        · exact Or.inr (List.mem_cons_of_mem _ hrest)
  exact (hadd list [] h).resolve_left List.not_mem_nil

/-- **Of elements that differ, the first ones are in the set.** -/
theorem ofList_eq_take {list : List α} (h : list.Nodup) : ofList room list = list.take room := by
  have hadd (list : List α) : ∀ front : List α, (front ++ list).Nodup → front.length ≤ room →
      list.foldl (add room) front = (front ++ list).take room := by
    induction list with
    | nil =>
        intro front _ hroom
        rw [List.append_nil, List.take_of_length_le hroom, List.foldl_nil]
    | cons a list ih =>
        intro front hnodup hroom
        have hnew : a ∉ front := fun hmem =>
          (List.disjoint_of_nodup_append hnodup) hmem List.mem_cons_self
        have happend : front ++ a :: list = front ++ [a] ++ list := by
          rw [List.append_assoc, List.singleton_append]
        rw [List.foldl_cons, add, if_neg hnew]
        split
        case isTrue hlt =>
          have hroom' : (front ++ [a]).length ≤ room := by
            rw [List.length_append, List.length_singleton]
            exact hlt
          rw [ih _ (happend ▸ hnodup) hroom', happend]
        case isFalse hfull =>
          have hlength : front.length = room := Nat.le_antisymm hroom (Nat.not_lt.1 hfull)
          have hrest : (front ++ list).Nodup :=
            hnodup.sublist ((List.Sublist.refl front).append (List.sublist_cons_self a list))
          rw [ih _ hrest hroom, ← hlength, List.take_left, List.take_left]
  exact hadd list [] h (Nat.zero_le room)

/-- More elements between put an element further back. -/
theorem idxOf_le_of_sublist {list list' : List α} (hsub : list.Sublist list')
    (hnodup : list'.Nodup) {a : α} (ha : a ∈ list) : list.idxOf a ≤ list'.idxOf a := by
  induction hsub with
  | slnil => exact Nat.le_refl _
  | @cons list list' b hsub ih =>
      rw [List.nodup_cons] at hnodup
      have hne : b ≠ a := fun heq => hnodup.1 (heq ▸ hsub.subset ha)
      rw [List.idxOf_cons_ne _ hne]
      exact Nat.le_succ_of_le (ih hnodup.2 ha)
  | @cons_cons list list' b hsub ih =>
      rw [List.nodup_cons] at hnodup
      by_cases heq : b = a
      · subst heq
        rw [List.idxOf_cons_self]
        exact Nat.zero_le _
      · rw [List.idxOf_cons_ne _ heq, List.idxOf_cons_ne _ heq]
        exact Nat.succ_le_succ (ih hnodup.2 ((List.mem_cons.1 ha).resolve_left (Ne.symm heq)))

/-- **What has `room` elements in front of it stays out of the set.** -/
theorem not_mem_ofList {list list' : List α} (hsub : list.Sublist list') (hnodup : list'.Nodup)
    {a : α} (ha : a ∈ list) (hroom : room ≤ list.idxOf a) : a ∉ ofList room list' := by
  rw [ofList_eq_take hnodup, List.mem_take_iff_idxOf_lt (hsub.subset ha)]
  exact Nat.not_lt.2 (Nat.le_trans hroom (idxOf_le_of_sublist hsub hnodup ha))

end Library.BoundedSet
