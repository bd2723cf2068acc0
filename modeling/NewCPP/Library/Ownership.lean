import Mathlib.Logic.Equiv.Basic
import Mathlib.Tactic.Common

/-!
# Cells with one owner

A heap of cells, some of which are in use, and owners that hold the address of at most one
cell each.

* `Owned` — every address that is held is in use and held once, and no cell in use is lost.
* `Owned.alloc`, `Owned.free`, `Owned.exchange` — what owners may do.

Neither the contents of the cells nor the kind of owner matters: a cell may be a buffer or a
connection, an owner an object or a thread.

## Design notes

**Steps as updates.**  The heap and the owners are functions, and a step updates one or two of
their values.  A model whose state holds more than the heap takes these two functions out of it
and shows which of the three steps each of its own steps is.
-/

namespace Library

universe u v

variable {ι : Type u} {V : Type v}

/-- Every address that is held is in use and held once, and no cell in use is lost. -/
structure Owned (heap : ℕ → Option V) (owner : ι → Option ℕ) : Prop where
  live : ∀ i a, owner i = some a → (heap a).isSome
  unique : ∀ i j a, owner i = some a → owner j = some a → i = j
  held : ∀ a, (heap a).isSome → ∃ i, owner i = some a

namespace Owned

variable {heap : ℕ → Option V} {owner : ι → Option ℕ}

theorem empty : Owned (fun _ => none : ℕ → Option V) (fun _ => none : ι → Option ℕ) where
  live := fun _ _ h => by cases h
  unique := fun _ _ _ h => by cases h
  held := fun _ h => by cases h

/-- Two owners exchange what they hold, an owner with itself included. -/
theorem exchange [DecidableEq ι] (h : Owned heap owner) (i j : ι) :
    Owned heap (owner ∘ Equiv.swap i j) where
  live := fun k a hk => h.live _ a hk
  unique := fun k l a hk hl => (Equiv.swap i j).injective (h.unique _ _ a hk hl)
  held := fun a ha => by
    obtain ⟨k, hk⟩ := h.held a ha
    exact ⟨Equiv.swap i j k, by rw [Function.comp_apply, Equiv.swap_apply_self, hk]⟩

variable [DecidableEq ι]

/-- An owner that holds nothing takes a cell that is not in use. -/
theorem alloc (h : Owned heap owner) {i : ι} {a : ℕ} (hi : owner i = none) (ha : heap a = none)
    (v : V) : Owned (Function.update heap a (some v)) (Function.update owner i (some a)) := by
  have hfresh (j : ι) (hj : owner j = some a) : False := by
    have hlive := h.live j a hj
    rw [ha] at hlive
    cases hlive
  refine ⟨fun j b hj => ?_, fun j k b hj hk => ?_, fun b hb => ?_⟩
  · by_cases hb : b = a
    · rw [hb, Function.update_self]
      rfl
    · rw [Function.update_of_ne hb]
      by_cases hij : j = i
      · rw [hij, Function.update_self, Option.some_inj] at hj
        exact absurd hj.symm hb
      · rw [Function.update_of_ne hij] at hj
        exact h.live j b hj
  · by_cases hij : j = i <;> by_cases hik : k = i
    · rw [hij, hik]
    · rw [hij, Function.update_self, Option.some_inj] at hj
      rw [Function.update_of_ne hik, ← hj] at hk
      exact (hfresh k hk).elim
    · rw [hik, Function.update_self, Option.some_inj] at hk
      rw [Function.update_of_ne hij, ← hk] at hj
      exact (hfresh j hj).elim
    · rw [Function.update_of_ne hij] at hj
      rw [Function.update_of_ne hik] at hk
      exact h.unique j k b hj hk
  · by_cases hba : b = a
    · exact ⟨i, by rw [Function.update_self, hba]⟩
    · rw [Function.update_of_ne hba] at hb
      obtain ⟨j, hj⟩ := h.held b hb
      have hij : j ≠ i := by
        rintro rfl
        rw [hi] at hj
        cases hj
      exact ⟨j, by rw [Function.update_of_ne hij, hj]⟩

/-- An owner gives its cell back. -/
theorem free (h : Owned heap owner) {i : ι} {a : ℕ} (hi : owner i = some a) :
    Owned (Function.update heap a none) (Function.update owner i none) := by
  have hold {j : ι} {b : ℕ} (hj : Function.update owner i none j = some b) :
      j ≠ i ∧ owner j = some b := by
    by_cases hij : j = i
    · rw [hij, Function.update_self] at hj
      cases hj
    · rw [Function.update_of_ne hij] at hj
      exact ⟨hij, hj⟩
  refine ⟨fun j b hj => ?_, fun j k b hj hk => ?_, fun b hb => ?_⟩
  · obtain ⟨hij, hj⟩ := hold hj
    have hba : b ≠ a := by
      rintro rfl
      exact hij (h.unique j i b hj hi)
    rw [Function.update_of_ne hba]
    exact h.live j b hj
  · exact h.unique j k b (hold hj).2 (hold hk).2
  · have hba : b ≠ a := by
      rintro rfl
      rw [Function.update_self] at hb
      cases hb
    rw [Function.update_of_ne hba] at hb
    obtain ⟨j, hj⟩ := h.held b hb
    have hij : j ≠ i := by
      rintro rfl
      rw [hi, Option.some_inj] at hj
      exact hba hj.symm
    exact ⟨j, by rw [Function.update_of_ne hij, hj]⟩

end Owned

end Library
