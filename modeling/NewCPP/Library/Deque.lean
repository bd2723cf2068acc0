import Mathlib.Data.List.Basic
import Mathlib.Tactic.Common

/-!
# Deques and their iterators

A double-ended queue whose elements stand at positions.  Positions are never used again:
`pushBack` adds one behind the last, `popFront` leaves the first behind.

An iterator is a position, with the generation of the queue in which it was obtained.  A
mutation that invalidates all iterators begins a new generation.

* `valid_beginIter` — the iterator of a fresh `begin` is valid
* `not_valid_pushBack` — after `pushBack` no iterator is that was obtained before

An implementation may go by the positions alone, and an invalid iterator then goes on
denoting what is at its position.

## Design notes

**Validity.**  `Valid` is what the standard promises and no more: the generation has to be the
present one and the position in the range.  Whether an iterator that is not valid still works is
not said anywhere in the library.

**Moving.**  A queue that is moved keeps its elements where they are, so that iterators go with
it; the end is treated as the other positions are.
-/

namespace Library

universe u

/-- The elements in a row, and the generation of their iterators. -/
structure Deque (α : Type u) where
  elems : List α := []
  /-- The position of the first element, or of the end if there is none. -/
  first : ℕ := 0
  generation : ℕ := 0

namespace Deque

variable {α : Type u}

/-- A position in some generation. -/
structure Iterator where
  position : ℕ := 0
  generation : ℕ := 0
  deriving DecidableEq, Repr

/-- The first element, or the end. -/
def beginIter (d : Deque α) : Iterator :=
  ⟨d.first, d.generation⟩

/-- The end. -/
def endIter (d : Deque α) : Iterator :=
  ⟨d.first + d.elems.length, d.generation⟩

/-- The iterator points into the queue or to its end. -/
structure Valid (d : Deque α) (it : Iterator) : Prop where
  generation : it.generation = d.generation
  first_le : d.first ≤ it.position
  le_end : it.position ≤ d.first + d.elems.length

/-- An element more behind the last; no iterator stays valid. -/
def pushBack (d : Deque α) (a : α) : Deque α where
  elems := d.elems ++ [a]
  first := d.first
  generation := d.generation + 1

/-- The first element leaves; when it was the only one, no iterator stays valid. -/
def popFront (d : Deque α) : Deque α where
  elems := d.elems.tail
  first := d.first + 1
  generation := if d.elems.length = 1 then d.generation + 1 else d.generation

/-- The element an iterator denotes. -/
def get? (d : Deque α) (it : Iterator) : Option α :=
  d.elems[it.position - d.first]?

/-- `std::distance` from the beginning. -/
def distance (d : Deque α) (it : Iterator) : ℕ :=
  it.position - d.first

/-- What a moved queue becomes: the elements keep their places. -/
def move (d : Deque α) : Deque α :=
  d

/-- The iterator of a queue's beginning is valid until the queue changes. -/
theorem valid_beginIter (d : Deque α) : d.Valid d.beginIter :=
  ⟨rfl, Nat.le_refl _, Nat.le_add_right _ _⟩

/-- After `pushBack` no iterator is valid that was obtained before. -/
theorem not_valid_pushBack {d : Deque α} {it : Iterator}
    (h : it.generation ≤ d.generation) (a : α) : ¬(d.pushBack a).Valid it := by
  intro hvalid
  have hgeneration := hvalid.generation
  rw [pushBack] at hgeneration
  dsimp only at hgeneration
  omega

end Deque

end Library
