import Mathlib.Data.List.Basic
import Mathlib.Tactic.Common

/-!
# Sources read in pieces

A *source* answers a request for `n` elements with at most `n` of them, possibly
none, or refuses.  Nothing else is fixed: how many elements an answer carries, and
whether a request stalls, is up to the source's hidden state.

What a caller may rely on is a contract about `unread`, the elements the source
still holds:

* `Lossless` — an answer is the next piece of `unread` and is consumed; a refusal
  consumes nothing.  Stalls are allowed, for ever.
* `Delivers` — moreover, while something is unread, a request is never refused and
  moves a `budget` down.  Stalls are allowed, but not for ever.
* `ShortReads` — moreover every answer carries at least one element.

`Answers` is about requests alone: none is refused, so that at its end a lossless source
answers with nothing.

Two concrete sources show the contracts at work.  `pieces k` hands out at most
`k + 1` elements a request.  `chunked` is the source whose state is its own schedule:
a list of chunks, the `k`-th of which is what the next requests find.  An empty chunk
is a stall.  Every finite behaviour of a lossless source is a behaviour of some chunk
list.
-/

namespace Library

universe u v

/-- A source of elements of `α` with state `σ`: a request for `n` elements is
refused (`none`) or answered with at most `n` elements. -/
structure Source (σ : Type u) (α : Type v) where
  read : σ → ℕ → Option (List α) × σ
  length_le : ∀ {s : σ} {n : ℕ} {bs : List α} {s' : σ},
    read s n = (some bs, s') → bs.length ≤ n

namespace Source

variable {σ : Type u} {α : Type v}

/-- Answers are consecutive pieces of `unread`; refusals consume nothing. -/
structure Lossless (R : Source σ α) (unread : σ → List α) : Prop where
  answered : ∀ {s : σ} {n : ℕ} {bs : List α} {s' : σ},
    R.read s n = (some bs, s') → unread s = bs ++ unread s'
  refused : ∀ {s : σ} {n : ℕ} {s' : σ}, R.read s n = (none, s') → unread s' = unread s

/-- Below `limit`, a request is answered while something is unread, and `budget`
bounds the number of requests that can still be made. -/
structure Delivers (R : Source σ α) (unread : σ → List α) (budget : σ → ℕ)
    (limit : ℕ) : Prop extends Lossless R unread where
  progress : ∀ {s : σ} {n : ℕ}, 0 < n → n < limit → unread s ≠ [] →
    ∃ bs s', R.read s n = (some bs, s') ∧ budget s' < budget s

/-- Below `limit`, a request for something returns at least one element while
something is unread, and a request for nothing returns nothing. -/
structure ShortReads (R : Source σ α) (unread : σ → List α) (limit : ℕ) : Prop
    extends Lossless R unread where
  progress : ∀ {s : σ} {n : ℕ}, 0 < n → n < limit → unread s ≠ [] →
    ∃ bs s', R.read s n = (some bs, s') ∧ bs ≠ []
  nothing : ∀ s : σ, ∃ s', R.read s 0 = (some [], s')

/-- No request is refused. -/
structure Answers (R : Source σ α) : Prop where
  answer : ∀ (s : σ) (n : ℕ), ∃ bs s', R.read s n = (some bs, s')

/-- Short reads deliver: each one shortens what is unread. -/
theorem ShortReads.delivers {R : Source σ α} {unread : σ → List α} {limit : ℕ}
    (h : ShortReads R unread limit) :
    Delivers R unread (fun s => (unread s).length) limit where
  answered := h.answered
  refused := h.refused
  progress := by
    intro s n hn hlim hne
    obtain ⟨bs, s', hread, hbs⟩ := h.progress hn hlim hne
    refine ⟨bs, s', hread, ?_⟩
    have hpos := List.length_pos_iff.mpr hbs
    rw [h.answered hread, List.length_append]
    omega

/-! ## The source that plays a schedule -/

/-- Answer a request from the front chunk.  Once the schedule is over the source is
at its end: it refuses when `closed` and returns nothing otherwise. -/
def chunkedRead (closed : Bool) : List (List α) → ℕ → Option (List α) × List (List α)
  | [], _ => (if closed then none else some [], [])
  | c :: cs, n =>
      if c.length ≤ n then (some c, cs) else (some (c.take n), c.drop n :: cs)

/-- **What a request finds**: the end of the schedule, a chunk that fits, or a longer one,
of which the front is returned. -/
theorem chunkedRead_cases {closed : Bool} {s : List (List α)} {n : ℕ} {answer : Option (List α)}
    {s' : List (List α)} (h : chunkedRead closed s n = (answer, s')) :
    (s = [] ∧ s' = [] ∧ answer = if closed then none else some []) ∨
      ∃ c cs, s = c :: cs ∧
        (c.length ≤ n ∧ answer = some c ∧ s' = cs ∨
          n < c.length ∧ answer = some (c.take n) ∧ s' = c.drop n :: cs) := by
  cases s with
  | nil =>
      cases h
      exact Or.inl ⟨rfl, rfl, rfl⟩
  | cons c cs =>
      refine Or.inr ⟨c, cs, rfl, ?_⟩
      rw [chunkedRead] at h
      split at h
      · rename_i hfits
        cases h
        exact Or.inl ⟨hfits, rfl, rfl⟩
      · rename_i hlonger
        cases h
        exact Or.inr ⟨Nat.lt_of_not_le hlonger, rfl, rfl⟩

/-- The source whose state is the schedule of chunks its requests will find. -/
def chunked (closed : Bool) : Source (List (List α)) α where
  read := chunkedRead closed
  length_le := by
    intro s n bs s' h
    obtain ⟨_, _, hend⟩ | ⟨c, cs, _, ⟨hfits, hchunk, _⟩ | ⟨_, hfront, _⟩⟩ := chunkedRead_cases h
    · cases closed <;> cases hend
      exact Nat.zero_le n
    · cases hchunk
      exact hfits
    · cases hfront
      exact List.length_take_le n c

/-- The number of requests a schedule can answer. -/
def chunkedBudget (cs : List (List α)) : ℕ :=
  cs.flatten.length + cs.length

/-- It always answers. -/
theorem chunked_answers : Answers (chunked (α := α) false) where
  answer := by
    intro s n
    change ∃ bs s', chunkedRead false s n = _
    cases s with
    | nil => exact ⟨[], [], rfl⟩
    | cons c cs =>
        rw [chunkedRead]
        split
        · exact ⟨c, cs, rfl⟩
        · exact ⟨c.take n, c.drop n :: cs, rfl⟩

/-- It hands out all that it holds, in order. -/
theorem chunked_lossless (closed : Bool) :
    Lossless (chunked (α := α) closed) List.flatten where
  answered := by
    intro s n bs s' h
    obtain ⟨rfl, rfl, hend⟩ | ⟨c, cs, rfl, ⟨_, hchunk, rfl⟩ | ⟨_, hfront, rfl⟩⟩ :=
      chunkedRead_cases h
    · cases closed <;> cases hend
      rfl
    · cases hchunk
      rw [List.flatten_cons]
    · cases hfront
      rw [List.flatten_cons, List.flatten_cons, ← List.append_assoc, List.take_append_drop]
  refused := by
    intro s n s' h
    obtain ⟨rfl, rfl, _⟩ | ⟨c, cs, _, ⟨_, hchunk, _⟩ | ⟨_, hfront, _⟩⟩ := chunkedRead_cases h
    · rfl
    · cases hchunk
    · cases hfront

/-- A request to an unfinished schedule takes a chunk off it or shortens one. -/
theorem chunked_delivers (closed : Bool) (limit : ℕ) :
    Delivers (chunked (α := α) closed) List.flatten chunkedBudget limit where
  toLossless := chunked_lossless closed
  progress := by
    intro s n hn _ hne
    cases s with
    | nil => exact absurd rfl hne
    | cons c cs =>
        change ∃ bs s', chunkedRead closed (c :: cs) n = _ ∧ _
        rw [chunkedRead]
        split
        · refine ⟨c, cs, rfl, ?_⟩
          simp only [chunkedBudget, List.flatten_cons, List.length_append, List.length_cons]
          omega
        · refine ⟨c.take n, c.drop n :: cs, rfl, ?_⟩
          simp only [chunkedBudget, List.flatten_cons, List.length_append, List.length_cons,
            List.length_drop]
          omega

/-! ## The source that answers in small pieces -/

/-- Answer every request with at most `k + 1` of the remaining elements. -/
def pieces (k : ℕ) : Source (List α) α where
  read s n := (some (s.take (min n (k + 1))), s.drop (min n (k + 1)))
  length_le := by
    intro s n bs s' h
    cases h
    rw [List.length_take]
    omega

/-- A read returns something as long as something is left. -/
theorem pieces_shortReads (k limit : ℕ) :
    ShortReads (pieces (α := α) k) (fun s => s) limit where
  answered := by
    intro s n bs s' h
    cases h
    exact (List.take_append_drop _ s).symm
  refused := by
    intro s n s' h
    cases h
  progress := by
    intro s n hn _ hne
    refine ⟨_, _, rfl, ?_⟩
    have hpos := List.length_pos_iff.mpr hne
    rw [← List.length_pos_iff, List.length_take]
    omega
  nothing := by
    intro s
    refine ⟨s, ?_⟩
    simp [pieces]

end Source

end Library
