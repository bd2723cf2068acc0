import Mathlib.Data.List.DropRight
import Mathlib.Tactic.Common

/-!
# The sliding window

`SlidingWindow` keeps what was added until it has been read, and behind the reader as many
items as its cleanup policy leaves.

* `fifo_with_history` — with `MaxHistoryCleanupPolicy` the window is a FIFO that loses
  nothing and remembers the last `historyDepth` items that were read, after any calls.

## Design notes

**The iterator.**  `nextReadElement` is the position that it denotes: `end()` is the
length of the storage, `push_back` leaves positions alone, and `pop_front` shifts them by
one.  An iterator that was `end()` denotes the new element after `push_back`.

**The mutex.**  Every call takes it first, so that calls of several threads are one
sequence of calls.

**Purpose.**  `Course` is the abstract window: all that was ever added and how much of it was
read.  `Course.Sound` relates it to the window, and `fifo_with_history` is its consequence for
the answers of `GetNextData` and for what is still stored.

**Depth.**  It is any number, zero included, where nothing is remembered that was read.
-/

namespace NewCPP

universe u v

/-- Metadata and data of one item. -/
abbrev DataWithMeta (D : Type u) (M : Type v) := M × D

/-- How many items behind the reader are kept. -/
structure MaxHistoryCleanupPolicy where
  historyDepth : ℕ

/-- `cleanup`: items are popped while more than `historyDepth` are before the reader. -/
def MaxHistoryCleanupPolicy.cleanup {α : Type u} (policy : MaxHistoryCleanupPolicy) :
    List α → ℕ → List α × ℕ
  | storage, 0 => (storage, 0)
  | storage, distance + 1 =>
      if distance + 1 > policy.historyDepth then policy.cleanup storage.tail distance
      else (storage, distance + 1)

/-- The items and the place of the reader, as a number. -/
structure SlidingWindow (D : Type u) (M : Type v) where
  storage : List (DataWithMeta D M) := []
  nextReadElement : ℕ := 0
  cleanupPolicy : MaxHistoryCleanupPolicy

namespace SlidingWindow

variable {D : Type u} {M : Type v}

/-- The call of the policy at the end of `AddData` and `GetNextData`. -/
def cleanup (window : SlidingWindow D M) : SlidingWindow D M :=
  let cleaned := window.cleanupPolicy.cleanup window.storage window.nextReadElement
  { window with storage := cleaned.1, nextReadElement := cleaned.2 }

/-- An item goes to the end; then the window is cleaned up. -/
def addData (window : SlidingWindow D M) (metadata : M) (data : D) : SlidingWindow D M :=
  let storage := window.storage ++ [(metadata, data)]
  let nextReadElement :=
    if window.nextReadElement = storage.length then 0 else window.nextReadElement
  { window with storage := storage, nextReadElement := nextReadElement }.cleanup

/-- The reader is not at the end. -/
def hasNextData (window : SlidingWindow D M) : Bool :=
  window.nextReadElement ≠ window.storage.length

/-- `GetNextData`; the null pointer is `none`. -/
def getNextData (window : SlidingWindow D M) :
    Option (DataWithMeta D M) × SlidingWindow D M :=
  if window.nextReadElement ≠ window.storage.length then
    let result := window.storage[window.nextReadElement]?
    (result, { window with nextReadElement := window.nextReadElement + 1 }.cleanup)
  else (none, window)

/-- The visitor sees the storage and changes nothing. -/
def accessStorage {β : Type*} (window : SlidingWindow D M)
    (visitor : List (DataWithMeta D M) → β) : β :=
  visitor window.storage

/-! ## Calls -/

/-- One call, of whichever thread. -/
inductive Call (D : Type u) (M : Type v) where
  | addData (metadata : M) (data : D)
  | hasNextData
  | getNextData

/-- What the calls so far have left: the window, the items that were added, and the
non-null results of `GetNextData`. -/
structure Course (D : Type u) (M : Type v) where
  window : SlidingWindow D M
  added : List (DataWithMeta D M) := []
  got : List (DataWithMeta D M) := []

/-- **One call.** -/
def Course.call (course : Course D M) : Call D M → Course D M
  | .addData metadata data =>
      { course with
        window := course.window.addData metadata data
        added := course.added ++ [(metadata, data)] }
  | .hasNextData => course
  | .getNextData =>
      let next := course.window.getNextData
      { course with window := next.2, got := course.got ++ next.1.toList }

/-- A new window of a depth, and calls on it. -/
def calls (depth : ℕ) (made : List (Call D M)) : Course D M :=
  made.foldl Course.call { window := { cleanupPolicy := { historyDepth := depth } } }

/-! ## The invariant -/

/-- `cleanup` of a storage in which the reader is at most one item too far. -/
theorem cleanup_eq {α : Type u} (policy : MaxHistoryCleanupPolicy) (storage : List α)
    {distance : ℕ} (hdistance : distance ≤ policy.historyDepth + 1) :
    policy.cleanup storage distance =
      (storage.drop (distance - policy.historyDepth),
        distance - (distance - policy.historyDepth)) := by
  obtain ⟨depth⟩ := policy
  simp only at hdistance ⊢
  cases distance with
  | zero => simp [MaxHistoryCleanupPolicy.cleanup]
  | succ distance =>
      rw [MaxHistoryCleanupPolicy.cleanup]
      split
      · rename_i htoo
        simp only at htoo
        obtain rfl : distance = depth := by omega
        -- one item is popped, and then the loop ends
        have hdone : MaxHistoryCleanupPolicy.cleanup ⟨distance⟩ storage.tail distance =
            (storage.tail, distance) := by
          cases distance with
          | zero => rfl
          | succ distance => simp [MaxHistoryCleanupPolicy.cleanup]
        rw [hdone]
        simp
      · rename_i hfits
        simp only [gt_iff_lt, not_lt] at hfits
        simp [Nat.sub_eq_zero_of_le hfits]

/-- **The invariant**: the window after `read` items were read and `unread` were not. -/
structure Holds (window : SlidingWindow D M) (read unread : List (DataWithMeta D M)) :
    Prop where
  next : window.nextReadElement = min window.cleanupPolicy.historyDepth read.length
  storage : window.storage =
    read.rtake (min window.cleanupPolicy.historyDepth read.length) ++ unread

theorem length_rtake {α : Type*} (l : List α) {n : ℕ} (h : n ≤ l.length) :
    (l.rtake n).length = n := by
  rw [List.rtake, List.length_drop]
  omega

theorem Holds.length_storage {window : SlidingWindow D M}
    {read unread : List (DataWithMeta D M)} (h : window.Holds read unread) :
    window.storage.length = window.nextReadElement + unread.length := by
  rw [h.storage, List.length_append, h.next, length_rtake _ (Nat.min_le_right _ _)]

/-- The reader is at the end exactly when nothing is unread. -/
theorem Holds.at_end_iff {window : SlidingWindow D M}
    {read unread : List (DataWithMeta D M)} (h : window.Holds read unread) :
    window.nextReadElement = window.storage.length ↔ unread = [] := by
  rw [h.length_storage, ← List.length_eq_zero_iff]
  omega

/-- `AddData`: the reader is never at the new end, and nothing has to be cleaned up. -/
theorem Holds.addData {window : SlidingWindow D M} {read unread : List (DataWithMeta D M)}
    (h : window.Holds read unread) (metadata : M) (data : D) :
    (window.addData metadata data).Holds read (unread ++ [(metadata, data)]) := by
  have hlength := h.length_storage
  have hnext : window.nextReadElement ≠ (window.storage ++ [(metadata, data)]).length := by
    rw [List.length_append, List.length_singleton]
    omega
  have hdepth : window.nextReadElement - window.cleanupPolicy.historyDepth = 0 := by
    have := h.next
    omega
  rw [SlidingWindow.addData, if_neg hnext]
  constructor
  · show (window.cleanupPolicy.cleanup _ window.nextReadElement).2 = _
    rw [cleanup_eq _ _ (by omega), hdepth]
    exact h.next
  · show (window.cleanupPolicy.cleanup _ window.nextReadElement).1 = _
    rw [cleanup_eq _ _ (by omega), hdepth, h.storage]
    simp only [List.drop_zero, List.append_assoc]
    rfl

theorem rtake_concat {α : Type*} (l : List α) (x : α) (depth : ℕ) :
    (l ++ [x]).rtake (min depth (l.length + 1)) =
      (l.rtake (min depth l.length) ++ [x]).drop (min depth l.length + 1 - depth) := by
  simp only [List.rtake, List.length_append, List.length_singleton]
  rw [← List.drop_append_of_le_length (by omega), List.drop_drop]
  congr 1
  omega

/-- `GetNextData` of a window with an unread item reads that item. -/
theorem Holds.getNextData {window : SlidingWindow D M} {read unread : List (DataWithMeta D M)}
    {item : DataWithMeta D M} (h : window.Holds read (item :: unread)) :
    window.getNextData.1 = some item ∧
      window.getNextData.2.Holds (read ++ [item]) unread := by
  have hend : window.nextReadElement ≠ window.storage.length := by
    rw [ne_eq, h.at_end_iff]
    exact List.cons_ne_nil item unread
  have hbefore : (read.rtake (min window.cleanupPolicy.historyDepth read.length)).length =
      window.nextReadElement := by
    rw [length_rtake _ (Nat.min_le_right _ _), h.next]
  have hnext := h.next
  rw [SlidingWindow.getNextData, if_pos hend]
  refine ⟨?_, ⟨?_, ?_⟩⟩
  · show window.storage[window.nextReadElement]? = some item
    rw [h.storage, ← hbefore]
    simp
  · show (window.cleanupPolicy.cleanup _ (window.nextReadElement + 1)).2 =
      min window.cleanupPolicy.historyDepth (read ++ [item]).length
    rw [cleanup_eq _ _ (by omega), List.length_append, List.length_singleton]
    omega
  · show (window.cleanupPolicy.cleanup window.storage (window.nextReadElement + 1)).1 =
      (read ++ [item]).rtake (min window.cleanupPolicy.historyDepth (read ++ [item]).length) ++
        unread
    rw [cleanup_eq _ _ (by omega), h.storage, List.length_append, List.length_singleton,
      rtake_concat, h.next, ← List.singleton_append, ← List.append_assoc]
    refine List.drop_append_of_le_length ?_
    rw [List.length_append, List.length_singleton, length_rtake _ (Nat.min_le_right _ _)]
    omega

theorem Holds.getNextData_nil {window : SlidingWindow D M} {read : List (DataWithMeta D M)}
    (h : window.Holds read []) : window.getNextData = (none, window) := by
  rw [SlidingWindow.getNextData, if_neg (not_not.2 (h.at_end_iff.2 rfl))]

/-! ## Any calls -/

/-- The items that were got are the first ones that were added, and the window is what the
invariant says. -/
structure Course.Sound (depth : ℕ) (course : Course D M) : Prop where
  depth : course.window.cleanupPolicy.historyDepth = depth
  window : ∃ unread, course.added = course.got ++ unread ∧
    course.window.Holds course.got unread

theorem Course.Sound.call {depth : ℕ} {course : Course D M} (h : course.Sound depth)
    (made : Call D M) : (course.call made).Sound depth := by
  obtain ⟨hdepth, unread, hadded, hwindow⟩ := h
  cases made with
  | addData metadata data =>
      refine ⟨hdepth, unread ++ [(metadata, data)], ?_, hwindow.addData metadata data⟩
      show course.added ++ [(metadata, data)] = course.got ++ (unread ++ [(metadata, data)])
      rw [hadded, List.append_assoc]
  | hasNextData => exact ⟨hdepth, unread, hadded, hwindow⟩
  | getNextData =>
      rw [Course.call]
      cases unread with
      | nil =>
          rw [hwindow.getNextData_nil]
          refine ⟨hdepth, [], ?_, ?_⟩
          · simpa using hadded
          · simpa using hwindow
      | cons item unread =>
          obtain ⟨hitem, hread⟩ := hwindow.getNextData
          refine ⟨?_, unread, ?_, ?_⟩
          · show course.window.getNextData.2.cleanupPolicy.historyDepth = depth
            rw [SlidingWindow.getNextData]
            split <;> exact hdepth
          · simp [hadded, hitem]
          · simpa [hitem] using hread

theorem sound_calls (depth : ℕ) (made : List (Call D M)) :
    (calls depth made).Sound depth := by
  rw [calls]
  have hnew : Course.Sound depth
      ({ window := { cleanupPolicy := { historyDepth := depth } } } : Course D M) :=
    ⟨rfl, [], rfl, by simp, by simp [List.rtake]⟩
  generalize ({ window := { cleanupPolicy := { historyDepth := depth } } } : Course D M) =
    course at hnew ⊢
  induction made generalizing course with
  | nil => exact hnew
  | cons call made ih => exact ih _ (hnew.call call)

/-- **A FIFO with bounded history.**  After any calls on a new window, whatever its depth:
the results of `GetNextData` were the first items that were added; the next
`HasNextData` and `GetNextData` find an item exactly if one has not been read; and the
storage is the last `min depth r` of the `r` items read followed by all unread ones. -/
theorem fifo_with_history (depth : ℕ) (made : List (Call D M)) :
    let course := calls depth made
    let r := course.got.length
    course.got = course.added.take r ∧
      (course.window.hasNextData = true ↔ r < course.added.length) ∧
      course.window.getNextData.1 = course.added[r]? ∧
      course.window.accessStorage id =
        course.got.rtake (min depth r) ++ course.added.drop r := by
  obtain ⟨hdepth, unread, hadded, hwindow⟩ := sound_calls (D := D) (M := M) depth made
  intro course r
  change course.added = course.got ++ unread at hadded
  refine ⟨?_, ?_, ?_, ?_⟩
  · rw [hadded, List.take_left']
    rfl
  · rw [hasNextData, decide_eq_true_iff, ne_eq, hwindow.at_end_iff, hadded,
      List.length_append, ← List.length_eq_zero_iff]
    omega
  · rw [hadded]
    cases unread with
    | nil =>
        rw [hwindow.getNextData_nil]
        simp [r]
    | cons item unread =>
        rw [hwindow.getNextData.1]
        simp [r]
  · rw [hadded, List.drop_left', ← hdepth]
    · exact hwindow.storage
    · rfl

end SlidingWindow

end NewCPP
