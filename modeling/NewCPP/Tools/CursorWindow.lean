import NewCPP.Library.Deque
import NewCPP.Tools.SlidingWindow

/-!
# The cursor of the sliding window

`SlidingWindow` keeps an iterator into its own `std::deque` across `push_back` and
`pop_front`.  This is the window with this iterator, over the deques of `Library.Deque`.

* `cursor_valid_iff` — the iterator is valid whenever it is used exactly if nothing was
  ever added
* `forget_addData`, `forget_getNextData` — a library whose iterators are positions computes
  what `SlidingWindow` does

## Design notes

**Uses.**  `uses` lists the moments at which `nextReadElement` was compared, dereferenced,
advanced or measured: the storage and the iterator of each.  Nothing the code does reads it.

**Behind an invalid use** the code has no meaning by the rules of the language.  The window
goes on by the positions, as the deque of libstdc++ does as long as its map of blocks is not
reallocated.

**Validity** is that of `Library.Deque`: after `push_back` no iterator is valid, and after
`pop_front` of the only element not even the end is.  The cursor of a window to which nothing
was ever added is still the one of its construction.

**Moving.**  A window is moved into the map of the manager once, before anything is added.
-/

namespace NewCPP

open Library

universe u v

/-- A moment at which the cursor is used. -/
structure CursorUse (α : Type u) where
  storage : Deque α
  cursor : Deque.Iterator

/-- The members of `SlidingWindow`, with the iterator as one, and its uses so far. -/
structure CursorWindow (D : Type u) (M : Type v) where
  storage : Deque (DataWithMeta D M)
  nextReadElement : Deque.Iterator
  cleanupPolicy : MaxHistoryCleanupPolicy
  uses : List (CursorUse (DataWithMeta D M)) := []

namespace CursorWindow

variable {D : Type u} {M : Type v}

/-- `SlidingWindow(policy)`. -/
def construct (policy : MaxHistoryCleanupPolicy) : CursorWindow D M where
  storage := {}
  nextReadElement := ({} : Deque (DataWithMeta D M)).beginIter
  cleanupPolicy := policy

/-- The move constructor. -/
def move (other : CursorWindow D M) : CursorWindow D M where
  storage := other.storage.move
  nextReadElement := other.nextReadElement
  cleanupPolicy := other.cleanupPolicy
  uses := other.uses

/-- The iterator is used. -/
def use (window : CursorWindow D M) : CursorWindow D M :=
  { window with uses := window.uses ++ [⟨window.storage, window.nextReadElement⟩] }

/-- `cleanup`: `std::distance` is measured before each `pop_front`.  A `pop_front` brings
the beginning one nearer, so that the distance bounds their number. -/
def cleanupLoop : ℕ → CursorWindow D M → CursorWindow D M
  | 0, window => window
  | rounds + 1, window =>
      let window := window.use
      if window.storage.distance window.nextReadElement > window.cleanupPolicy.historyDepth
      then cleanupLoop rounds { window with storage := window.storage.popFront }
      else window

/-- `cleanup`: items are popped while more than the history depth are before the cursor. -/
def cleanup (window : CursorWindow D M) : CursorWindow D M :=
  cleanupLoop (window.storage.distance window.nextReadElement + 1) window

/-- `nextReadElement == storage.end()`. -/
def atEnd (window : CursorWindow D M) : Bool :=
  window.nextReadElement.position = window.storage.endIter.position

/-- The item goes to the end; a cursor that compares as the end goes back to the beginning. -/
def addData (window : CursorWindow D M) (metadata : M) (data : D) : CursorWindow D M :=
  let window := { window with storage := window.storage.pushBack (metadata, data) }
  let window := window.use
  let window :=
    if window.atEnd then { window with nextReadElement := window.storage.beginIter }
    else window
  window.cleanup

/-- Whether the cursor compares different from the end. -/
def hasNextData (window : CursorWindow D M) : Bool × CursorWindow D M :=
  (!window.atEnd, window.use)

/-- `nextReadElement++`. -/
def advance (window : CursorWindow D M) : CursorWindow D M :=
  { window with
    nextReadElement :=
      { window.nextReadElement with position := window.nextReadElement.position + 1 } }

/-- The item at the cursor, which then advances. -/
def getNextData (window : CursorWindow D M) :
    Option (DataWithMeta D M) × CursorWindow D M :=
  let window := window.use
  if window.atEnd then (none, window)
  else
    let window := window.use
    let result := window.storage.get? window.nextReadElement
    (result, window.use.advance.cleanup)

/-- `getCleanupPolicy().setHistoryDepth(depth)`. -/
def setHistoryDepth (window : CursorWindow D M) (depth : ℕ) : CursorWindow D M :=
  { window with cleanupPolicy := { historyDepth := depth } }

/-! ## Uses of an invalid cursor -/

/-- The iterator is valid now. -/
def Valid (window : CursorWindow D M) : Prop :=
  window.storage.Valid window.nextReadElement

/-- Every use so far was one of a valid iterator. -/
def Sound (window : CursorWindow D M) : Prop :=
  ∀ use ∈ window.uses, use.storage.Valid use.cursor

theorem sound_use {window : CursorWindow D M} :
    window.use.Sound ↔ window.Sound ∧ window.Valid := by
  rw [Sound, use]
  dsimp only
  constructor
  · intro h
    exact ⟨fun use hmem => h use (List.mem_append_left _ hmem),
      h _ (List.mem_append_right _ List.mem_cons_self)⟩
  · rintro ⟨hsound, hvalid⟩ use hmem
    rcases List.mem_append.mp hmem with hmem | hmem
    · exact hsound use hmem
    · rw [List.mem_singleton.mp hmem]
      exact hvalid

/-- The cursor was obtained no later than the storage changed last, and all earlier uses
were used up to now. -/
structure Grows (window window' : CursorWindow D M) : Prop where
  uses : window.uses <+: window'.uses
  old : window.nextReadElement.generation ≤ window.storage.generation →
    window'.nextReadElement.generation ≤ window'.storage.generation

theorem Grows.trans {w w' w'' : CursorWindow D M} (h : w.Grows w') (h' : w'.Grows w'') :
    w.Grows w'' :=
  ⟨h.uses.trans h'.uses, h'.old ∘ h.old⟩

theorem grows_use (window : CursorWindow D M) : window.Grows window.use :=
  ⟨List.prefix_append _ _, fun h => h⟩

theorem grows_cleanupLoop (rounds : ℕ) : ∀ window : CursorWindow D M,
    window.Grows (cleanupLoop rounds window) := by
  induction rounds with
  | zero => exact fun window => ⟨List.prefix_rfl, fun h => h⟩
  | succ rounds ih =>
      intro window
      rw [cleanupLoop]
      split
      · refine (grows_use window).trans (Grows.trans ?_ (ih _))
        refine ⟨List.prefix_rfl, fun h => ?_⟩
        rw [Deque.popFront]
        dsimp only
        split
        · exact Nat.le_succ_of_le h
        · exact h
      · exact grows_use window

theorem grows_getNextData (window : CursorWindow D M) :
    window.Grows window.getNextData.2 := by
  rw [getNextData]
  dsimp only
  split
  · exact grows_use window
  · refine ((grows_use window).trans ((grows_use _).trans (grows_use _))).trans ?_
    have hadvance : window.use.use.use.Grows window.use.use.use.advance :=
      ⟨List.prefix_rfl, fun h => h⟩
    exact hadvance.trans (grows_cleanupLoop _ _)

/-- Later uses do not undo an invalid one. -/
theorem Grows.sound {window window' : CursorWindow D M} (h : window.Grows window')
    (hsound : window'.Sound) : window.Sound :=
  fun use hmem => hsound use (h.uses.subset hmem)

/-- The window after one `pop_front` of `cleanup`. -/
def popped (window : CursorWindow D M) : CursorWindow D M :=
  { window with storage := window.storage.popFront }

theorem atEnd_iff {window : CursorWindow D M} :
    window.atEnd = true ↔ window.nextReadElement.position =
      window.storage.first + window.storage.elems.length := by
  rw [atEnd, decide_eq_true_iff]
  rfl

/-! ## Any calls -/

/-- One call, of whichever thread. -/
inductive Call (D : Type u) (M : Type v) where
  | addData (metadata : M) (data : D)
  | getNextData
  | hasNextData
  | setHistoryDepth (depth : ℕ)

/-- What a call leaves. -/
def call (window : CursorWindow D M) : Call D M → CursorWindow D M
  | .addData metadata data => window.addData metadata data
  | .getNextData => window.getNextData.2
  | .hasNextData => window.hasNextData.2
  | .setHistoryDepth depth => window.setHistoryDepth depth

/-- A new window of a depth, and calls on it. -/
def calls (depth : ℕ) (made : List (Call D M)) : CursorWindow D M :=
  made.foldl call (construct { historyDepth := depth })

/-- The call is `AddData`. -/
def Call.Adds : Call D M → Prop
  | .addData _ _ => True
  | .getNextData | .hasNextData | .setHistoryDepth _ => False

/-- The window right after its `push_back`. -/
def pushed (window : CursorWindow D M) (metadata : M) (data : D) : CursorWindow D M :=
  { window with storage := window.storage.pushBack (metadata, data) }

/-- `AddData` from its comparison on. -/
theorem grows_addData (window : CursorWindow D M) (metadata : M) (data : D) :
    (window.pushed metadata data).use.Grows (window.addData metadata data) := by
  have hbegin : (window.pushed metadata data).use.Grows
      { (window.pushed metadata data).use with
        nextReadElement := (window.pushed metadata data).storage.beginIter } :=
    ⟨List.prefix_rfl, fun _ => Nat.le_refl _⟩
  rw [addData]
  split
  · exact hbegin.trans (grows_cleanupLoop _ _)
  · exact grows_cleanupLoop _ _

theorem grows_pushed (window : CursorWindow D M) (metadata : M) (data : D) :
    window.Grows (window.pushed metadata data) :=
  ⟨List.prefix_rfl, Nat.le_succ_of_le⟩

theorem grows_call (window : CursorWindow D M) (made : Call D M) :
    window.Grows (window.call made) := by
  cases made with
  | addData metadata data =>
      exact (grows_pushed window metadata data).trans
        ((grows_use _).trans (grows_addData window metadata data))
  | getNextData => exact grows_getNextData window
  | hasNextData => exact grows_use window
  | setHistoryDepth depth => exact ⟨List.prefix_rfl, fun h => h⟩

/-- **`AddData` compares an iterator that its `push_back` has invalidated.** -/
theorem addData_not_sound {window : CursorWindow D M}
    (h : window.nextReadElement.generation ≤ window.storage.generation) (metadata : M)
    (data : D) : ¬(window.addData metadata data).Sound := by
  intro hsound
  have hused := (grows_addData window metadata data).sound hsound
  exact Deque.not_valid_pushBack h (metadata, data) (sound_use.mp hused).2

/-- Nothing has been added. -/
structure Untouched (window : CursorWindow D M) : Prop where
  empty : window.storage.elems = []
  valid : window.Valid
  sound : window.Sound

theorem untouched_construct (policy : MaxHistoryCleanupPolicy) :
    (construct policy : CursorWindow D M).Untouched :=
  ⟨rfl, Deque.valid_beginIter _, fun _ hmem => absurd hmem List.not_mem_nil⟩

theorem Untouched.use {window : CursorWindow D M} (h : window.Untouched) :
    window.use.Untouched :=
  ⟨h.empty, h.valid, sound_use.mpr ⟨h.sound, h.valid⟩⟩

theorem Untouched.call {window : CursorWindow D M} (h : window.Untouched) {made : Call D M}
    (hmade : ¬made.Adds) : (window.call made).Untouched := by
  cases made with
  | addData metadata data => exact absurd trivial hmade
  | hasNextData => exact h.use
  | setHistoryDepth depth => exact ⟨h.empty, h.valid, h.sound⟩
  | getNextData =>
      have hend : window.use.atEnd = true := by
        have hle := h.valid.le_end
        have hfirst := h.valid.first_le
        show window.atEnd = true
        rw [h.empty, List.length_nil] at hle
        rw [atEnd_iff, h.empty, List.length_nil]
        omega
      show window.getNextData.2.Untouched
      rw [getNextData]
      dsimp only
      rw [if_pos hend]
      exact h.use

/-- **The cursor is valid whenever it is used, exactly if nothing is ever added.**  Over any
calls on a new window, of any depths. -/
theorem cursor_valid_iff (depth : ℕ) (made : List (Call D M)) :
    (calls depth made).Sound ↔ ∀ call ∈ made, ¬call.Adds := by
  have honly (made : List (Call D M)) : ∀ window : CursorWindow D M,
      window.nextReadElement.generation ≤ window.storage.generation →
      (made.foldl call window).Sound → window.Sound ∧ ∀ call ∈ made, ¬call.Adds := by
    induction made with
    | nil => exact fun _ _ h => ⟨h, fun _ hmem => absurd hmem List.not_mem_nil⟩
    | cons first made ih =>
        intro window hold hsound
        have hgrows := grows_call window first
        obtain ⟨hfirst, hrest⟩ := ih _ (hgrows.old hold) hsound
        refine ⟨hgrows.sound hfirst, fun call hmem => ?_⟩
        rcases List.mem_cons.mp hmem with rfl | hmem
        · intro hadds
          cases call with
          | addData metadata data => exact addData_not_sound hold metadata data hfirst
          | _ => exact hadds
        · exact hrest call hmem
  have hwhen (made : List (Call D M)) : ∀ window : CursorWindow D M, window.Untouched →
      (∀ call ∈ made, ¬call.Adds) → (made.foldl call window).Sound := by
    induction made with
    | nil => exact fun _ h _ => h.sound
    | cons first made ih =>
        intro window h hmade
        exact ih _ (h.call (hmade first List.mem_cons_self))
          fun call hmem => hmade call (List.mem_cons_of_mem _ hmem)
  exact ⟨fun h => (honly made _ (Nat.le_refl _) h).2,
    hwhen made _ (untouched_construct { historyDepth := depth })⟩

/-- One `AddData` on a new window is enough. -/
theorem not_cursor_valid :
    ¬∀ (depth : ℕ) (made : List (Call Unit Unit)), (calls depth made).Sound := by
  intro h
  have hold : (construct ⟨1⟩ : CursorWindow Unit Unit).nextReadElement.generation ≤
      (construct ⟨1⟩ : CursorWindow Unit Unit).storage.generation := Nat.le_refl _
  exact addData_not_sound hold () () (h 1 [.addData () ()])

/-! ## Positions -/

/-- The window with its cursor as an index. -/
def forget (window : CursorWindow D M) : SlidingWindow D M where
  storage := window.storage.elems
  nextReadElement := window.storage.distance window.nextReadElement
  cleanupPolicy := window.cleanupPolicy

/-- The cursor is not before the beginning. -/
def Ahead (window : CursorWindow D M) : Prop :=
  window.storage.first ≤ window.nextReadElement.position

theorem atEnd_forget {window : CursorWindow D M} (h : window.Ahead) :
    window.atEnd = true ↔ window.forget.nextReadElement = window.forget.storage.length := by
  rw [Ahead] at h
  rw [atEnd_iff, forget]
  dsimp only
  rw [Deque.distance]
  omega

/-- The policy has nothing to pop. -/
theorem cleanup_of_le {α : Type*} {policy : MaxHistoryCleanupPolicy} {distance : ℕ}
    (storage : List α) (h : distance ≤ policy.historyDepth) :
    policy.cleanup storage distance = (storage, distance) := by
  cases distance with
  | zero => rfl
  | succ distance =>
      rw [MaxHistoryCleanupPolicy.cleanup, if_neg (Nat.not_lt.mpr h)]

/-- A round of `cleanup` that pops. -/
theorem forget_popped {window : CursorWindow D M}
    (hfar : window.cleanupPolicy.historyDepth <
      window.storage.distance window.nextReadElement) :
    window.popped.Ahead ∧ window.popped.forget.cleanup = window.forget.cleanup ∧
      window.storage.distance window.nextReadElement =
        window.popped.storage.distance window.nextReadElement + 1 := by
  have hposition : window.storage.first + 1 ≤ window.nextReadElement.position := by
    rw [Deque.distance] at hfar
    omega
  have hdistance : window.storage.distance window.nextReadElement =
      window.popped.storage.distance window.nextReadElement + 1 := by
    show window.nextReadElement.position - window.storage.first =
      window.nextReadElement.position - (window.storage.first + 1) + 1
    omega
  have hpop : window.cleanupPolicy.cleanup window.storage.elems
        (window.storage.distance window.nextReadElement) =
      window.cleanupPolicy.cleanup window.storage.elems.tail
        (window.popped.storage.distance window.nextReadElement) := by
    rw [hdistance, MaxHistoryCleanupPolicy.cleanup, if_pos (hdistance ▸ hfar)]
  refine ⟨hposition, ?_, hdistance⟩
  rw [SlidingWindow.cleanup, SlidingWindow.cleanup]
  simp only [forget, hpop]
  rfl

theorem forget_cleanupLoop (rounds : ℕ) : ∀ {window : CursorWindow D M}, window.Ahead →
    window.storage.distance window.nextReadElement < rounds →
    (cleanupLoop rounds window).Ahead ∧
      (cleanupLoop rounds window).forget = window.forget.cleanup := by
  induction rounds with
  | zero => exact fun _ h => absurd h (Nat.not_lt_zero _)
  | succ rounds ih =>
      intro window h hrounds
      rw [cleanupLoop]
      split
      · rename_i hfar
        obtain ⟨hahead, hcleanup, hdistance⟩ := forget_popped hfar
        have hless : window.use.popped.storage.distance window.nextReadElement < rounds := by
          rw [show window.storage.distance window.nextReadElement = _ from hdistance] at hrounds
          exact Nat.lt_of_succ_lt_succ hrounds
        obtain ⟨hahead', hforget⟩ := ih hahead hless
        exact ⟨hahead', hforget.trans hcleanup⟩
      · rename_i hnear
        change ¬window.storage.distance window.nextReadElement >
          window.cleanupPolicy.historyDepth at hnear
        refine ⟨h, ?_⟩
        rw [SlidingWindow.cleanup]
        simp only [forget, cleanup_of_le window.storage.elems (Nat.le_of_not_lt hnear)]
        rfl

theorem forget_cleanup {window : CursorWindow D M} (h : window.Ahead) :
    window.cleanup.Ahead ∧ window.cleanup.forget = window.forget.cleanup :=
  forget_cleanupLoop _ h (Nat.lt_succ_self _)

/-- **By positions `AddData` is that of `SlidingWindow`**, an invalidated cursor going on to
denote what stands at its position. -/
theorem forget_addData {window : CursorWindow D M} (h : window.Ahead) (metadata : M)
    (data : D) :
    (window.addData metadata data).Ahead ∧
      (window.addData metadata data).forget = window.forget.addData metadata data := by
  have hpushed : (window.pushed metadata data).use.Ahead := h
  have hend := atEnd_forget hpushed
  rw [addData, SlidingWindow.addData]
  split
  · rename_i hatEnd
    have hbegin : ({ (window.pushed metadata data).use with
        nextReadElement := (window.pushed metadata data).storage.beginIter } :
          CursorWindow D M).Ahead := Nat.le_refl _
    obtain ⟨hahead, hforget⟩ := forget_cleanup hbegin
    refine ⟨hahead, hforget.trans ?_⟩
    have hzero : (window.pushed metadata data).use.storage.distance
        (window.pushed metadata data).storage.beginIter = 0 := Nat.sub_self _
    have hif : window.forget.nextReadElement =
        (window.forget.storage ++ [(metadata, data)]).length := hend.mp hatEnd
    rw [if_pos hif, forget]
    dsimp only
    rw [hzero]
    rfl
  · rename_i hatEnd
    obtain ⟨hahead, hforget⟩ := forget_cleanup hpushed
    refine ⟨hahead, hforget.trans ?_⟩
    have hif : window.forget.nextReadElement ≠
        (window.forget.storage ++ [(metadata, data)]).length := fun heq => hatEnd (hend.mpr heq)
    rw [if_neg hif]
    rfl

theorem forget_hasNextData {window : CursorWindow D M} (h : window.Ahead) :
    window.hasNextData.1 = window.forget.hasNextData := by
  rw [hasNextData, SlidingWindow.hasNextData]
  dsimp only
  have hend := atEnd_forget h
  by_cases hatEnd : window.atEnd = true
  · rw [hatEnd, decide_eq_false (not_not.mpr (hend.mp hatEnd))]
    rfl
  · have hne : window.forget.nextReadElement ≠ window.forget.storage.length :=
      fun heq => hatEnd (hend.mpr heq)
    rw [Bool.eq_false_iff.mpr hatEnd, decide_eq_true hne]
    rfl

theorem forget_getNextData {window : CursorWindow D M} (h : window.Ahead) :
    window.getNextData.2.Ahead ∧ window.getNextData.1 = window.forget.getNextData.1 ∧
      window.getNextData.2.forget = window.forget.getNextData.2 := by
  have hend := atEnd_forget h
  rw [getNextData, SlidingWindow.getNextData]
  split
  · rename_i hatEnd
    rw [if_neg (not_not.mpr (hend.mp hatEnd))]
    exact ⟨h, rfl, rfl⟩
  · rename_i hatEnd
    rw [if_pos fun heq => hatEnd (hend.mpr heq)]
    have hadvance : window.use.use.use.advance.Ahead := Nat.le_succ_of_le h
    obtain ⟨hahead, hforget⟩ := forget_cleanup hadvance
    refine ⟨hahead, rfl, hforget.trans ?_⟩
    have hnext : window.storage.distance
        { window.nextReadElement with position := window.nextReadElement.position + 1 } =
          window.storage.distance window.nextReadElement + 1 := Nat.succ_sub h
    simp only [forget, advance, use, hnext]

end CursorWindow

end NewCPP
