import NewCPP.Library.Machine
import NewCPP.Tools.CursorWindow

/-!
# The manager of sliding windows

`SlidingWindowMgr` keeps windows by name.  A window is built outside the map, cursor
included, and moved into it.

* `windows_independent` — over any calls, what is observed of one name is what one window
  does that only the calls of this name drive

## Design notes

**The map** is `std::unordered_map`: nodes stay where they are when it grows, and only
the entry of a key is ever looked up.

**Cursors** go by positions, as in `CursorWindow`: what one window does is stated with
`SlidingWindow`, whose cursor is an index.

**Exceptions.**  A call that throws is answered with the text of the `std::runtime_error`.

**Layers.**  The manager is a product of machines in the sense of `Library.Machine`, one for
each name, and a window with a cursor simulates a window with an index (`CursorWindow.forget`).
`windows_independent` puts these two together: the projection of the product gives the calls of
one name, and the simulation gives what they are answered.
-/

namespace NewCPP

open Library

universe u v

/-- The windows by their names. -/
structure SlidingWindowMgr (D : Type u) (M : Type v) where
  windows : String → Option (CursorWindow D M) := fun _ => none

/-- A call on the manager, or on the window that `getWindow` of the manager returns. -/
inductive MgrCall (D : Type u) (M : Type v) where
  | addWindow (name : String) (windowSize : ℕ)
  | addData (name : String) (metadata : M) (data : D)
  | getNextData (name : String)
  | hasNextData (name : String)

/-- What the caller of a call sees. -/
inductive MgrResult (D : Type u) (M : Type v) where
  | done
  | threw (what : String)
  | item (data : Option (DataWithMeta D M))
  | has (data : Bool)
  deriving DecidableEq

namespace MgrCall

variable {D : Type u} {M : Type v}

/-- The name that a call is about. -/
def name : MgrCall D M → String
  | .addWindow name _ | .addData name _ _ | .getNextData name | .hasNextData name => name

/-- The call is `addWindow`. -/
def AddsWindow : MgrCall D M → Prop
  | .addWindow _ _ => True
  | .addData _ _ _ | .getNextData _ | .hasNextData _ => False

/-- What is thrown if there is no window. -/
def noWindow : MgrCall D M → String
  | .addData name _ _ => "No window with name: " ++ name ++ " can't add data."
  | .addWindow name _ | .getNextData name | .hasNextData name => "No window with name: " ++ name

end MgrCall

namespace SlidingWindowMgr

variable {D : Type u} {M : Type v}

/-- `emplace`: the node takes the pair over, unless there is a node of this name. -/
def emplace (mgr : SlidingWindowMgr D M) (entry : String × CursorWindow D M) :
    SlidingWindowMgr D M :=
  match mgr.windows entry.1 with
  | some _ => mgr
  | none => { windows := Function.update mgr.windows entry.1 (some entry.2.move) }

/-- A window under a new name; one that is there stays. -/
def addWindow (mgr : SlidingWindowMgr D M) (name : String) (windowSize : ℕ) :
    SlidingWindowMgr D M :=
  let policy : MaxHistoryCleanupPolicy := { historyDepth := windowSize }
  mgr.emplace (name, (CursorWindow.construct policy).move)

/-- The window, or the message of the exception. -/
def getWindow (mgr : SlidingWindowMgr D M) (name : String) :
    Except String (CursorWindow D M) :=
  match mgr.windows name with
  | none => .error ("No window with name: " ++ name)
  | some window => .ok window

/-- The window of a name after a call on it. -/
def store (mgr : SlidingWindowMgr D M) (name : String) (window : CursorWindow D M) :
    SlidingWindowMgr D M where
  windows := Function.update mgr.windows name (some window)

/-- An item for the window of that name, or the message of the exception. -/
def addData (mgr : SlidingWindowMgr D M) (name : String) (metadata : M) (data : D) :
    Except String (SlidingWindowMgr D M) :=
  match mgr.windows name with
  | some window => .ok (mgr.store name (window.addData metadata data))
  | none => .error ("No window with name: " ++ name ++ " can't add data.")

/-- **One call**, with what its caller sees. -/
def perform (mgr : SlidingWindowMgr D M) :
    MgrCall D M → MgrResult D M × SlidingWindowMgr D M
  | .addWindow name windowSize => (.done, mgr.addWindow name windowSize)
  | .addData name metadata data =>
      match mgr.addData name metadata data with
      | .ok mgr => (.done, mgr)
      | .error what => (.threw what, mgr)
  | .getNextData name =>
      match mgr.getWindow name with
      | .ok window => (.item window.getNextData.1, mgr.store name window.getNextData.2)
      | .error what => (.threw what, mgr)
  | .hasNextData name =>
      match mgr.getWindow name with
      | .ok window => (.has window.hasNextData.1, mgr.store name window.hasNextData.2)
      | .error what => (.threw what, mgr)

/-- The manager with its calls. -/
def machine : Machine (SlidingWindowMgr D M) (MgrCall D M) (MgrResult D M) where
  step := perform

/-- A new manager, and calls on it. -/
def calls (made : List (MgrCall D M)) : SlidingWindowMgr D M :=
  machine.after {} made

/-- The calls of a name with what their callers saw, among any calls on a new manager. -/
def observed (name : String) (made : List (MgrCall D M)) :
    List (MgrCall D M × MgrResult D M) :=
  (machine.transcript ({} : SlidingWindowMgr D M) made).filter
    fun entry => entry.1.name = name

/-! ## One window -/

/-- One window, from the first `addWindow` on; until then every call throws. -/
def single : Machine (Option (SlidingWindow D M)) (MgrCall D M) (MgrResult D M) where
  step
    | none, .addWindow _ windowSize =>
        (.done, some { cleanupPolicy := { historyDepth := windowSize } })
    | none, call => (.threw call.noWindow, none)
    | some window, .addWindow _ _ => (.done, some window)
    | some window, .addData _ metadata data => (.done, some (window.addData metadata data))
    | some window, .getNextData _ =>
        (.item window.getNextData.1, some window.getNextData.2)
    | some window, .hasNextData _ => (.has window.hasNextData, some window)

/-- The entry of a name shows this window. -/
def Shows (entry : Option (CursorWindow D M)) (shown : Option (SlidingWindow D M)) : Prop :=
  Option.Rel (fun window window' => window.Ahead ∧ window.forget = window') entry shown

/-- Every name shows its window. -/
def Stands (mgr : SlidingWindowMgr D M) (windows : String → Option (SlidingWindow D M)) :
    Prop :=
  ∀ name, Shows (mgr.windows name) (windows name)

/-! ## A call without a window, and with one -/

theorem addWindow_of_none {mgr : SlidingWindowMgr D M} {name : String}
    (h : mgr.windows name = none) (windowSize : ℕ) :
    mgr.addWindow name windowSize =
      mgr.store name (CursorWindow.construct { historyDepth := windowSize }).move.move := by
  rw [addWindow, emplace]
  dsimp only
  rw [h]
  rfl

/-- **Adding a window again changes nothing.** -/
theorem addWindow_of_some {mgr : SlidingWindowMgr D M} {name : String}
    {window : CursorWindow D M} (h : mgr.windows name = some window) (windowSize : ℕ) :
    mgr.addWindow name windowSize = mgr := by
  rw [addWindow, emplace]
  dsimp only
  rw [h]

/-- **Without a window** a call throws, and nothing happens. -/
theorem perform_of_none {mgr : SlidingWindowMgr D M} {call : MgrCall D M}
    (h : mgr.windows call.name = none) (hcall : ¬call.AddsWindow) :
    mgr.perform call = (.threw call.noWindow, mgr) := by
  cases call with
  | addWindow name windowSize => exact absurd trivial hcall
  | addData name metadata data =>
      change mgr.windows name = none at h
      rw [perform, addData, h]
      rfl
  | getNextData name =>
      change mgr.windows name = none at h
      rw [perform, getWindow, h]
      rfl
  | hasNextData name =>
      change mgr.windows name = none at h
      rw [perform, getWindow, h]
      rfl

/-- A new window was moved twice, and shows an empty one. -/
theorem shows_construct (windowSize : ℕ) :
    Shows (some (CursorWindow.construct { historyDepth := windowSize } :
        CursorWindow D M).move.move)
      (some { cleanupPolicy := { historyDepth := windowSize } }) :=
  .some ⟨Nat.le_refl _, rfl⟩

theorem Stands.unchanged {mgr : SlidingWindowMgr D M}
    {windows : String → Option (SlidingWindow D M)} (h : mgr.Stands windows) (name : String) :
    mgr.Stands (Function.update windows name (windows name)) := by
  rw [Function.update_eq_self]
  exact h

/-- Until there is a window, every call but `addWindow` throws. -/
theorem single_none {call : MgrCall D M} (hcall : ¬call.AddsWindow) :
    single.step none call = (.threw call.noWindow, none) := by
  cases call with
  | addWindow name windowSize => exact absurd trivial hcall
  | addData name metadata data => rfl
  | getNextData name => rfl
  | hasNextData name => rfl

/-- What one call is answered and leaves. -/
def StepsAlike (mgr : SlidingWindowMgr D M) (windows : String → Option (SlidingWindow D M))
    (call : MgrCall D M) : Prop :=
  (mgr.perform call).1 = (single.step (windows call.name) call).1 ∧
    (mgr.perform call).2.Stands
      (Function.update windows call.name (single.step (windows call.name) call).2)

theorem Stands.perform_of_none {mgr : SlidingWindowMgr D M}
    {windows : String → Option (SlidingWindow D M)} (h : mgr.Stands windows)
    {call : MgrCall D M} (hentry : mgr.windows call.name = none)
    (hshown : windows call.name = none) : mgr.StepsAlike windows call := by
  rw [StepsAlike, hshown]
  by_cases hcall : call.AddsWindow
  · cases call with
    | addWindow name windowSize =>
        have hwindow : mgr.windows name = none := hentry
        refine ⟨rfl, ?_⟩
        rw [perform, addWindow_of_none hwindow]
        exact Machine.related_update h (shows_construct windowSize)
    | addData name metadata data => exact absurd hcall not_false
    | getNextData name => exact absurd hcall not_false
    | hasNextData name => exact absurd hcall not_false
  · rw [SlidingWindowMgr.perform_of_none hentry hcall, single_none hcall]
    exact ⟨rfl, hshown ▸ h.unchanged call.name⟩

theorem Stands.perform_of_some {mgr : SlidingWindowMgr D M}
    {windows : String → Option (SlidingWindow D M)} (h : mgr.Stands windows)
    {call : MgrCall D M} {window : CursorWindow D M}
    (hentry : mgr.windows call.name = some window)
    (hshown : windows call.name = some window.forget) (hahead : window.Ahead) :
    mgr.StepsAlike windows call := by
  have hsame := h.unchanged call.name
  rw [hshown] at hsame
  rw [StepsAlike, hshown]
  cases call with
  | addWindow name windowSize =>
      have hwindow : mgr.windows name = some window := hentry
      rw [perform, addWindow_of_some hwindow]
      exact ⟨rfl, hsame⟩
  | addData name metadata data =>
      have hwindow : mgr.windows name = some window := hentry
      rw [perform, addData, hwindow]
      exact ⟨rfl, Machine.related_update h
        (.some (CursorWindow.forget_addData hahead metadata data))⟩
  | getNextData name =>
      have hwindow : mgr.windows name = some window := hentry
      obtain ⟨hahead', hitem, hforget⟩ := CursorWindow.forget_getNextData hahead
      rw [perform, getWindow, hwindow]
      exact ⟨congrArg MgrResult.item hitem,
        Machine.related_update h (.some ⟨hahead', hforget⟩)⟩
  | hasNextData name =>
      have hwindow : mgr.windows name = some window := hentry
      rw [perform, getWindow, hwindow]
      exact ⟨congrArg MgrResult.has (CursorWindow.forget_hasNextData hahead),
        Machine.related_update h (.some ⟨hahead, rfl⟩)⟩

/-- **One call** is a call on the window of its name. -/
theorem Stands.stepsAlike {mgr : SlidingWindowMgr D M}
    {windows : String → Option (SlidingWindow D M)} (h : mgr.Stands windows)
    (call : MgrCall D M) : mgr.StepsAlike windows call := by
  have hshows := h call.name
  cases hentry : mgr.windows call.name with
  | none =>
      rw [hentry] at hshows
      cases hshown : windows call.name with
      | none => exact h.perform_of_none hentry hshown
      | some shown =>
          rw [hshown] at hshows
          cases hshows
  | some window =>
      rw [hentry] at hshows
      cases hshown : windows call.name with
      | none =>
          rw [hshown] at hshows
          cases hshows
      | some shown =>
          rw [hshown] at hshows
          obtain ⟨hahead, rfl⟩ : window.Ahead ∧ window.forget = shown := by
            cases hshows
            assumption
          exact h.perform_of_some hentry hshown hahead

/-! ## Any calls -/

/-- The manager is a product of single windows. -/
theorem simulates : Machine.Simulation machine (single.product MgrCall.name)
    (Stands (D := D) (M := M)) where
  answer h call := (h.stepsAlike call).1
  step h call := (h.stepsAlike call).2

theorem stands_new : Stands ({} : SlidingWindowMgr D M) fun _ => none :=
  fun _ => .none

/-- The window of a name behind any calls is the single window behind the calls of this
name. -/
theorem shows_calls (name : String) (made : List (MgrCall D M)) :
    Shows ((calls made).windows name)
      (single.after none (made.filter fun call => call.name = name)) := by
  have hstands := simulates.after made (stands_new (D := D) (M := M)) name
  rw [Machine.after_product] at hstands
  exact hstands

/-- A single window is there from the first `addWindow` on. -/
theorem after_single_eq_none_iff (made : List (MgrCall D M)) :
    single.after none made = none ↔ ∀ call ∈ made, ¬call.AddsWindow := by
  have hstays (made : List (MgrCall D M)) : ∀ window : SlidingWindow D M,
      single.after (some window) made ≠ none := by
    induction made with
    | nil => exact fun _ h => Option.some_ne_none _ h
    | cons call made ih =>
        intro window
        cases call with
        | addWindow name windowSize => exact ih window
        | addData name metadata data => exact ih _
        | getNextData name => exact ih _
        | hasNextData name => exact ih window
  induction made with
  | nil => exact ⟨fun _ _ hmem => absurd hmem List.not_mem_nil, fun _ => rfl⟩
  | cons call made ih =>
      rw [List.forall_mem_cons]
      by_cases hcall : call.AddsWindow
      · refine ⟨fun h => absurd h ?_, fun h => absurd hcall h.1⟩
        cases call with
        | addWindow name windowSize => exact hstays made _
        | _ => exact absurd hcall not_false
      · rw [Machine.after, single_none hcall]
        exact ih.trans (and_iff_right hcall).symm

/-- There is no window of a name exactly until it was added. -/
theorem windows_calls_eq_none_iff (name : String) (made : List (MgrCall D M)) :
    (calls made).windows name = none ↔
      ∀ call ∈ made, call.name = name → ¬call.AddsWindow := by
  have hshows := shows_calls name made
  have hnone : (calls made).windows name = none ↔
      single.after none (made.filter fun call => call.name = name) = none := by
    constructor
    · intro h
      rw [h] at hshows
      cases hshows' : single.after none (made.filter fun call => call.name = name) with
      | none => rfl
      | some shown =>
          rw [hshows'] at hshows
          cases hshows
    · intro h
      rw [h] at hshows
      cases hshows' : (calls made).windows name with
      | none => rfl
      | some shown =>
          rw [hshows'] at hshows
          cases hshows
  rw [hnone, after_single_eq_none_iff]
  constructor
  · intro h call hmem hname
    exact h call (List.mem_filter.mpr ⟨hmem, decide_eq_true hname⟩)
  · intro h call hmem
    have hcall := List.mem_filter.mp hmem
    exact h call hcall.1 (of_decide_eq_true hcall.2)

/-- **The manager is a product of independent windows.**  After any calls on a new manager:

* the callers that named `name` saw what `single` shows when driven by their calls alone;
* where `name` was not added, a call that names it throws, and every window stays as it is;
* where it was, adding it again leaves every window as it is, this one included. -/
theorem windows_independent (name : String) (made : List (MgrCall D M)) :
    observed name made =
        single.transcript none (made.filter fun call => call.name = name) ∧
      ((∀ call ∈ made, call.name = name → ¬call.AddsWindow) →
        ∀ call : MgrCall D M, call.name = name → ¬call.AddsWindow →
          (calls made).perform call = (.threw call.noWindow, calls made)) ∧
      (∀ first ∈ made, first.name = name → first.AddsWindow →
        ∀ windowSize, (calls made).perform (.addWindow name windowSize) =
          (.done, calls made)) := by
  refine ⟨?_, ?_, ?_⟩
  · rw [observed, simulates.transcript made stands_new]
    exact Machine.transcript_product single MgrCall.name made name fun _ => none
  · rintro hmade call rfl hcall
    exact perform_of_none ((windows_calls_eq_none_iff call.name made).mpr hmade) hcall
  · intro first hmem hname hadds windowSize
    have hentry : (calls made).windows name ≠ none := fun hnone =>
      (windows_calls_eq_none_iff name made).mp hnone first hmem hname hadds
    obtain ⟨window, hwindow⟩ := Option.ne_none_iff_exists'.mp hentry
    rw [perform, addWindow_of_some hwindow]

theorem windows_independent_two :
    let mgr : SlidingWindowMgr Unit Unit := calls [.addWindow "a" 1, .addData "a" () ()]
    mgr.perform (.getNextData "b") = (.threw "No window with name: b", mgr) ∧
      mgr.perform (.addWindow "a" 2) = (.done, mgr) := by
  have hb := windows_independent "b" [.addWindow "a" 1, .addData "a" () ()]
  have ha := windows_independent "a" [.addWindow "a" 1, .addData "a" () ()]
  refine ⟨hb.2.1 ?_ (.getNextData "b") rfl not_false,
    ha.2.2 (.addWindow "a" 1) List.mem_cons_self rfl trivial 2⟩
  intro call hmem hname
  rcases List.mem_cons.mp hmem with rfl | hmem
  · exact absurd hname (by decide)
  · rw [List.mem_singleton.mp hmem]
    exact not_false

end SlidingWindowMgr

end NewCPP
