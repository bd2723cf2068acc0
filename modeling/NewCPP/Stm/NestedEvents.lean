import Mathlib.Logic.Function.Basic
import NewCPP.Library.Transition
import NewCPP.Stm.FsmHandler

/-!
# Events fired from inside actions and guards

`fire_event` holds `_FsmMutex` while `RunStateMachine` runs, and `_IsPendingEvent` and
the queue are there so that an action may call `fire_event` again.  The mutex is not
recursive.

* `nested_call_deadlocks` — in every run, a nested call requests the mutex its own thread
  holds, and from then on that thread and the handler never change: the outer call does
  not return and the inner event is not even queued.
* `exclusive_of_run` — whoever gets the mutex finds `_IsPendingEvent` false, so that the
  branch that defers an event is never taken.

## Design notes

**Threads.**  Threads `T` interleave.  A thread has the activations of `fire_event` that
got the mutex, innermost first, and perhaps a request: a call that stands at the lock.  A
nested call is a request above an activation whose action or guard waits for it.

**Steps.**  One step is what lies between two accesses to the mutex, a row of the table
or a call of an action or guard.  Which thread moves is arbitrary.

**Bodies.**  An action or guard runs to its end or to its next call of `fire_event`; it
goes on with the machine data the call leaves.
-/

namespace NewCPP.Stm

open Library

universe u v w x

/-- What an action or guard has still to do: end, with the machine data and (a guard) its
answer, or call `fire_event`. -/
inductive Body (D : Type v) (P : Type w) where
  | done (data : D) (answer : Bool)
  | fire (data : D) (ev : ℤ) (param : P) (rest : D → Body D P)

/-- A row whose action and guard may call the handler. -/
abbrev CallingRow (S : Type u) (D : Type v) (P : Type w) :=
  TransitionRow S (D → P → Body D P) (D → P → Body D P)

/-- Where an activation of `fire_event` stands that has the mutex. -/
inductive Frame (S : Type u) (D : Type v) (P : Type w) where
  /-- At the test of the loop. -/
  | loop
  /-- In `ProcessEvent`, with these rows left. -/
  | scan (ev : ℤ) (param : P) (rows : List (CallingRow S D P))
  | guard (ev : ℤ) (param : P) (row : CallingRow S D P) (rows : List (CallingRow S D P))
      (body : Body D P)
  | action (param : P) (row : CallingRow S D P) (body : Body D P)
  /-- `ProcessEvent` has returned. -/
  | processed (param : P)

/-- A thread: its activations of `fire_event`, innermost first, and the event of the call
with which it stands at the lock. -/
structure Thread (S : Type u) (D : Type v) (P : Type w) where
  frames : List (Frame S D P) := []
  request : Option (ℤ × P) := none

/-- The handler, who holds `_FsmMutex`, and the threads. -/
structure Machine (T : Type x) (S : Type u) (D : Type v) (P : Type w) where
  handler : FsmHandler S D P (D → P → Body D P)
  owner : Option T
  threads : T → Thread S D P

variable {T : Type x} {S : Type u} {D : Type v} {P : Type w}

/-! ## The engine, in steps -/

/-- Where the next step of an activation leads. -/
inductive Outcome (S : Type u) (D : Type v) (P : Type w) where
  | goes (frame : Frame S D P)
  | calls (ev : ℤ) (param : P)
  | returns

/-- A satisfied row: `_IsPendingEvent` is set, and the action starts if there is one. -/
def startAction (param : P) (row : CallingRow S D P)
    (handler : FsmHandler S D P (D → P → Body D P)) :
    FsmHandler S D P (D → P → Body D P) × Outcome S D P :=
  match row.fn with
  | some fn =>
      ({ handler with isPendingEvent := true, executed := handler.executed ++ [(fn, param)] },
        .goes (.action param row (fn handler.fsmData param)))
  | none =>
      ({ handler with isPendingEvent := false, currentState := row.nextState },
        .goes (.processed param))

/-- One step of an activation that has the mutex. -/
def work [DecidableEq S] (table : List (CallingRow S D P))
    (handler : FsmHandler S D P (D → P → Body D P)) :
    Frame S D P → FsmHandler S D P (D → P → Body D P) × Outcome S D P
  | .loop =>
      match handler.eventQueue with
      | [] => (handler, .returns)
      | (ev, param) :: _ => (handler, .goes (.scan ev param table))
  -- no row took the event; it is dropped like one that a row took
  | .scan _ param [] => (handler, .goes (.processed param))
  | .scan ev param (row :: rows) =>
      if handler.currentState = row.startState ∧ ev = row.event then
        match row.conditionfn with
        | some conditionfn =>
            (handler, .goes (.guard ev param row rows (conditionfn handler.fsmData param)))
        | none => startAction param row handler
      else (handler, .goes (.scan ev param rows))
  | .guard ev param row rows (.done data answer) =>
      let handler := { handler with fsmData := data }
      if answer then startAction param row handler
      else (handler, .goes (.scan ev param rows))
  | .action param row (.done data _) =>
      ({ handler with
          fsmData := data
          isPendingEvent := false
          currentState := row.nextState }, .goes (.processed param))
  | .guard _ _ _ _ (.fire data ev param _) => ({ handler with fsmData := data }, .calls ev param)
  | .action _ _ (.fire data ev param _) => ({ handler with fsmData := data }, .calls ev param)
  | .processed param => (handler.popEvent table param, .goes .loop)

/-- A call has returned to the action or guard that made it. -/
def resume (data : D) : List (Frame S D P) → List (Frame S D P)
  | .guard ev param row rows (.fire _ _ _ rest) :: below =>
      .guard ev param row rows (rest data) :: below
  | .action param row (.fire _ _ _ rest) :: below => .action param row (rest data) :: below
  | frames => frames

namespace Machine

variable [DecidableEq T]

/-- One thread goes on. -/
def setThread (m : Machine T S D P) (t : T) (thread : Thread S D P) : Machine T S D P :=
  { m with threads := Function.update m.threads t thread }

/-- `fire_event` up to the lock. -/
def fireEvent (m : Machine T S D P) (t : T) (ev : ℤ) (param : P) : Machine T S D P :=
  if m.handler.isInitialized then
    m.setThread t { frames := (m.threads t).frames, request := some (ev, param) }
  else m.setThread t { frames := resume m.handler.fsmData (m.threads t).frames }

/-- `fire_event` from the lock on: the event is queued, and either it is left there or the
loop starts. -/
def lock (m : Machine T S D P) (t : T) (ev : ℤ) (param : P) : Machine T S D P :=
  let handler :=
    { m.handler with eventQueue := m.handler.eventQueue ++ [(ev, param)] }
  -- the mutex is released at once: for a call from an action, whose loop goes on
  if handler.isPendingEvent then
    { m with handler := handler }.setThread t
      { frames := resume handler.fsmData (m.threads t).frames }
  else
    { m with handler := handler, owner := some t }.setThread t
      { frames := .loop :: (m.threads t).frames }

/-- A step of the innermost activation of a thread; when it returns, the mutex is free. -/
def advance [DecidableEq S] (table : List (CallingRow S D P)) (m : Machine T S D P) (t : T)
    (frame : Frame S D P) (below : List (Frame S D P)) : Machine T S D P :=
  match work table m.handler frame with
  | (handler, .goes frame') =>
      { m with handler := handler }.setThread t { frames := frame' :: below }
  | (handler, .calls ev param) => { m with handler := handler }.fireEvent t ev param
  | (handler, .returns) =>
      { m with handler := handler, owner := none }.setThread t
        { frames := resume handler.fsmData below }

/-- **One step of one thread.**  A thread that does nothing may call `fire_event`; a
request waits until the mutex is free, whoever holds it. -/
inductive Step [DecidableEq S] (table : List (CallingRow S D P)) :
    Machine T S D P → Machine T S D P → Prop
  | call {m : Machine T S D P} (t : T) (ev : ℤ) (param : P)
      (idle : m.threads t = {}) : Step table m (m.fireEvent t ev param)
  | lock {m : Machine T S D P} (t : T) (ev : ℤ) (param : P)
      (request : (m.threads t).request = some (ev, param)) (free : m.owner = none) :
      Step table m (m.lock t ev param)
  | advance {m : Machine T S D P} (t : T) (frame : Frame S D P) (below : List (Frame S D P))
      (thread : m.threads t = { frames := frame :: below }) :
      Step table m (m.advance table t frame below)

/-- A constructed handler, initialized or not, and threads that do nothing. -/
structure Fresh (m : Machine T S D P) : Prop where
  queue : m.handler.eventQueue = []
  pending : m.handler.isPendingEvent = false
  owner : m.owner = none
  threads : ∀ t, m.threads t = {}

/-! ## What a step does to the other threads -/

@[simp] theorem setThread_self (m : Machine T S D P) (t : T) (thread : Thread S D P) :
    (m.setThread t thread).threads t = thread := by
  simp only [setThread, Function.update_self]

theorem setThread_of_ne (m : Machine T S D P) {t u : T} (h : u ≠ t) (thread : Thread S D P) :
    (m.setThread t thread).threads u = m.threads u := by
  simp only [setThread, Function.update_of_ne h]

@[simp] theorem setThread_handler (m : Machine T S D P) (t : T) (thread : Thread S D P) :
    (m.setThread t thread).handler = m.handler := rfl

@[simp] theorem fireEvent_handler (m : Machine T S D P) (t : T) (ev : ℤ) (param : P) :
    (m.fireEvent t ev param).handler = m.handler := by
  unfold fireEvent
  split <;> rfl

@[simp] theorem fireEvent_owner (m : Machine T S D P) (t : T) (ev : ℤ) (param : P) :
    (m.fireEvent t ev param).owner = m.owner := by
  unfold fireEvent
  split <;> rfl

theorem fireEvent_of_ne (m : Machine T S D P) {t u : T} (h : u ≠ t) (ev : ℤ) (param : P) :
    (m.fireEvent t ev param).threads u = m.threads u := by
  unfold fireEvent
  split <;> exact setThread_of_ne m h _

/-! ## The mutex excludes -/

/-- Only the holder of the mutex has an activation, and it has one; whoever does anything
found the handler initialized; `_IsPendingEvent` is set while an action runs. -/
structure Exclusive (m : Machine T S D P) : Prop where
  holder : ∀ t, (m.threads t).frames ≠ [] →
    m.owner = some t ∧ ∃ frame, (m.threads t).frames = [frame]
  initialized : ∀ t, m.threads t ≠ {} → m.handler.isInitialized = true
  pending : m.handler.isPendingEvent = true →
    ∃ t param row body, (m.threads t).frames = [.action param row body]

omit [DecidableEq T] in
theorem Fresh.exclusive {m : Machine T S D P} (h : m.Fresh) : m.Exclusive where
  holder t hframes := absurd (by rw [h.threads t]) hframes
  initialized t hbusy := absurd (h.threads t) hbusy
  pending hpending := by
    rw [h.pending] at hpending
    cases hpending

omit [DecidableEq T] in
/-- While the mutex is free no activation is left, and no action runs. -/
theorem Exclusive.free {m : Machine T S D P} (h : m.Exclusive) (hfree : m.owner = none) :
    (∀ t, (m.threads t).frames = []) ∧ m.handler.isPendingEvent = false := by
  have hframes (t : T) : (m.threads t).frames = [] := by
    by_contra hbusy
    obtain ⟨howner, -⟩ := h.holder t hbusy
    rw [hfree] at howner
    cases howner
  refine ⟨hframes, ?_⟩
  rw [← Bool.not_eq_true]
  intro hpending
  obtain ⟨t, _, _, _, haction⟩ := h.pending hpending
  rw [hframes t] at haction
  cases haction

variable [DecidableEq S] {table : List (CallingRow S D P)}

omit [DecidableEq T] in
theorem popEvent_flags (table : List (CallingRow S D P))
    (handler : FsmHandler S D P (D → P → Body D P)) (param : P) :
    (handler.popEvent table param).isInitialized = handler.isInitialized ∧
      (handler.popEvent table param).isPendingEvent = handler.isPendingEvent := by
  cases hany : FsmHandler.hasAny table handler.currentState with
  | true =>
      rw [FsmHandler.popEvent_of_any hany]
      exact ⟨rfl, rfl⟩
  | false =>
      rw [FsmHandler.popEvent_of_none hany]
      exact ⟨rfl, rfl⟩

/-- What a step of an activation leaves: outside an action `_IsPendingEvent` is not set,
and a nested call does not change it. -/
def Leaves (handler : FsmHandler S D P (D → P → Body D P))
    (result : FsmHandler S D P (D → P → Body D P) × Outcome S D P) : Prop :=
  result.1.isInitialized = handler.isInitialized ∧
    match result.2 with
    | .goes (.action _ _ _) => True
    | .calls _ _ => result.1.isPendingEvent = handler.isPendingEvent
    | _ => result.1.isPendingEvent = false

omit [DecidableEq T] [DecidableEq S] in
theorem startAction_leaves (param : P) (row : CallingRow S D P)
    (handler : FsmHandler S D P (D → P → Body D P)) :
    Leaves handler (startAction param row handler) := by
  unfold startAction
  cases row.fn with
  | none => exact ⟨rfl, rfl⟩
  | some fn => exact ⟨rfl, trivial⟩

omit [DecidableEq T] in
theorem work_leaves (table : List (CallingRow S D P))
    {handler : FsmHandler S D P (D → P → Body D P)} {frame : Frame S D P}
    (hframe : handler.isPendingEvent = true →
      ∃ param row body, frame = .action param row body) :
    Leaves handler (work table handler frame) := by
  have hidle (h : ∀ param row body, frame ≠ .action param row body) :
      handler.isPendingEvent = false := by
    rw [← Bool.not_eq_true]
    intro hpending
    obtain ⟨param, row, body, haction⟩ := hframe hpending
    exact h param row body haction
  cases frame with
  | loop =>
      rw [work]
      have hpending := hidle nofun
      split
      · exact ⟨rfl, hpending⟩
      · exact ⟨rfl, hpending⟩
  | scan ev param rows =>
      have hpending := hidle nofun
      cases rows with
      | nil => exact ⟨rfl, hpending⟩
      | cons row rows =>
          rw [work]
          split
          · split
            · exact ⟨rfl, hpending⟩
            · exact startAction_leaves param row handler
          · exact ⟨rfl, hpending⟩
  | guard ev param row rows body =>
      have hpending := hidle nofun
      cases body with
      | done data answer =>
          rw [work]
          split
          · exact startAction_leaves param row { handler with fsmData := data }
          · exact ⟨rfl, hpending⟩
      | fire data ev' param' rest => exact ⟨rfl, rfl⟩
  | action param row body =>
      cases body with
      | done data answer => exact ⟨rfl, rfl⟩
      | fire data ev' param' rest => exact ⟨rfl, rfl⟩
  | processed param =>
      obtain ⟨hinit, hflag⟩ := popEvent_flags table handler param
      exact ⟨hinit, hflag.trans (hidle nofun)⟩

omit [DecidableEq S] in
/-- One thread moves and no other has an activation. -/
theorem exclusive_setThread {m : Machine T S D P} {t : T} {thread : Thread S D P}
    (hothers : ∀ u, u ≠ t → (m.threads u).frames = [])
    (hholder : thread.frames ≠ [] →
      m.owner = some t ∧ ∃ frame, thread.frames = [frame])
    (hinit : m.handler.isInitialized = true)
    (hpending : m.handler.isPendingEvent = true →
      ∃ param row body, thread.frames = [.action param row body]) :
    (m.setThread t thread).Exclusive := by
  refine ⟨fun u hbusy => ?_, fun _ _ => hinit, fun hset => ?_⟩
  · by_cases hu : u = t
    · rw [hu, setThread_self] at hbusy ⊢
      exact hholder hbusy
    · rw [setThread_of_ne m hu, hothers u hu] at hbusy
      exact absurd rfl hbusy
  · obtain ⟨param, row, body, haction⟩ := hpending hset
    exact ⟨t, param, row, body, by rw [setThread_self, haction]⟩

omit [DecidableEq S] in
theorem Exclusive.call {m : Machine T S D P} (h : m.Exclusive) {t : T}
    (hidle : m.threads t = {}) (ev : ℤ) (param : P) :
    (m.fireEvent t ev param).Exclusive := by
  have hframes (u : T) :
      ((m.fireEvent t ev param).threads u).frames = (m.threads u).frames := by
    by_cases hu : u = t
    · rw [hu, fireEvent]
      split
      · rw [setThread_self]
      · rw [setThread_self, hidle]
        rfl
    · rw [fireEvent_of_ne m hu]
  refine ⟨fun u hbusy => ?_, fun u hbusy => ?_, fun hpending => ?_⟩
  · rw [hframes] at hbusy ⊢
    rw [fireEvent_owner]
    exact h.holder u hbusy
  · rw [fireEvent_handler]
    by_cases hu : u = t
    · by_contra hinit
      rw [hu, fireEvent, if_neg hinit, setThread_self, hidle] at hbusy
      exact hbusy rfl
    · rw [fireEvent_of_ne m hu] at hbusy
      exact h.initialized u hbusy
  · rw [fireEvent_handler] at hpending
    obtain ⟨u, param', row, body, haction⟩ := h.pending hpending
    exact ⟨u, param', row, body, by rw [hframes, haction]⟩

omit [DecidableEq S] in
theorem Exclusive.lock {m : Machine T S D P} (h : m.Exclusive) {t : T} {ev : ℤ} {param : P}
    (hrequest : (m.threads t).request = some (ev, param)) (hfree : m.owner = none) :
    (m.lock t ev param).Exclusive := by
  obtain ⟨hframes, hpending⟩ := h.free hfree
  have hinit : m.handler.isInitialized = true := by
    refine h.initialized t fun hidle => ?_
    rw [hidle] at hrequest
    cases hrequest
  rw [Machine.lock]
  dsimp only
  rw [if_neg (by rw [hpending]; exact Bool.false_ne_true), hframes t]
  refine exclusive_setThread (fun u _ => hframes u) (fun _ => ⟨rfl, .loop, rfl⟩) hinit ?_
  intro hset
  rw [hpending] at hset
  cases hset

theorem Exclusive.advance {m : Machine T S D P} (h : m.Exclusive) {t : T}
    {frame : Frame S D P} {below : List (Frame S D P)}
    (hthread : m.threads t = { frames := frame :: below }) :
    (m.advance table t frame below).Exclusive := by
  -- the thread that moves holds the mutex, so no other one has an activation
  obtain ⟨howner, only, honly⟩ := h.holder t (by rw [hthread]; exact List.cons_ne_nil _ _)
  have hbelow : below = [] := by
    rw [hthread] at honly
    exact (List.cons.inj honly).2
  have hinit : m.handler.isInitialized = true := by
    refine h.initialized t fun hidle => ?_
    rw [hidle] at hthread
    cases hthread
  have hothers {u : T} (hu : u ≠ t) : (m.threads u).frames = [] := by
    by_contra hbusy
    rw [(h.holder u hbusy).1] at howner
    exact hu (Option.some.inj howner)
  have hframe (hpending : m.handler.isPendingEvent = true) :
      ∃ param row body, frame = .action param row body := by
    obtain ⟨u, param, row, body, haction⟩ := h.pending hpending
    by_cases hu : u = t
    · rw [hu, hthread] at haction
      exact ⟨param, row, body, (List.cons.inj haction).1⟩
    · rw [hothers hu] at haction
      cases haction
  obtain ⟨hkeeps, hleaves⟩ := work_leaves table hframe
  rw [hinit] at hkeeps
  rw [Machine.advance]
  match hwork : work table m.handler frame with
  | (handler, .goes frame') =>
      rw [hwork] at hkeeps hleaves
      rw [hbelow]
      refine exclusive_setThread (fun u hu => hothers hu) (fun _ => ⟨howner, frame', rfl⟩)
        hkeeps fun hset => ?_
      cases frame' with
      | action param row body => exact ⟨param, row, body, rfl⟩
      | _ =>
          rw [hleaves] at hset
          cases hset
  | (handler, .calls ev param) =>
      rw [hwork] at hkeeps hleaves
      dsimp only
      rw [fireEvent, if_pos hkeeps]
      refine exclusive_setThread (fun u hu => hothers hu) (fun _ => h.holder t ?_) hkeeps
        fun hset => ?_
      · rw [hthread]
        exact List.cons_ne_nil _ _
      · rw [hleaves] at hset
        obtain ⟨param', row, body, haction⟩ := hframe hset
        exact ⟨param', row, body, by rw [hthread, hbelow, haction]⟩
  | (handler, .returns) =>
      rw [hwork] at hkeeps hleaves
      rw [hbelow]
      refine exclusive_setThread (fun u hu => hothers hu) (fun hbusy => absurd rfl hbusy)
        hkeeps fun hset => ?_
      rw [hleaves] at hset
      cases hset

theorem Exclusive.step {m m' : Machine T S D P} (h : m.Exclusive) (hstep : Step table m m') :
    m'.Exclusive := by
  cases hstep with
  | call t ev param hidle => exact h.call hidle ev param
  | lock t ev param hrequest hfree => exact h.lock hrequest hfree
  | advance t frame below hthread => exact h.advance hthread

theorem exclusive_of_run {m₀ m : Machine T S D P} (hfresh : m₀.Fresh)
    (hrun : Relation.ReflTransGen (Step table) m₀ m) : m.Exclusive :=
  Transition.invariant_of_run (I := Exclusive) (fun h hstep => h.step hstep)
    hfresh.exclusive hrun

/-! ## A nested call -/

/-- The thread stands at the lock of `_FsmMutex` and holds it. -/
def SelfRequest (m : Machine T S D P) (t : T) : Prop :=
  m.owner = some t ∧ (m.threads t).request.isSome

/-- The next thing an action or guard does is to call `fire_event`. -/
def callsInside : Frame S D P → Option (ℤ × P)
  | .guard _ _ _ _ (.fire _ ev param _) => some (ev, param)
  | .action _ _ (.fire _ ev param _) => some (ev, param)
  | _ => none

/-- The step in which an action or guard of a thread calls `fire_event`. -/
def NestedCall (table : List (CallingRow S D P)) (t : T) (ev : ℤ) (param : P)
    (m m' : Machine T S D P) : Prop :=
  ∃ frame below, m.threads t = { frames := frame :: below } ∧
    callsInside frame = some (ev, param) ∧ m' = m.advance table t frame below

theorem NestedCall.step {t : T} {ev : ℤ} {param : P} {m m' : Machine T S D P}
    (hcall : NestedCall table t ev param m m') : Step table m m' := by
  obtain ⟨frame, below, hthread, -, rfl⟩ := hcall
  exact Step.advance t frame below hthread

omit [DecidableEq T] in
theorem work_of_callsInside (table : List (CallingRow S D P))
    (handler : FsmHandler S D P (D → P → Body D P)) {frame : Frame S D P} {ev : ℤ} {param : P}
    (hcalls : callsInside frame = some (ev, param)) :
    ∃ data, work table handler frame =
      ({ handler with fsmData := data }, .calls ev param) := by
  unfold callsInside at hcalls
  split at hcalls
  · cases hcalls
    exact ⟨_, rfl⟩
  · cases hcalls
    exact ⟨_, rfl⟩
  · cases hcalls

/-- A nested call requests the mutex that its thread holds, and has queued nothing. -/
theorem NestedCall.selfRequest {t : T} {ev : ℤ} {param : P} {m m' : Machine T S D P}
    (h : m.Exclusive) (hcall : NestedCall table t ev param m m') :
    SelfRequest m' t ∧ m'.handler.eventQueue = m.handler.eventQueue := by
  obtain ⟨frame, below, hthread, hcalls, rfl⟩ := hcall
  obtain ⟨data, hwork⟩ := work_of_callsInside table m.handler hcalls
  have hinit : m.handler.isInitialized = true := by
    refine h.initialized t fun hidle => ?_
    rw [hidle] at hthread
    cases hthread
  rw [Machine.advance, hwork]
  dsimp only
  rw [fireEvent, if_pos hinit]
  refine ⟨⟨?_, ?_⟩, rfl⟩
  · exact (h.holder t (by rw [hthread]; exact List.cons_ne_nil _ _)).1
  · rw [setThread_self]
    rfl

/-- A thread that requests the mutex it holds waits for ever, and the handler with it. -/
theorem SelfRequest.step {t : T} {m m' : Machine T S D P} (h : m.Exclusive)
    (hself : SelfRequest m t) (hstep : Step table m m') :
    m'.owner = m.owner ∧ m'.handler = m.handler ∧ m'.threads t = m.threads t := by
  obtain ⟨howner, hrequest⟩ := hself
  -- the mutex is taken, and its holder is the thread that waits for it
  cases hstep with
  | call u ev param hidle =>
      have hu : t ≠ u := by
        rintro rfl
        rw [hidle] at hrequest
        cases hrequest
      exact ⟨fireEvent_owner m u ev param, fireEvent_handler m u ev param,
        fireEvent_of_ne m hu ev param⟩
  | lock _ _ _ _ hfree =>
      rw [howner] at hfree
      cases hfree
  | advance u frame below hthread =>
      have hu : u = t := by
        have hholder := (h.holder u (by rw [hthread]; exact List.cons_ne_nil _ _)).1
        exact Option.some.inj (hholder.symm.trans howner)
      rw [← hu, hthread] at hrequest
      cases hrequest

theorem SelfRequest.run {t : T} {m m' : Machine T S D P} (h : m.Exclusive)
    (hself : SelfRequest m t) (hrun : Relation.ReflTransGen (Step table) m m') :
    m'.owner = m.owner ∧ m'.handler = m.handler ∧ m'.threads t = m.threads t := by
  refine (Transition.invariant_of_run (I := fun m₁ => m₁.Exclusive ∧ m₁.owner = m.owner ∧
    m₁.handler = m.handler ∧ m₁.threads t = m.threads t) ?_ ⟨h, rfl, rfl, rfl⟩ hrun).2
  rintro m₁ m₂ ⟨hexclusive, howner, hhandler, hthread⟩ hstep
  have hself₁ : SelfRequest m₁ t := ⟨howner.trans hself.1, by rw [hthread]; exact hself.2⟩
  obtain ⟨howner', hhandler', hthread'⟩ := hself₁.step hexclusive hstep
  exact ⟨hexclusive.step hstep, howner'.trans howner, hhandler'.trans hhandler,
    hthread'.trans hthread⟩

/-- **A nested call deadlocks.**  In every run, when an action or guard calls
`fire_event`, its thread requests the mutex it holds and the event has not been queued;
afterwards that thread stays where it is and the handler stays as it is. -/
theorem nested_call_deadlocks {m₀ m m' : Machine T S D P} (hfresh : m₀.Fresh)
    (hrun : Relation.ReflTransGen (Step table) m₀ m) {t : T} {ev : ℤ} {param : P}
    (hcall : NestedCall table t ev param m m') :
    SelfRequest m' t ∧ m'.handler.eventQueue = m.handler.eventQueue ∧
      ∀ m'', Relation.ReflTransGen (Step table) m' m'' →
        m''.threads t = m'.threads t ∧ m''.handler = m'.handler := by
  have hexclusive := exclusive_of_run hfresh hrun
  obtain ⟨hself, hqueue⟩ := hcall.selfRequest hexclusive
  refine ⟨hself, hqueue, fun m'' hrun' => ?_⟩
  obtain ⟨-, hhandler, hthread⟩ := hself.run (hexclusive.step hcall.step) hrun'
  exact ⟨hthread, hhandler⟩

/-- A row whose action fires event 1. -/
def firingRow : CallingRow Bool Unit Unit where
  startState := true
  event := 0
  fn := some fun data _ => .fire data 1 () fun data => .done data true
  nextState := false
  conditionfn := none

/-- One thread and a handler in the state of that row. -/
def firingStart : Machine Unit Bool Unit Unit where
  handler := FsmHandler.Initialize { fsmData := (), currentState := true } true
  owner := none
  threads _ := {}

/-- The thread has fired event 0 and the action runs. -/
def firingInside : Machine Unit Bool Unit Unit :=
  (((firingStart.fireEvent () 0 ()).lock () 0 ()).advance [firingRow] () .loop []).advance
    [firingRow] () (.scan 0 () [firingRow]) []

theorem firingStart_fresh : firingStart.Fresh := ⟨rfl, rfl, rfl, fun _ => rfl⟩

theorem firingInside_reached :
    Relation.ReflTransGen (Step [firingRow]) firingStart firingInside :=
  (((Relation.ReflTransGen.single (Step.call () 0 () rfl)).tail
    (Step.lock () 0 () rfl rfl)).tail (Step.advance () .loop [] rfl)).tail
    (Step.advance () (.scan 0 () [firingRow]) [] rfl)

theorem firingInside_calls :
    NestedCall [firingRow] () 1 () firingInside (firingInside.advance [firingRow] ()
      (.action () firingRow (.fire () 1 () fun data => .done data true)) []) :=
  ⟨_, _, rfl, rfl, rfl⟩

/-- The action has called `fire_event`: its event is not queued, and the thread never
leaves the lock. -/
theorem firingInside_deadlocks :
    ∃ m', NestedCall [firingRow] () 1 () firingInside m' ∧ SelfRequest m' () ∧
      m'.handler.eventQueue = firingInside.handler.eventQueue ∧
      ∀ m'', Relation.ReflTransGen (Step [firingRow]) m' m'' →
        m''.threads () = m'.threads () ∧ m''.handler = m'.handler :=
  ⟨_, firingInside_calls, nested_call_deadlocks firingStart_fresh firingInside_reached
    firingInside_calls⟩

/-- **Self-deadlock**: a reachable machine whose only thread requests the mutex it holds,
and never returns. -/
theorem self_deadlock :
    ∃ m, Relation.ReflTransGen (Step [firingRow]) firingStart m ∧ SelfRequest m () ∧
      ∀ m', Relation.ReflTransGen (Step [firingRow]) m m' →
        m'.threads () ≠ {} ∧ m'.handler.eventQueue = [(0, ())] := by
  have hreached := firingInside_reached.tail firingInside_calls.step
  have hexclusive := exclusive_of_run firingStart_fresh hreached
  have hself := (firingInside_calls.selfRequest
    (exclusive_of_run firingStart_fresh firingInside_reached)).1
  refine ⟨_, hreached, hself, fun m' hrun => ?_⟩
  obtain ⟨-, hhandler, hthread⟩ := hself.run hexclusive hrun
  rw [hhandler, hthread]
  refine ⟨fun hidle => ?_, rfl⟩
  rw [SelfRequest, hidle] at hself
  exact absurd hself.2 (by decide)

end Machine

end NewCPP.Stm
