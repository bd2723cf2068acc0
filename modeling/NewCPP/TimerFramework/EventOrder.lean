import Mathlib.Data.List.Perm.Basic
import NewCPP.TimerFramework.DefaultLoop

/-!
# The order of the events

What becomes of the events of `SendEvent`, in every run of a worker: however often it is
started and stopped, with however many threads in `Run`.

* `dispatched_in_order` — each event that was handed to `SendEvent` while there was a thread
  is dispatched once, or is in the queue, or its call has not pushed it yet; and events are
  dispatched in the order in which they were pushed.

## Design notes

**The log.**  `LoopImpl.logging` writes down what the steps of a loop show, and changes
nothing else: a run with the log is a run, and every run has a log (`run_withoutLog`,
`exists_log`).

**Threads.**  There may be several: a start after a stop may find the old thread still in its
loop, and both take events from one queue.  An event that a thread has taken off is dispatched
by that thread, so that the order is that of the queue and not that of the ends of the
callbacks.

**Calls without a thread** return without having pushed anything, and are not counted.
-/

namespace NewCPP.WorkerThread

open Library

universe u v x

/-! ## Loops with a log -/

section Logging

variable {σ : Type u} {L : Type v} {α : Type x} {R : LoopImpl σ L}
  {shows : ℕ → Option L → List α} {told : σ → σ → List α}

/-- The loop with a log: `shows` is what a step of a thread adds, `told` what a client adds. -/
def LoopImpl.logging (R : LoopImpl σ L) (shows : ℕ → Option L → List α)
    (told : σ → σ → List α) : LoopImpl (σ × List α) L where
  enter := R.enter
  step stop thread s position s' next :=
    R.step stop thread s.1 position s'.1 next ∧ s'.2 = s.2 ++ shows thread next
  client thread s s' := R.client thread s.1 s'.1 ∧ s'.2 = s.2 ++ told s.1 s'.1

namespace Worker

/-- The worker of `Worker`, with the log left out. -/
def withoutLog (w : Worker (σ × List α) L) : Worker σ L where
  stopRequested := w.stopRequested
  thread := w.thread
  threads := w.threads
  detached := w.detached
  owner := w.owner
  shared := w.shared.1

/-- A worker and a log. -/
def withLog (w : Worker σ L) (log : List α) : Worker (σ × List α) L where
  stopRequested := w.stopRequested
  thread := w.thread
  threads := w.threads
  detached := w.detached
  owner := w.owner
  shared := (w.shared, log)

theorem withoutLog_create (w : Worker (σ × List α) L) :
    w.create.2.withoutLog = w.withoutLog.create.2 := by
  obtain ⟨_, thread, _, _, _, _⟩ := w
  cases thread <;> rfl

theorem withLog_create (w : Worker σ L) (log : List α) :
    w.create.2.withLog log = (w.withLog log).create.2 := by
  obtain ⟨_, thread, _, _, _, _⟩ := w
  cases thread <;> rfl

/-- A step with the log is a step. -/
theorem Step.withoutLog {w w' : Worker (σ × List α) L}
    (hstep : Step (R.logging shows told) w w') : Step R w.withoutLog w'.withoutLog := by
  cases hstep with
  | start hidle => exact .start hidle
  | create hstarting =>
      rw [withoutLog_create]
      exact .create hstarting
  | stop hidle => exact .stop hidle
  | detach hdetaching => exact .detach hdetaching
  | stopWithJoin hidle hthread => exact .stopWithJoin hidle hthread
  | join thread hjoining hwaits hexited => exact .join thread hjoining hwaits hexited
  | exit thread hchecks hstop => exact .exit thread hchecks hstop
  | enter thread hchecks hgoes => exact .enter thread hchecks hgoes
  | loop thread position shared next hloops hsteps =>
      exact .loop thread position shared.1 next hloops hsteps.1
  | client shared hsteps => exact .client shared.1 hsteps.1

/-- Every step is one with the log. -/
theorem Step.withLog {w w' : Worker σ L} (hstep : Step R w w') (log : List α) :
    ∃ log', Step (R.logging shows told) (w.withLog log) (w'.withLog log') := by
  cases hstep with
  | start hidle => exact ⟨log, .start hidle⟩
  | create hstarting =>
      refine ⟨log, ?_⟩
      rw [withLog_create]
      exact .create hstarting
  | stop hidle => exact ⟨log, .stop hidle⟩
  | detach hdetaching => exact ⟨log, .detach hdetaching⟩
  | stopWithJoin hidle hthread => exact ⟨log, .stopWithJoin hidle hthread⟩
  | join thread hjoining hwaits hexited => exact ⟨log, .join thread hjoining hwaits hexited⟩
  | exit thread hchecks hstop => exact ⟨log, .exit thread hchecks hstop⟩
  | enter thread hchecks hgoes => exact ⟨log, .enter thread hchecks hgoes⟩
  | loop thread position shared next hloops hsteps =>
      exact ⟨log ++ shows thread next,
        .loop thread position (shared, log ++ shows thread next) next hloops ⟨hsteps, rfl⟩⟩
  | client shared hsteps =>
      exact ⟨log ++ told w.shared shared,
        .client (shared, log ++ told w.shared shared) ⟨hsteps, rfl⟩⟩

theorem run_withoutLog {w w' : Worker (σ × List α) L}
    (hrun : Relation.ReflTransGen (Step (R.logging shows told)) w w') :
    Relation.ReflTransGen (Step R) w.withoutLog w'.withoutLog :=
  hrun.lift withoutLog fun _ _ => Step.withoutLog

theorem exists_log {w w' : Worker σ L} (hrun : Relation.ReflTransGen (Step R) w w')
    (log : List α) : ∃ log', Relation.ReflTransGen (Step (R.logging shows told))
      (w.withLog log) (w'.withLog log') := by
  induction hrun with
  | refl => exact ⟨log, .refl⟩
  | tail _ hlast ih =>
      obtain ⟨log₁, hrun⟩ := ih
      obtain ⟨log₂, hstep⟩ := hlast.withLog log₁
      exact ⟨log₂, hrun.tail hstep⟩

end Worker

end Logging

/-! ## What is seen of the events -/

variable {E : Type u}

/-- What the log of the dispatcher has. -/
inductive Seen (E : Type u) where
  /-- `SendEvent` has found a thread. -/
  | called (event : E)
  | pushed (event : E)
  /-- A thread has taken the event off the queue. -/
  | dispatched (thread : ℕ) (event : E)

/-- A thread goes on to dispatch an event. -/
def showsDispatch (thread : ℕ) : Option (Position E) → List (Seen E)
  | some (.dispatching event) => [.dispatched thread event]
  | _ => []

/-- The events that have got into the calls and into the queue. -/
def showsSend (before after : Events E) : List (Seen E) :=
  (after.sending.take (after.sending.length - before.sending.length)).map .called ++
    (after.queue.drop before.queue.length).map .pushed

/-- The events that `SendEvent` was called with. -/
def called (log : List (Seen E)) : List E :=
  log.filterMap fun
    | .called event => some event
    | _ => none

/-- The events that were put into the queue. -/
def pushed (log : List (Seen E)) : List E :=
  log.filterMap fun
    | .pushed event => some event
    | _ => none

/-- The events that the dispatcher got. -/
def dispatched (log : List (Seen E)) : List E :=
  log.filterMap fun
    | .dispatched _ event => some event
    | _ => none

theorem called_append (log log' : List (Seen E)) :
    called (log ++ log') = called log ++ called log' :=
  List.filterMap_append

theorem pushed_append (log log' : List (Seen E)) :
    pushed (log ++ log') = pushed log ++ pushed log' :=
  List.filterMap_append

theorem dispatched_append (log log' : List (Seen E)) :
    dispatched (log ++ log') = dispatched log ++ dispatched log' :=
  List.filterMap_append

theorem pushed_showsDispatch (thread : ℕ) (next : Option (Position E)) :
    pushed (showsDispatch thread next) = [] := by
  unfold showsDispatch
  split <;> rfl

theorem pushed_showsSend (before after : Events E) :
    pushed (showsSend before after) = after.queue.drop before.queue.length := by
  have hcalled (events : List E) : pushed (events.map .called) = [] := by
    induction events with
    | nil => rfl
    | cons _ _ ih => exact ih
  have hpushed (events : List E) : pushed (events.map .pushed) = events := by
    induction events with
    | nil => rfl
    | cons event _ ih => exact congrArg (event :: ·) ih
  rw [showsSend, pushed_append, hcalled, hpushed, List.nil_append]

/-- The default loop with the log. -/
def loggingDispatcher (E : Type u) : LoopImpl (Events E × List (Seen E)) (Position E) :=
  (defaultEventDispatcher E).logging showsDispatch showsSend

namespace Worker

/-- A worker with the default loop and a log. -/
abbrev Logged (E : Type u) := Worker (Events E × List (Seen E)) (Position E)

/-! ## Each event once, and in order -/

/-- Where the events are. -/
structure Accounted (shared : Events E × List (Seen E)) : Prop where
  queue : dispatched shared.2 ++ shared.1.queue = pushed shared.2
  calls : (called shared.2).Perm (pushed shared.2 ++ shared.1.sending)

theorem Accounted.loop {spurious stop : Bool} {thread : ℕ} {shared shared' : Events E}
    {log : List (Seen E)} {position : Position E} {next : Option (Position E)}
    (h : Accounted (shared, log))
    (hsteps : DispatcherStep spurious stop thread shared position shared' next) :
    Accounted (shared', log ++ showsDispatch thread next) := by
  cases hsteps with
  | takes event rest hfront =>
      obtain ⟨hqueue, hcalls⟩ := h
      rw [hfront] at hqueue
      constructor
      · show dispatched (log ++ [.dispatched thread event]) ++ rest =
          pushed (log ++ [.dispatched thread event])
        rw [dispatched_append, pushed_append]
        show dispatched log ++ [event] ++ rest = pushed log ++ []
        rw [List.append_nil, ← hqueue, List.append_assoc, List.singleton_append]
      · show (called (log ++ [.dispatched thread event])).Perm
          (pushed (log ++ [.dispatched thread event]) ++ shared.sending)
        rw [called_append, pushed_append]
        show (called log ++ []).Perm (pushed log ++ [] ++ shared.sending)
        rw [List.append_nil, List.append_nil]
        exact hcalls
  | returns | goes | sleeps | awakes | wakes | dispatched =>
      rw [showsDispatch, List.append_nil]
      · exact ⟨h.queue, h.calls⟩
      all_goals rintro event ⟨⟩

theorem showsSend_send (shared : Events E) (event : E) :
    showsSend shared { shared with sending := event :: shared.sending } = [.called event] := by
  rw [showsSend, List.length_cons, Nat.add_sub_cancel_left, List.drop_length]
  rfl

theorem showsSend_push {shared : Events E} {before after : List E} {event : E}
    (hsends : shared.sending = before ++ event :: after) :
    showsSend shared { shared with
      sending := before ++ after
      queue := shared.queue ++ [event]
      notifying := shared.notifying + 1 } = [.pushed event] := by
  have hfewer : (before ++ after).length - shared.sending.length = 0 := by
    rw [hsends, List.length_append, List.length_append, List.length_cons]
    omega
  show ((before ++ after).take ((before ++ after).length - shared.sending.length)).map .called ++
    ((shared.queue ++ [event]).drop shared.queue.length).map .pushed = [Seen.pushed event]
  rw [hfewer, List.drop_left]
  rfl

theorem showsSend_of_eq {shared shared' : Events E} (hsending : shared'.sending = shared.sending)
    (hqueue : shared'.queue = shared.queue) : showsSend shared shared' = [] := by
  rw [showsSend, hsending, hqueue, Nat.sub_self, List.drop_length]
  rfl

theorem Accounted.client {thread : Option ℕ} {shared shared' : Events E} {log : List (Seen E)}
    (h : Accounted (shared, log)) (hsteps : SendEvent thread shared shared') :
    Accounted (shared', log ++ showsSend shared shared') := by
  obtain ⟨hqueue, hcalls⟩ := h
  cases hsteps with
  | send event _ =>
      rw [showsSend_send]
      constructor
      · rw [dispatched_append, pushed_append]
        show dispatched log ++ [] ++ shared.queue = pushed log ++ []
        rw [List.append_nil, List.append_nil]
        exact hqueue
      · show (called (log ++ [.called event])).Perm
          (pushed (log ++ [.called event]) ++ event :: shared.sending)
        rw [called_append, pushed_append]
        show (called log ++ [event]).Perm (pushed log ++ [] ++ event :: shared.sending)
        rw [List.append_nil]
        refine (List.perm_append_singleton _ _).trans ?_
        exact (hcalls.cons event).trans List.perm_middle.symm
  | push before after event hsends =>
      rw [showsSend_push hsends]
      constructor
      · rw [dispatched_append, pushed_append]
        show dispatched log ++ [] ++ (shared.queue ++ [event]) = pushed log ++ [event]
        rw [List.append_nil, ← List.append_assoc]
        exact congrArg (· ++ [event]) hqueue
      · show (called (log ++ [.pushed event])).Perm
          (pushed (log ++ [.pushed event]) ++ (before ++ after))
        rw [called_append, pushed_append]
        show (called log ++ []).Perm (pushed log ++ [event] ++ (before ++ after))
        rw [List.append_nil, List.append_assoc]
        refine hcalls.trans (List.Perm.append_left _ ?_)
        show shared.sending.Perm (event :: (before ++ after))
        rw [hsends]
        exact List.perm_middle
  | notify hnotifies =>
      have hsame : shared'.sending = shared.sending ∧ shared'.queue = shared.queue := by
        cases hnotifies <;> exact ⟨rfl, rfl⟩
      rw [showsSend_of_eq hsame.1 hsame.2, List.append_nil]
      exact ⟨hsame.2.symm ▸ hqueue, hsame.1.symm ▸ hcalls⟩

/-- **One step.** -/
theorem Accounted.step {w w' : Logged E} (h : Accounted w.shared)
    (hstep : Step (loggingDispatcher E) w w') : Accounted w'.shared := by
  cases hstep with
  | create _ =>
      rw [create]
      split <;> exact h
  | loop thread position shared next hloops hsteps =>
      obtain ⟨hsteps, hlog⟩ := hsteps
      have haccounted := h.loop hsteps
      rwa [← hlog] at haccounted
  | client shared hsteps =>
      obtain ⟨hsteps, hlog⟩ := hsteps
      have haccounted := h.client hsteps
      rwa [← hlog] at haccounted
  | _ => exact h

/-- **Each event once, and in order.**  In every run of a worker with the log, the events that
`SendEvent` was called with while there was a thread are those pushed and those of the calls
that have not pushed yet; those pushed are, in this order, the ones dispatched and the ones in
the queue.  Every run of the worker has such a log. -/
theorem dispatched_in_order (E : Type u) :
    (∀ w : Logged E, Relation.ReflTransGen (Step (loggingDispatcher E)) (new ({}, [])) w →
        (called w.shared.2).Perm (pushed w.shared.2 ++ w.shared.1.sending) ∧
          dispatched w.shared.2 ++ w.shared.1.queue = pushed w.shared.2) ∧
      ∀ w : Default E, Relation.ReflTransGen (Step (defaultEventDispatcher E)) (new {}) w →
        ∃ log, Relation.ReflTransGen (Step (loggingDispatcher E)) (new ({}, []))
          (w.withLog log) := by
  constructor
  · intro w hrun
    have h := Transition.invariant_of_run (I := fun w : Logged E => Accounted w.shared)
      Accounted.step ⟨rfl, List.Perm.refl _⟩ hrun
    exact ⟨h.calls, h.queue⟩
  · exact fun w hrun => exists_log hrun []

end Worker

end NewCPP.WorkerThread
