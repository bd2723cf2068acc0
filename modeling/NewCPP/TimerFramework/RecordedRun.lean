import NewCPP.TimerFramework.StoppedTimer

/-!
# Recorded runs of the worker

A run of the worker with the events that it has taken up and the calls of `Timer::Start`
and `Timer::Stop` that it has made.

Clients and the threads of timers do what they like to the queue and to the threads
(`Logged.outside`), so that the events may be any sequence; every `Step` is such a step
(`Logged.of_step`).

* `Logged` — one step, with the events that it takes up and the calls that it makes
* `Recorded` — a run of such steps, with both lists
* `Recorded.of_run` — every run of the worker has a record

The records are what the abstract map of `TimerMap` is compared with: it is a function of the
events that were taken up, and what is running is one of the calls that were made.
-/

namespace NewCPP.TimerFramework

/-! ## Calls -/

theorem TimerState.isRunning_start (state : TimerState) : state.start.isRunning = true := by
  rw [TimerState.start]
  split
  · assumption
  · split
    · rfl
    · rfl

/-- A call that the worker makes on a timer. -/
inductive TimerCall where
  | start (timer : Timer)
  | stop (timer : Timer)

/-- `Start` has been called on the timer, and `Stop` has not since. -/
def Started (calls : List TimerCall) (timer : Timer) : Prop :=
  ∃ before after, calls = before ++ .start timer :: after ∧ .stop timer ∉ after

theorem not_started_nil (timer : Timer) : ¬Started [] timer := by
  rintro ⟨before, after, hcalls, -⟩
  have hlen := congrArg List.length hcalls
  rw [List.length_append, List.length_cons, List.length_nil] at hlen
  omega

/-- A further call is the last one, or comes after the `Start`. -/
theorem started_concat {calls : List TimerCall} {call : TimerCall} {timer : Timer} :
    Started (calls ++ [call]) timer ↔
      call = .start timer ∨ (call ≠ .stop timer ∧ Started calls timer) := by
  constructor
  · rintro ⟨before, after, hcalls, hafter⟩
    rcases List.eq_nil_or_concat after with rfl | ⟨front, last, rfl⟩
    · exact Or.inl (List.append_singleton_inj.mp hcalls).2
    · rw [List.concat_eq_append, ← List.cons_append, ← List.append_assoc,
        List.append_singleton_inj] at hcalls
      obtain ⟨hcalls, rfl⟩ := hcalls
      rw [List.concat_eq_append, List.mem_append, not_or, List.mem_singleton] at hafter
      exact Or.inr ⟨fun heq => hafter.2 heq.symm, before, front, hcalls, hafter.1⟩
  · rintro (rfl | ⟨hne, before, after, rfl, hafter⟩)
    · exact ⟨calls, [], rfl, List.not_mem_nil⟩
    · refine ⟨before, after ++ [call], by rw [List.append_assoc, List.cons_append], ?_⟩
      rw [List.mem_append, not_or, List.mem_singleton]
      exact ⟨hafter, fun heq => hne heq.symm⟩

@[simp] theorem started_start {calls : List TimerCall} {other timer : Timer} :
    Started (calls ++ [.start other]) timer ↔ other = timer ∨ Started calls timer := by
  rw [started_concat, TimerCall.start.injEq, and_iff_right nofun]

@[simp] theorem started_stop {calls : List TimerCall} {other timer : Timer} :
    Started (calls ++ [.stop other]) timer ↔ other ≠ timer ∧ Started calls timer := by
  rw [started_concat, or_iff_right nofun, ne_eq, TimerCall.stop.injEq]

theorem Started.mem {calls : List TimerCall} {timer : Timer} (h : Started calls timer) :
    .start timer ∈ calls := by
  obtain ⟨before, after, rfl, -⟩ := h
  exact List.mem_append_right _ List.mem_cons_self

/-- A timer that was started is still so, or was stopped. -/
theorem started_or_stopped {timer : Timer} (calls : List TimerCall)
    (h : .start timer ∈ calls) : Started calls timer ∨ .stop timer ∈ calls := by
  obtain ⟨before, after, rfl⟩ := List.append_of_mem h
  by_cases hafter : .stop timer ∈ after
  · exact Or.inr (List.mem_append_right _ (List.mem_cons_of_mem _ hafter))
  · exact Or.inl ⟨before, after, rfl, hafter⟩

namespace Worker

/-! ## Recorded runs -/

/-- The calls behind `afterStop`. -/
def afterStopCalls (timer : Timer) : AfterStop → List TimerCall
  | .remove _ | .replace _ => []
  | .restart => [.start timer]

/-- The calls of `stop`: the second one follows at once only if there is no thread. -/
def stopCalls (w : Worker) (timer : Timer) (next : AfterStop) : List TimerCall :=
  match (w.timers timer).thread with
  | none => [.stop timer] ++ afterStopCalls timer next
  | some _ => [.stop timer]

/-- The calls of `dispatch`. -/
def dispatchCalls (w : Worker) : Event → List TimerCall
  | .timerStart new =>
      match w.getTimer new.id with
      | none => []
      | some timer => w.stopCalls timer (.replace new)
  | .timerStop id =>
      match w.getTimer id with
      | none => []
      | some timer => w.stopCalls timer (.remove id)
  | .timerCallback id _ =>
      match w.getTimer id with
      | none => []
      | some timer => w.stopCalls timer (if timer.cyclic then .restart else .remove id)
  | .message => []

/-- A step, with the events that are taken up and the calls that are made in it. -/
inductive Logged : Worker → Worker → List Event → List TimerCall → Prop
  /-- Clients and timers' threads leave the list and the worker's place alone. -/
  | outside {w w' : Worker} (list : w'.timerList = w.timerList) (place : w'.place = w.place)
      (running : ∀ timer, (w'.timers timer).isRunning = (w.timers timer).isRunning) :
      Logged w w' [] []
  | dispatch {w : Worker} (event : Event) (rest : List Event) (idle : w.place = .idle)
      (front : w.queue = event :: rest) :
      Logged w ({ w with queue := rest }.dispatch event) [event] (w.dispatchCalls event)
  | join {w : Worker} (timer : Timer) (next : AfterStop)
      (place : w.place = .joining timer next)
      (exited : (w.timers timer).thread = some .exited) :
      Logged w ((w.setTimer timer { w.timers timer with thread := none }).afterStop timer next)
        [] (afterStopCalls timer next)
  | start {w : Worker} (new : Timer) (place : w.place = .starting new) :
      Logged w (w.addAndStart new) [] [.start new]

/-- A run from a constructed worker. -/
inductive Recorded : List Event → List TimerCall → Worker → Prop
  | constructed : Recorded [] [] {}
  | step {events events' : List Event} {calls calls' : List TimerCall} {w w' : Worker}
      (run : Recorded events calls w) (last : Logged w w' events' calls') :
      Recorded (events ++ events') (calls ++ calls') w'

theorem isRunning_setTimer (w : Worker) {timer : Timer} {state : TimerState}
    (h : state.isRunning = (w.timers timer).isRunning) (other : Timer) :
    ((w.setTimer timer state).timers other).isRunning = (w.timers other).isRunning := by
  rw [setTimer]
  dsimp only
  by_cases hother : other = timer
  · rw [hother, Function.update_self, h]
  · rw [Function.update_of_ne hother]

/-- Every step of the worker and its surroundings is a logged one. -/
theorem Logged.of_step {w w' : Worker} (h : Step w w') :
    ∃ events calls, Logged w w' events calls := by
  cases h with
  | startTimerEntry id cyclic => exact ⟨_, _, .outside rfl rfl fun _ => rfl⟩
  | stopTimerEntry id => exact ⟨_, _, .outside rfl rfl fun _ => rfl⟩
  | sendMessage => exact ⟨_, _, .outside rfl rfl fun _ => rfl⟩
  | expire timer _ _ => exact ⟨_, _, .outside rfl rfl (isRunning_setTimer w rfl)⟩
  | abort timer _ _ => exact ⟨_, _, .outside rfl rfl (isRunning_setTimer w rfl)⟩
  | post timer _ => exact ⟨_, _, .outside rfl rfl (isRunning_setTimer w rfl)⟩
  | dispatch event rest idle front => exact ⟨_, _, .dispatch event rest idle front⟩
  | join timer next place exited => exact ⟨_, _, .join timer next place exited⟩
  | start new place => exact ⟨_, _, .start new place⟩

theorem Recorded.of_run {w : Worker} (h : Relation.ReflTransGen Step {} w) :
    ∃ events calls, Recorded events calls w := by
  induction h with
  | refl => exact ⟨[], [], .constructed⟩
  | tail _ hstep ih =>
      obtain ⟨events, calls, hrun⟩ := ih
      obtain ⟨events', calls', hlast⟩ := Logged.of_step hstep
      exact ⟨_, _, hrun.step hlast⟩

end Worker

end NewCPP.TimerFramework
