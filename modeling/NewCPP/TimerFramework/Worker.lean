import Mathlib.Data.List.Basic
import Mathlib.Logic.Function.Basic
import Mathlib.Tactic.Common

/-!
# The timer worker

`Worker` and `Timer` as the timer framework has them: a list of timers, a queue of events
that one thread processes, and a thread for each timer that sleeps for its interval and
then posts an event.

## Design notes

**Timers.**  A `Timer` is an object: which one (`object`) and the fields that never
change.  What changes is its `TimerState`.  The worker never deletes a timer, so an object
is not reused.

**Events.**  A `TIMERCALLBACK` carries the id only.  The timer whose interval elapsed is
kept beside it as `elapsed`; no function of the worker reads it.

**Threads.**  Clients, the worker and the timers' threads interleave.  The worker stops
between two events, and inside `Timer::Stop`, where it waits for the timer's thread.

**Running.**  The worker's thread runs; without it `SendEvent` drops the event.

**Time.**  A sleeping thread may wake at any moment while `_abortMutex` is locked; a
thread that finds it unlocked takes it and ends.  The length of the interval and the
callbacks themselves are left out, `invoked` lists the calls of `InvokeCallback`.  A
callback that starts or stops timers is a client.
-/

namespace NewCPP.TimerFramework

/-- A timer object. -/
structure Timer where
  object : ℕ
  id : ℕ
  cyclic : Bool
  deriving DecidableEq

/-- Where the thread of a timer is in `Timer::Run`. -/
inductive Phase where
  | sleeping
  /-- The interval elapsed and the event is not yet posted. -/
  | posting
  | exited

/-- The fields of a timer that change; `Thread` is `_Thread`, null or running. -/
structure TimerState where
  isRunning : Bool := false
  thread : Option Phase := none
  abortLocked : Bool := false

namespace TimerState

/-- `Timer::Start`: nothing while it runs, and a thread if there is none. -/
def start (state : TimerState) : TimerState :=
  if state.isRunning then state
  else
    match state.thread with
    -- `try_lock` leaves the mutex locked, whoever locked it
    | none => { isRunning := true, thread := some .sleeping, abortLocked := true }
    | some _ => { state with isRunning := true }

/-- `Stop` up to the join. -/
def stop (state : TimerState) : TimerState :=
  { state with isRunning := false, abortLocked := false }

end TimerState

/-- The events of the worker's queue. -/
inductive Event where
  | timerStart (timer : Timer)
  | timerStop (id : ℕ)
  | timerCallback (id : ℕ) (elapsed : Timer)
  | message

/-- What is left to do when `Timer::Stop` returns. -/
inductive AfterStop where
  /-- The rest of `StopTimer`. -/
  | remove (id : ℕ)
  /-- The rest of the `StopTimer` that `StartTimer` calls for a new timer. -/
  | replace (new : Timer)
  /-- The rest of `HandleCallback` for a cyclic timer. -/
  | restart

/-- Where the worker is. -/
inductive Place where
  | idle
  /-- In `Timer::Stop`, waiting for the thread of the timer. -/
  | joining (timer : Timer) (next : AfterStop)
  /-- In `StartTimer`, past the `StopTimer`. -/
  | starting (new : Timer)

/-- A call of `InvokeCallback`, and the timer whose interval elapsed. -/
structure Invocation where
  timer : Timer
  elapsed : Timer

/-- The list of timers, the queue, where the worker is, and the timers themselves. -/
structure Worker where
  timerList : List Timer := []
  queue : List Event := []
  place : Place := .idle
  timers : Timer → TimerState := fun _ => {}
  constructed : ℕ := 0
  invoked : List Invocation := []

namespace Worker

/-! ## The timer list -/

/-- The first timer of that id, if there is one. -/
def getTimer (w : Worker) (id : ℕ) : Option Timer :=
  w.timerList.find? fun timer => timer.id = id

/-- A timer with an id of its own is put behind the others. -/
def addTimer (w : Worker) (timer : Timer) : Worker :=
  if timer.id ≠ 0 ∧ (w.getTimer timer.id).isNone then
    { w with timerList := w.timerList ++ [timer] }
  else w

/-- The first timer of that id leaves the list. -/
def removeTimer (w : Worker) (id : ℕ) : Worker :=
  { w with timerList := w.timerList.eraseP fun timer => timer.id = id }

/-- The state of one timer is replaced. -/
def setTimer (w : Worker) (timer : Timer) (state : TimerState) : Worker :=
  { w with timers := Function.update w.timers timer state }

theorem getTimer_eq_none {w : Worker} {id : ℕ} :
    w.getTimer id = none ↔ ∀ timer ∈ w.timerList, timer.id ≠ id := by
  simp only [getTimer, List.find?_eq_none, decide_eq_true_eq, ne_eq]

theorem of_getTimer {w : Worker} {id : ℕ} {timer : Timer} (h : w.getTimer id = some timer) :
    timer ∈ w.timerList ∧ timer.id = id := by
  have hid := List.find?_some h
  exact ⟨List.mem_of_find?_eq_some h, of_decide_eq_true hid⟩

/-- Where ids are unique no other timer has the id that is removed. -/
theorem id_ne_of_mem_eraseP {timers : List Timer} (hunique : (timers.map Timer.id).Nodup)
    {id : ℕ} {timer : Timer} (hmem : timer ∈ timers.eraseP fun timer => timer.id = id) :
    timer.id ≠ id := by
  induction timers with
  | nil => cases hmem
  | cons head tail ih =>
      rw [List.map_cons, List.nodup_cons] at hunique
      by_cases hhead : head.id = id
      · simp only [List.eraseP_cons, hhead, decide_true, cond_true] at hmem
        rw [← hhead]
        exact fun hid => hunique.1 (hid ▸ List.mem_map_of_mem hmem)
      · simp only [List.eraseP_cons, hhead, decide_false, cond_false] at hmem
        rcases List.mem_cons.1 hmem with rfl | htail
        · exact hhead
        · exact ih hunique.2 htail

/-! ## Processing an event -/

/-- What the worker does when the timer it waited for has stopped. -/
def afterStop (w : Worker) (timer : Timer) : AfterStop → Worker
  | .remove id => { w.removeTimer id with place := .idle }
  | .replace new => { w.removeTimer new.id with place := .starting new }
  | .restart => { w.setTimer timer (w.timers timer).start with place := .idle }

/-- `Timer::Stop`: without a thread it goes on at once. -/
def stop (w : Worker) (timer : Timer) (next : AfterStop) : Worker :=
  let w := w.setTimer timer (w.timers timer).stop
  match (w.timers timer).thread with
  | none => w.afterStop timer next
  | some _ => { w with place := .joining timer next }

/-- The timer of that id is stopped and leaves the list. -/
def stopTimer (w : Worker) (id : ℕ) : Worker :=
  match w.getTimer id with
  | none => w
  | some timer => w.stop timer (.remove id)

/-- `StartTimer` of an event, up to the end of its `StopTimer`. -/
def startTimer (w : Worker) (new : Timer) : Worker :=
  match w.getTimer new.id with
  | none => { w with place := .starting new }
  | some timer => w.stop timer (.replace new)

/-- The rest of `StartTimer`: `Start` also when `AddTimer` refused. -/
def addAndStart (w : Worker) (new : Timer) : Worker :=
  let w := w.addTimer new
  { w.setTimer new (w.timers new).start with place := .idle }

/-- The callback of the timer of that id; a timer that repeats is started again. -/
def handleCallback (w : Worker) (id : ℕ) (elapsed : Timer) : Worker :=
  match w.getTimer id with
  | none => w
  | some timer =>
      let call : Invocation := { timer := timer, elapsed := elapsed }
      let w : Worker := { w with invoked := w.invoked ++ [call] }
      if timer.cyclic then w.stop timer .restart else w.stopTimer id

/-- The body of `DefaultEventDispatcher`. -/
def dispatch (w : Worker) : Event → Worker
  | .timerStart timer => w.startTimer timer
  | .timerStop id => w.stopTimer id
  | .timerCallback id elapsed => w.handleCallback id elapsed
  | .message => w

/-! ## Clients and timer threads -/

/-- The event is put into the queue. -/
def sendEvent (w : Worker) (event : Event) : Worker :=
  { w with queue := w.queue ++ [event] }

/-- `StartTimer` of a client: it constructs the timer and sends it. -/
def startTimerEntry (w : Worker) (id : ℕ) (cyclic : Bool) : Worker :=
  let timer : Timer := { object := w.constructed, id := id, cyclic := cyclic }
  let w : Worker := { w with constructed := w.constructed + 1 }
  w.sendEvent (.timerStart timer)

/-- `StopTimer` of a client. -/
def stopTimerEntry (w : Worker) (id : ℕ) : Worker :=
  w.sendEvent (.timerStop id)

/-- The phase of a timer's thread. -/
def setPhase (w : Worker) (timer : Timer) (phase : Phase) : Worker :=
  w.setTimer timer { w.timers timer with thread := some phase }

/-- **One step** of a client, of a timer's thread or of the worker. -/
inductive Step : Worker → Worker → Prop
  | startTimerEntry {w : Worker} (id : ℕ) (cyclic : Bool) :
      Step w (w.startTimerEntry id cyclic)
  | stopTimerEntry {w : Worker} (id : ℕ) : Step w (w.stopTimerEntry id)
  | sendMessage {w : Worker} : Step w (w.sendEvent .message)
  /-- `try_lock_for` fails: the interval has elapsed. -/
  | expire {w : Worker} (timer : Timer) (sleeps : (w.timers timer).thread = some .sleeping)
      (locked : (w.timers timer).abortLocked = true) : Step w (w.setPhase timer .posting)
  /-- `try_lock_for` succeeds: the timer has been stopped. -/
  | abort {w : Worker} (timer : Timer) (sleeps : (w.timers timer).thread = some .sleeping)
      (unlocked : (w.timers timer).abortLocked = false) :
      Step w (w.setTimer timer
        { w.timers timer with thread := some .exited, abortLocked := true })
  | post {w : Worker} (timer : Timer) (posts : (w.timers timer).thread = some .posting) :
      Step w ((w.setPhase timer .exited).sendEvent (.timerCallback timer.id timer))
  | dispatch {w : Worker} (event : Event) (rest : List Event) (idle : w.place = .idle)
      (front : w.queue = event :: rest) : Step w ({ w with queue := rest }.dispatch event)
  | join {w : Worker} (timer : Timer) (next : AfterStop)
      (place : w.place = .joining timer next)
      (exited : (w.timers timer).thread = some .exited) :
      Step w ((w.setTimer timer { w.timers timer with thread := none }).afterStop timer next)
  | start {w : Worker} (new : Timer) (place : w.place = .starting new) :
      Step w (w.addAndStart new)

end Worker

end NewCPP.TimerFramework
