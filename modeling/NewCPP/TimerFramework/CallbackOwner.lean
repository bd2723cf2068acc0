import NewCPP.Library.Transition
import NewCPP.TimerFramework.Worker

/-!
# Whose callback runs

A `TIMERCALLBACK` names an id, and the worker fires whichever timer has that id when it
gets to the event.  A timer may post its event and be stopped while the event is still in
the queue; a timer that is then started under the same id is fired and removed in its
place (`stale_callback_fires`).

* `invoked_elapsed_of_run` — in every run in which no timer is added to the list while a
  `TIMERCALLBACK` of its id is the next event about that id, the timer whose callback runs
  is the one whose interval elapsed.

## Design notes

`ahead id queue` are the timers that posted the `TIMERCALLBACK` events of an id which the
worker will process before any other event about that id.  The invariant is that all of
them are the timer which the list has for that id.
-/

namespace NewCPP.TimerFramework

open Library

/-- What an event is about an id: nothing, a start or stop (`some none`), or a callback. -/
def Event.about (id : ℕ) : Event → Option (Option Timer)
  | .timerStart timer => if timer.id = id then some none else none
  | .timerStop stopped => if stopped = id then some none else none
  | .timerCallback expired elapsed => if expired = id then some (some elapsed) else none
  | .message => none

theorem Event.about_timerStart {id : ℕ} {new : Timer} {what : Option Timer} :
    Event.about id (.timerStart new) = some what ↔ new.id = id ∧ what = none := by
  by_cases hid : new.id = id <;> simp [Event.about, hid, eq_comm (a := what)]

theorem Event.about_timerStop {id stopped : ℕ} {what : Option Timer} :
    Event.about id (.timerStop stopped) = some what ↔ stopped = id ∧ what = none := by
  by_cases hid : stopped = id <;> simp [Event.about, hid, eq_comm (a := what)]

theorem Event.about_timerCallback {id expired : ℕ} {elapsed : Timer} {what : Option Timer} :
    Event.about id (.timerCallback expired elapsed) = some what ↔
      expired = id ∧ what = some elapsed := by
  by_cases hid : expired = id <;> simp [Event.about, hid, eq_comm (a := what)]

/-- The timers behind the `TIMERCALLBACK` events of an id that come before the next
`TIMERSTART` or `TIMERSTOP` of that id. -/
def ahead (id : ℕ) : List Event → List Timer
  | [] => []
  | event :: rest =>
      match event.about id with
      | none => ahead id rest
      | some none => []
      | some (some elapsed) => elapsed :: ahead id rest

/-- An event behind the others adds at most its own timer. -/
theorem mem_ahead_append {id : ℕ} {queue : List Event} {event : Event} {elapsed : Timer}
    (h : elapsed ∈ ahead id (queue ++ [event])) :
    elapsed ∈ ahead id queue ∨ event.about id = some (some elapsed) := by
  induction queue with
  | nil =>
      rw [List.nil_append, ahead] at h
      split at h
      · cases h
      · cases h
      · rename_i habout
        rw [List.mem_singleton.1 h]
        exact Or.inr habout
  | cons front rest ih =>
      rw [List.cons_append, ahead] at h
      rw [ahead]
      split at h
      · exact ih h
      · cases h
      · rcases List.mem_cons.1 h with rfl | hrest
        · exact Or.inl List.mem_cons_self
        · exact (ih hrest).imp_left (List.mem_cons_of_mem _)

namespace Worker

/-! ## The invariant -/

/-- The list has one timer for an id; a timer with a thread is in it; callbacks have run
for their own timers. -/
structure Listed (w : Worker) : Prop where
  ids : ∀ timer ∈ w.timerList, timer.id ≠ 0
  unique : (w.timerList.map Timer.id).Nodup
  threads : ∀ timer, (w.timers timer).thread.isSome → timer.id ≠ 0 → timer ∈ w.timerList
  invoked : ∀ call ∈ w.invoked, call.timer = call.elapsed

/-- The id of the timer that the worker is about to take off the list. -/
def AfterStop.leaves (timer : Timer) : AfterStop → Option ℕ
  | .remove _ => some timer.id
  | .replace _ => some timer.id
  | .restart => none

/-- The `TIMERCALLBACK` events ahead belong to the listed timers, but for one id. -/
def Owned (w : Worker) (exempt : Option ℕ) : Prop :=
  ∀ timer ∈ w.timerList, exempt ≠ some timer.id →
    ∀ elapsed ∈ ahead timer.id w.queue, elapsed = timer

/-- What is left to do is meant for this id. -/
def AfterStop.IsFor (id : ℕ) : AfterStop → Prop
  | .remove removed => removed = id
  | .replace new => new.id = id
  | .restart => True

/-- The worker stops a timer of its list. -/
def Stops (w : Worker) (timer : Timer) (next : AfterStop) : Prop :=
  timer ∈ w.timerList ∧ AfterStop.IsFor timer.id next

/-- **The invariant.** -/
structure Sound (w : Worker) : Prop extends Listed w where
  idle : w.place = .idle → w.Owned none
  joining : ∀ timer next, w.place = .joining timer next →
    w.Stops timer next ∧ w.Owned (AfterStop.leaves timer next)
  starting : ∀ new, w.place = .starting new →
    (∀ timer ∈ w.timerList, timer.id ≠ new.id) ∧ w.Owned none

theorem Listed.eq_of_id {w : Worker} (h : w.Listed) {first second : Timer}
    (hfirst : first ∈ w.timerList) (hsecond : second ∈ w.timerList)
    (hid : first.id = second.id) : first = second :=
  List.inj_on_of_nodup_map h.unique hfirst hsecond hid

theorem Listed.mem_removeTimer {w : Worker} (h : w.Listed) {id : ℕ} {timer : Timer}
    (hmem : timer ∈ (w.removeTimer id).timerList) :
    timer ∈ w.timerList ∧ timer.id ≠ id :=
  ⟨List.mem_of_mem_eraseP hmem, id_ne_of_mem_eraseP h.unique hmem⟩

theorem mem_removeTimer_of_ne {w : Worker} {id : ℕ} {timer : Timer}
    (hmem : timer ∈ w.timerList) (hid : timer.id ≠ id) :
    timer ∈ (w.removeTimer id).timerList :=
  (List.mem_eraseP_of_neg (by simpa using hid)).2 hmem

/-! ## Stopping a timer -/

theorem Listed.setTimer {w : Worker} (h : w.Listed) {timer : Timer} {state : TimerState}
    (hstate : state.thread.isSome → timer.id ≠ 0 → timer ∈ w.timerList) :
    (w.setTimer timer state).Listed := by
  refine ⟨h.ids, h.unique, fun timer' hthread hid => ?_, h.invoked⟩
  by_cases heq : timer' = timer
  · rw [heq] at hthread hid ⊢
    exact hstate (by simpa [Worker.setTimer] using hthread) hid
  · refine h.threads timer' ?_ hid
    simpa only [Worker.setTimer, Function.update_of_ne heq] using hthread

/-- A timer without a thread leaves the list. -/
theorem Listed.remove {w : Worker} (h : w.Listed) {timer : Timer}
    (hlisted : timer ∈ w.timerList) (hthread : (w.timers timer).thread = none) :
    (w.removeTimer timer.id).Listed := by
  refine ⟨fun other hother => h.ids other (h.mem_removeTimer hother).1, ?_,
    fun other hother hid => ?_, h.invoked⟩
  · exact h.unique.sublist ((List.eraseP_sublist).map Timer.id)
  -- a timer of that id would be the removed one, and that has no thread
  · refine mem_removeTimer_of_ne (h.threads other hother hid) fun heq => ?_
    have hother' : other = timer := h.eq_of_id (h.threads other hother hid) hlisted heq
    have hnone : ((w.removeTimer timer.id).timers other).thread = none := by
      rw [hother']
      exact hthread
    rw [hnone] at hother
    cases hother

theorem Owned.remove {w : Worker} (h : w.Listed) {id : ℕ} (howned : w.Owned (some id)) :
    (w.removeTimer id).Owned none := by
  intro timer hmem _ elapsed hahead
  obtain ⟨hlisted, hid⟩ := h.mem_removeTimer hmem
  exact howned timer hlisted (fun heq => hid (Option.some.inj heq).symm) elapsed hahead

theorem Listed.goTo {w : Worker} (h : w.Listed) (place : Place) :
    ({ w with place := place } : Worker).Listed :=
  ⟨h.ids, h.unique, h.threads, h.invoked⟩

theorem Listed.sound_idle {w : Worker} (h : w.Listed) (hplace : w.place = .idle)
    (howned : w.Owned none) : w.Sound where
  toListed := h
  idle _ := howned
  joining _ _ hplace' := by
    rw [hplace] at hplace'
    cases hplace'
  starting _ hplace' := by
    rw [hplace] at hplace'
    cases hplace'

theorem Listed.sound_starting {w : Worker} (h : w.Listed) {new : Timer}
    (hnew : ∀ timer ∈ w.timerList, timer.id ≠ new.id) (howned : w.Owned none) :
    ({ w with place := .starting new } : Worker).Sound where
  toListed := h.goTo (.starting new)
  idle hplace := by cases hplace
  joining _ _ hplace := by cases hplace
  starting _ hplace := by
    cases hplace
    exact ⟨hnew, howned⟩

theorem Listed.sound_afterStop {w : Worker} (h : w.Listed) {timer : Timer}
    {next : AfterStop} (hstops : w.Stops timer next)
    (hthread : (w.timers timer).thread = none)
    (howned : w.Owned (AfterStop.leaves timer next)) : (w.afterStop timer next).Sound := by
  obtain ⟨hmem, hfor⟩ := hstops
  cases next with
  | remove id =>
      rw [Worker.afterStop, show id = timer.id from hfor]
      exact ((h.remove hmem hthread).goTo .idle).sound_idle rfl (howned.remove h)
  | replace new =>
      rw [Worker.afterStop, show new.id = timer.id from hfor]
      refine (h.remove hmem hthread).sound_starting ?_ (howned.remove h)
      rw [show new.id = timer.id from hfor]
      exact fun other hother => (h.mem_removeTimer hother).2
  | restart =>
      rw [Worker.afterStop]
      exact ((h.setTimer fun _ _ => hmem).goTo .idle).sound_idle rfl howned

theorem Listed.sound_stop {w : Worker} (h : w.Listed) {timer : Timer} {next : AfterStop}
    (hstops : w.Stops timer next) (howned : w.Owned (AfterStop.leaves timer next)) :
    (w.stop timer next).Sound := by
  have hlisted : (w.setTimer timer (w.timers timer).stop).Listed :=
    h.setTimer fun _ _ => hstops.1
  rw [stop]
  split
  · rename_i hthread
    exact hlisted.sound_afterStop hstops hthread howned
  · exact {
      toListed := hlisted.goTo _
      idle := fun hplace => by cases hplace
      joining := fun other next' hplace => by
        cases hplace
        exact ⟨hstops, howned⟩
      starting := fun _ hplace => by cases hplace }

/-! ## Steps of clients and of the timers' threads -/

/-- A new event that is no `TIMERCALLBACK` of another timer than the listed one. -/
theorem Sound.sendEvent {w : Worker} (h : w.Sound) {event : Event}
    (hevent : ∀ timer ∈ w.timerList, ∀ elapsed,
      event.about timer.id = some (some elapsed) → elapsed = timer) :
    (w.sendEvent event).Sound := by
  have howned {exempt : Option ℕ} (howned : w.Owned exempt) :
      (w.sendEvent event).Owned exempt := by
    intro timer hlisted hexempt elapsed hahead
    rcases mem_ahead_append hahead with hbefore | habout
    · exact howned timer hlisted hexempt elapsed hbefore
    · exact hevent timer hlisted elapsed habout
  exact {
    toListed := ⟨h.ids, h.unique, h.threads, h.invoked⟩
    idle := fun hplace => howned (h.idle hplace)
    joining := fun timer next hplace =>
      ⟨(h.joining timer next hplace).1, howned (h.joining timer next hplace).2⟩
    starting := fun new hplace =>
      ⟨(h.starting new hplace).1, howned (h.starting new hplace).2⟩ }

/-- The thread of a timer goes on. -/
theorem Sound.setTimer {w : Worker} (h : w.Sound) {timer : Timer} {state : TimerState}
    (hthread : (w.timers timer).thread.isSome) : (w.setTimer timer state).Sound where
  toListed := h.toListed.setTimer fun _ hid => h.threads timer hthread hid
  idle hplace := h.idle hplace
  joining timer next hplace := h.joining timer next hplace
  starting new hplace := h.starting new hplace

theorem Sound.post {w : Worker} (h : w.Sound) {timer : Timer}
    (hthread : (w.timers timer).thread = some .posting) :
    ((w.setPhase timer .exited).sendEvent (.timerCallback timer.id timer)).Sound := by
  have hsome : (w.timers timer).thread.isSome := by rw [hthread]; rfl
  have hgone : (w.setPhase timer .exited).Sound := h.setTimer hsome
  refine hgone.sendEvent fun other hother elapsed habout => ?_
  obtain ⟨hid, helapsed⟩ := Event.about_timerCallback.1 habout
  cases helapsed
  exact h.eq_of_id (h.threads timer hsome (hid ▸ h.ids other hother)) hother hid

/-! ## Steps of the worker -/

/-- An event leaves the queue; it concerned at most one id. -/
theorem Owned.tail {w : Worker} {event : Event} {rest : List Event} (howned : w.Owned none)
    (hfront : w.queue = event :: rest) {exempt : Option ℕ}
    (hother : ∀ id, exempt ≠ some id → event.about id ≠ some none) :
    ({ w with queue := rest } : Worker).Owned exempt := by
  intro timer hlisted hexempt elapsed hahead
  refine howned timer hlisted (Option.some_ne_none _).symm elapsed ?_
  rw [hfront, ahead]
  split
  · exact hahead
  -- a start or stop kept the events behind it away from its own id only
  · rename_i habout
    exact absurd habout (hother timer.id hexempt)
  · exact List.mem_cons_of_mem _ hahead

theorem Owned.of_absent {w : Worker} {id : ℕ} (howned : w.Owned (some id))
    (habsent : ∀ timer ∈ w.timerList, timer.id ≠ id) : w.Owned none := by
  intro timer hlisted _
  exact howned timer hlisted fun heq => habsent timer hlisted (Option.some.inj heq).symm

theorem Owned.exempting {w : Worker} (howned : w.Owned none) (exempt : Option ℕ) :
    w.Owned exempt :=
  fun timer hlisted _ => howned timer hlisted (Option.some_ne_none _).symm

theorem Listed.sound_stopTimer {w : Worker} (h : w.Listed) (hplace : w.place = .idle)
    {id : ℕ} (howned : w.Owned (some id)) : (w.stopTimer id).Sound := by
  rw [stopTimer]
  split
  · rename_i hfind
    exact h.sound_idle hplace (howned.of_absent (getTimer_eq_none.1 hfind))
  · rename_i timer hfind
    obtain ⟨hlisted, rfl⟩ := of_getTimer hfind
    exact h.sound_stop ⟨hlisted, rfl⟩ howned

theorem Listed.sound_startTimer {w : Worker} (h : w.Listed) {new : Timer}
    (howned : w.Owned (some new.id)) : (w.startTimer new).Sound := by
  rw [startTimer]
  split
  · rename_i hfind
    have habsent := getTimer_eq_none.1 hfind
    exact h.sound_starting habsent (howned.of_absent habsent)
  · rename_i timer hfind
    obtain ⟨hlisted, hid⟩ := of_getTimer hfind
    rw [← hid] at howned
    exact h.sound_stop ⟨hlisted, hid.symm⟩ howned

/-- The callback that runs is the one of the timer whose interval elapsed. -/
theorem Listed.sound_handleCallback {w : Worker} (h : w.Listed) (hplace : w.place = .idle)
    (howned : w.Owned none) {id : ℕ} {elapsed : Timer}
    (helapsed : ∀ timer ∈ w.timerList, timer.id = id → elapsed = timer) :
    (w.handleCallback id elapsed).Sound := by
  rw [handleCallback]
  split
  · exact h.sound_idle hplace howned
  · rename_i timer hfind
    obtain ⟨hlisted, hid⟩ := of_getTimer hfind
    have hcalled : ({ w with
        invoked := w.invoked ++ [{ timer := timer, elapsed := elapsed }] } : Worker).Listed := by
      refine ⟨h.ids, h.unique, h.threads, fun call hcall => ?_⟩
      rcases List.mem_append.1 hcall with hold | hnew
      · exact h.invoked call hold
      · rw [List.mem_singleton.1 hnew]
        exact (helapsed timer hlisted hid).symm
    dsimp only
    split
    · exact hcalled.sound_stop ⟨hlisted, trivial⟩ howned
    · exact hcalled.sound_stopTimer hplace (howned.exempting (some id))

theorem Sound.dispatch {w : Worker} (h : w.Sound) (hidle : w.place = .idle) {event : Event}
    {rest : List Event} (hfront : w.queue = event :: rest) :
    (({ w with queue := rest } : Worker).dispatch event).Sound := by
  have howned := h.idle hidle
  have hlisted : ({ w with queue := rest } : Worker).Listed :=
    ⟨h.ids, h.unique, h.threads, h.invoked⟩
  cases event with
  | timerStart new =>
      refine hlisted.sound_startTimer (howned.tail hfront fun id hid habout => ?_)
      exact hid (congrArg some (Event.about_timerStart.1 habout).1)
  | timerStop stopped =>
      refine hlisted.sound_stopTimer hidle (howned.tail hfront fun id hid habout => ?_)
      exact hid (congrArg some (Event.about_timerStop.1 habout).1)
  | timerCallback id elapsed =>
      refine hlisted.sound_handleCallback hidle (howned.tail hfront fun id' _ habout => ?_)
        fun timer hmem hid => ?_
      · cases (Event.about_timerCallback.1 habout).2
      · refine howned timer hmem (Option.some_ne_none _).symm elapsed ?_
        rw [hfront, ahead, Event.about, if_pos hid.symm]
        exact List.mem_cons_self
  | message =>
      refine hlisted.sound_idle hidle (howned.tail hfront fun _ _ habout => ?_)
      cases habout

/-- A timer is about to be added while a `TIMERCALLBACK` of its id is the next event about
that id: `StartsFresh` excludes it. -/
def StartsFresh (w : Worker) : Prop :=
  ∀ new, w.place = .starting new → new.id ≠ 0 → ahead new.id w.queue = []

theorem Sound.addAndStart {w : Worker} (h : w.Sound) (hfresh : w.StartsFresh) {new : Timer}
    (hplace : w.place = .starting new) : (w.addAndStart new).Sound := by
  obtain ⟨habsent, howned⟩ := h.starting new hplace
  rw [Worker.addAndStart, addTimer]
  split
  · rename_i hadds
    have hadded : ({ w with timerList := w.timerList ++ [new] } : Worker).Listed := by
      refine ⟨fun timer hmem => ?_, ?_, fun timer hthread hid => ?_, h.invoked⟩
      · rcases List.mem_append.1 hmem with hold | hnew
        · exact h.ids timer hold
        · rw [List.mem_singleton.1 hnew]
          exact hadds.1
      · rw [List.map_append, List.map_singleton, ← List.concat_eq_append]
        refine List.Nodup.concat (fun hmem => ?_) h.unique
        obtain ⟨timer, htimer, hid⟩ := List.mem_map.1 hmem
        exact habsent timer htimer hid
      · exact List.mem_append_left _ (h.threads timer hthread hid)
    refine ((hadded.setTimer fun _ _ => ?_).goTo .idle).sound_idle rfl ?_
    · exact List.mem_append_right _ (List.mem_singleton_self new)
    · intro timer hmem _ elapsed hahead
      rcases List.mem_append.1 hmem with hold | hnew
      · exact howned timer hold (Option.some_ne_none _).symm elapsed hahead
      -- nothing is ahead for the new timer, so what comes next about its id is its own
      · rw [List.mem_singleton.1 hnew] at hahead
        have hnone : elapsed ∈ ahead new.id w.queue := hahead
        rw [hfresh new hplace hadds.1] at hnone
        cases hnone
  -- `AddTimer` refuses the id 0 only: the timer with this id has just been removed
  · rename_i hrefused
    have hzero : new.id = 0 := by
      by_contra hid
      refine hrefused ⟨hid, ?_⟩
      rw [getTimer_eq_none.2 habsent]
      rfl
    refine ((h.toListed.setTimer fun _ hid => ?_).goTo .idle).sound_idle rfl howned
    exact absurd hzero hid

theorem Sound.step {w w' : Worker} (h : w.Sound) (hfresh : w.StartsFresh)
    (hstep : Step w w') : w'.Sound := by
  cases hstep with
  | startTimerEntry id cyclic =>
      have hconstructed : ({ w with constructed := w.constructed + 1 } : Worker).Sound :=
        ⟨⟨h.ids, h.unique, h.threads, h.invoked⟩, h.idle, h.joining, h.starting⟩
      refine hconstructed.sendEvent fun timer _ elapsed habout => ?_
      cases (Event.about_timerStart.1 habout).2
  | stopTimerEntry id =>
      refine h.sendEvent fun timer _ elapsed habout => ?_
      cases (Event.about_timerStop.1 habout).2
  | sendMessage => exact h.sendEvent fun _ _ _ habout => by cases habout
  | expire timer hsleeps _ => exact h.setTimer (by rw [hsleeps]; rfl)
  | abort timer hsleeps _ => exact h.setTimer (by rw [hsleeps]; rfl)
  | post timer hposts => exact h.post hposts
  | dispatch event rest hidle hfront => exact h.dispatch hidle hfront
  | join timer next hplace _ =>
      obtain ⟨hstops, howned⟩ := h.joining timer next hplace
      refine Listed.sound_afterStop (h.toListed.setTimer fun hthread _ => ?_) hstops ?_ howned
      · cases hthread
      · simp only [Worker.setTimer, Function.update_self]
  | start new hplace => exact h.addAndStart hfresh hplace

theorem sound_initial : ({} : Worker).Sound where
  ids _ hmem := by cases hmem
  unique := List.nodup_nil
  threads _ hthread := by cases hthread
  invoked _ hmem := by cases hmem
  idle _ _ hmem := by cases hmem
  joining _ _ hplace := by cases hplace
  starting _ hplace := by cases hplace

/-- **Whose callback runs.**  In a run in which no timer is added to the list while a
`TIMERCALLBACK` of its id is the next event about that id, every timer that is fired, and
with it removed or restarted, is the one whose interval elapsed. -/
theorem invoked_elapsed_of_run {w : Worker}
    (hrun : Relation.ReflTransGen (Transition.restrict Step StartsFresh) {} w) :
    ∀ call ∈ w.invoked, call.timer = call.elapsed :=
  (Transition.invariant_of_restricted_run (I := Sound) (fun h hfresh hstep =>
    h.step hfresh hstep) sound_initial hrun).invoked

/-! ## Two runs -/

/-- A one-shot timer with id 1. -/
def oneShot (object : ℕ) : Timer := { object := object, id := 1, cyclic := false }

/-- Timer 0 has been started. -/
def armed : Worker :=
  let w := ({} : Worker).startTimerEntry 1 false
  let w := ({ w with queue := [] } : Worker).dispatch (.timerStart (oneShot 0))
  w.addAndStart (oneShot 0)

/-- The interval of timer 0 elapses and its thread posts the event. -/
def posted (w : Worker) : Worker :=
  let w := w.setPhase (oneShot 0) .posting
  (w.setPhase (oneShot 0) .exited).sendEvent (.timerCallback 1 (oneShot 0))

/-- Timer 0 is fired. -/
def fired : Worker :=
  ({ posted armed with queue := [] } : Worker).dispatch (.timerCallback 1 (oneShot 0))

/-- A client stops timer 0 and starts timer 1, and then the interval of timer 0 elapses. -/
def stale : Worker :=
  posted ((armed.stopTimerEntry 1).startTimerEntry 1 false)

/-- The worker has stopped timer 0 and started timer 1. -/
def replaced : Worker :=
  let w := ({ stale with
    queue := [.timerStart (oneShot 1), .timerCallback 1 (oneShot 0)] } : Worker).dispatch
      (.timerStop 1)
  let w := (w.setTimer (oneShot 0)
    { w.timers (oneShot 0) with thread := none }).afterStop (oneShot 0) (.remove 1)
  let w := ({ w with queue := [.timerCallback 1 (oneShot 0)] } : Worker).dispatch
    (.timerStart (oneShot 1))
  w.addAndStart (oneShot 1)

theorem armed_reached :
    Relation.ReflTransGen (Transition.restrict Step StartsFresh) {} armed := by
  refine .head ⟨fun _ h => (by cases h), Step.startTimerEntry 1 false⟩ ?_
  refine .head ⟨fun _ h => (by cases h), Step.dispatch _ [] rfl rfl⟩ ?_
  exact .single ⟨fun _ h _ => (by cases h; rfl), Step.start _ rfl⟩

theorem fired_reached :
    Relation.ReflTransGen (Transition.restrict Step StartsFresh) {} fired := by
  refine armed_reached.trans ?_
  refine .head ⟨fun _ h => (by cases h), Step.expire (oneShot 0) rfl rfl⟩ ?_
  refine .head ⟨fun _ h => (by cases h), Step.post (oneShot 0) rfl⟩ ?_
  exact .single ⟨fun _ h => (by cases h), Step.dispatch _ [] rfl rfl⟩

/-- A timer that is not stopped is fired by its own expiry. -/
theorem fired_own :
    fired.invoked = [{ timer := oneShot 0, elapsed := oneShot 0 }] ∧
      ∀ call ∈ fired.invoked, call.timer = call.elapsed :=
  ⟨rfl, invoked_elapsed_of_run fired_reached⟩

theorem replaced_reached : Relation.ReflTransGen Step {} replaced := by
  refine (Relation.ReflTransGen.mono (fun _ _ h => h.2) _ _ armed_reached).trans ?_
  refine .head (Step.stopTimerEntry 1) ?_
  refine .head (Step.startTimerEntry 1 false) ?_
  refine .head (Step.expire (oneShot 0) rfl rfl) ?_
  refine .head (Step.post (oneShot 0) rfl) ?_
  refine .head (Step.dispatch (.timerStop 1) _ rfl rfl) ?_
  refine .head (Step.join (oneShot 0) (.remove 1) rfl rfl) ?_
  refine .head (Step.dispatch (.timerStart (oneShot 1)) _ rfl rfl) ?_
  exact .single (Step.start (oneShot 1) rfl)

/-- **A stale expiry fires and removes a fresh timer**: timer 0 has been stopped, and its
`TIMERCALLBACK` invokes the callback of timer 1. -/
theorem stale_callback_fires :
    ∃ w, Relation.ReflTransGen Step {} w ∧
      w.invoked = [{ timer := oneShot 1, elapsed := oneShot 0 }] := by
  refine ⟨_, replaced_reached.tail (Step.dispatch (.timerCallback 1 (oneShot 0)) [] rfl rfl),
    rfl⟩

end Worker

end NewCPP.TimerFramework
