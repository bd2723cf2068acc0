import NewCPP.TimerFramework.TimerMap

/-!
# Timers that go on

What the worker, its clients and the threads of its timers bring about together: nobody waits
for ever, and no timer that is listed is forgotten.

* `goesOn_of_mem` — a timer of the list that is not being stopped sleeps until its interval has
  elapsed, or is about to post its event, or has an event of its own in the queue.
* `comes_to_rest` — the worker never hangs in `Timer::Stop`: by itself it takes up every event,
  with so many steps, and then every timer of the list sleeps or is about to post its event.

## Design notes

**Own steps** are those of the worker, and where it waits for the thread of a timer also those
of that thread.  The steps of clients and the elapsing of intervals are not among them.

**Measures.**  `comes_to_rest` counts steps with a measure that each own step makes smaller: an
event in the queue costs more than the join it may lead to.  Arrivals make it larger, and there
is no claim about a worker that is kept busy for ever.

**Lively** is the invariant behind both results: identifiers are unique, a timer that has not
been started is as it was constructed, and a thread that was asked to end can always be joined.
-/

namespace NewCPP.TimerFramework

open Library

/-- The timer that the event brings. -/
def Event.pending : Event → Option Timer
  | .timerStart timer => some timer
  | _ => none

/-- The timer that the worker is about to start for the first time. -/
def Place.pending : Place → List Timer
  | .starting new => [new]
  | .joining _ (.replace new) => [new]
  | _ => []

namespace Worker

/-- The timers that have been constructed and not started. -/
def pending (w : Worker) : List Timer :=
  w.place.pending ++ w.queue.filterMap Event.pending

/-- The thread of the timer will post its event, or has posted it. -/
def GoesOn (w : Worker) (timer : Timer) : Prop :=
  (w.timers timer).isRunning = true ∧
    ((w.timers timer).thread = some .sleeping ∧ (w.timers timer).abortLocked = true ∨
      (w.timers timer).thread = some .posting ∨
      (w.timers timer).thread = some .exited ∧ .timerCallback timer.id timer ∈ w.queue)

/-- The thread of the timer has exited, or can. -/
def Ending (w : Worker) (timer : Timer) : Prop :=
  (w.timers timer).isRunning = false ∧
    ((w.timers timer).thread = some .sleeping ∧ (w.timers timer).abortLocked = false ∨
      (w.timers timer).thread = some .posting ∨ (w.timers timer).thread = some .exited)

/-! ## The invariant -/

/-- What every reachable state has in common, as far as progress goes. -/
structure Lively (w : Worker) : Prop where
  unique : w.UniqueIds
  nodup : w.pending.Nodup
  constructed : ∀ timer ∈ w.pending, timer.object < w.constructed
  /-- Nothing has happened to a timer that has not been started. -/
  fresh : ∀ timer, timer ∈ w.pending ∨ w.constructed ≤ timer.object → w.timers timer = {}
  alive : ∀ timer ∈ w.timerList, (∀ next, w.place ≠ .joining timer next) → w.GoesOn timer
  ending : ∀ timer next, w.place = .joining timer next → w.Stops timer next ∧ w.Ending timer

section

variable {w : Worker} {timer : Timer}

theorem GoesOn.thread (h : w.GoesOn timer) : ∃ phase, (w.timers timer).thread = some phase := by
  rcases h.2 with ⟨hthread, -⟩ | hthread | ⟨hthread, -⟩
  · exact ⟨_, hthread⟩
  · exact ⟨_, hthread⟩
  · exact ⟨_, hthread⟩

theorem Ending.thread (h : w.Ending timer) : ∃ phase, (w.timers timer).thread = some phase := by
  rcases h.2 with ⟨hthread, -⟩ | hthread | hthread
  · exact ⟨_, hthread⟩
  · exact ⟨_, hthread⟩
  · exact ⟨_, hthread⟩

/-- A timer with a thread has been started. -/
theorem Lively.started (h : w.Lively)
    (hthread : ∃ phase, (w.timers timer).thread = some phase) :
    timer ∉ w.pending ∧ timer.object < w.constructed := by
  have hstate : w.timers timer ≠ {} := by
    intro hstate
    rw [hstate] at hthread
    obtain ⟨phase, hthread⟩ := hthread
    cases hthread
  exact ⟨fun hmem => hstate (h.fresh timer (Or.inl hmem)),
    lt_of_not_ge fun hle => hstate (h.fresh timer (Or.inr hle))⟩

/-- A listed timer has a thread. -/
theorem Lively.thread (h : w.Lively) (hmem : timer ∈ w.timerList) :
    ∃ phase, (w.timers timer).thread = some phase := by
  by_cases hjoining : ∀ next, w.place ≠ .joining timer next
  · exact (h.alive timer hmem hjoining).thread
  · obtain ⟨next, hplace⟩ := not_forall_not.1 hjoining
    exact (h.ending timer next hplace).2.thread

theorem timers_setTimer_of_ne {other : Timer} (hne : other ≠ timer) (state : TimerState) :
    (w.setTimer timer state).timers other = w.timers other := by
  show Function.update w.timers timer state other = w.timers other
  exact Function.update_of_ne hne state w.timers

theorem timers_setTimer_self (w : Worker) (timer : Timer) (state : TimerState) :
    (w.setTimer timer state).timers timer = state := by
  show Function.update w.timers timer state timer = state
  exact Function.update_self timer state w.timers

theorem GoesOn.setTimer_of_ne {other : Timer} (h : w.GoesOn other) (hne : other ≠ timer)
    (state : TimerState) : (w.setTimer timer state).GoesOn other := by
  rw [GoesOn, timers_setTimer_of_ne hne]
  exact h

/-- A timer that is started for the first time, or again, sleeps. -/
theorem goesOn_setTimer_start {state : TimerState} (hrunning : state.isRunning = false)
    (hthread : state.thread = none) : (w.setTimer timer state.start).GoesOn timer := by
  rw [GoesOn, timers_setTimer_self, TimerState.start, hrunning, hthread]
  exact ⟨rfl, Or.inl ⟨rfl, rfl⟩⟩

/-- What has not been started is left alone where the timer has. -/
theorem Lively.fresh_setTimer (h : w.Lively)
    (hthread : ∃ phase, (w.timers timer).thread = some phase) (state : TimerState)
    {other : Timer} (hother : other ∈ w.pending ∨ w.constructed ≤ other.object) :
    (w.setTimer timer state).timers other = {} := by
  obtain ⟨hpending, hconstructed⟩ := h.started hthread
  have hne : other ≠ timer := by
    rintro rfl
    exact hother.elim hpending (fun hle => absurd hle (Nat.not_le.2 hconstructed))
  rw [timers_setTimer_of_ne hne]
  exact h.fresh other hother

/-! ## Steps of clients and of the timers' threads -/

theorem pending_sendEvent (w : Worker) (event : Event) :
    (w.sendEvent event).pending = w.pending ++ event.pending.toList := by
  have hevent : [event].filterMap Event.pending = event.pending.toList := by
    cases event with
    | timerStart timer => rfl
    | _ => rfl
  show w.place.pending ++ (w.queue ++ [event]).filterMap Event.pending = _
  rw [List.filterMap_append, hevent, ← List.append_assoc]
  rfl

theorem GoesOn.sendEvent (h : w.GoesOn timer) (event : Event) :
    (w.sendEvent event).GoesOn timer := by
  refine ⟨h.1, ?_⟩
  rcases h.2 with hsleeps | hposts | ⟨hexited, hqueued⟩
  · exact Or.inl hsleeps
  · exact Or.inr (Or.inl hposts)
  · exact Or.inr (Or.inr ⟨hexited, List.mem_append_left _ hqueued⟩)

theorem Lively.sendEvent (h : w.Lively) {event : Event} (hevent : event.pending = none) :
    (w.sendEvent event).Lively := by
  have hpending : (w.sendEvent event).pending = w.pending := by
    rw [pending_sendEvent, hevent]
    exact List.append_nil w.pending
  exact {
    unique := h.unique
    nodup := hpending ▸ h.nodup
    constructed := hpending ▸ h.constructed
    fresh := hpending ▸ h.fresh
    alive := fun timer hmem hjoining => (h.alive timer hmem hjoining).sendEvent event
    ending := h.ending }

theorem Lively.startTimerEntry (h : w.Lively) (id : ℕ) (cyclic : Bool) :
    (w.startTimerEntry id cyclic).Lively := by
  have hpending : (w.startTimerEntry id cyclic).pending =
      w.pending ++ [{ object := w.constructed, id := id, cyclic := cyclic }] :=
    pending_sendEvent _ _
  refine ⟨h.unique, ?_, ?_, ?_, ?_, h.ending⟩
  · rw [hpending, ← List.concat_eq_append]
    exact List.Nodup.concat (fun hmem => lt_irrefl _ (h.constructed _ hmem)) h.nodup
  · rw [hpending]
    intro timer hmem
    show timer.object < w.constructed + 1
    rcases List.mem_append.1 hmem with hold | hnew
    · exact Nat.lt_succ_of_lt (h.constructed timer hold)
    · rw [List.mem_singleton.1 hnew]
      exact Nat.lt_succ_self _
  · rw [hpending]
    rintro timer (hmem | hle)
    · rcases List.mem_append.1 hmem with hold | hnew
      · exact h.fresh timer (Or.inl hold)
      · rw [List.mem_singleton.1 hnew]
        exact h.fresh _ (Or.inr (le_refl _))
    · exact h.fresh timer (Or.inr (Nat.le_of_succ_le hle))
  · exact fun timer hmem hjoining => GoesOn.sendEvent (h.alive timer hmem hjoining) _

/-- The thread of a timer goes on. -/
theorem Lively.setTimer (h : w.Lively) {state : TimerState}
    (hthread : ∃ phase, (w.timers timer).thread = some phase)
    (hgoesOn : w.GoesOn timer → (w.setTimer timer state).GoesOn timer)
    (hending : w.Ending timer → (w.setTimer timer state).Ending timer) :
    (w.setTimer timer state).Lively where
  unique := h.unique
  nodup := h.nodup
  constructed := h.constructed
  fresh _ hother := h.fresh_setTimer hthread state hother
  alive other hmem hjoining := by
    have hother := h.alive other hmem hjoining
    by_cases hne : other = timer
    · subst hne
      exact hgoesOn hother
    · exact hother.setTimer_of_ne hne state
  ending other next hplace := by
    obtain ⟨hstops, hother⟩ := h.ending other next hplace
    refine ⟨hstops, ?_⟩
    by_cases hne : other = timer
    · subst hne
      exact hending hother
    · rw [Ending, timers_setTimer_of_ne hne]
      exact hother

theorem Lively.expire (h : w.Lively) (hsleeps : (w.timers timer).thread = some .sleeping) :
    (w.setPhase timer .posting).Lively := by
  refine h.setTimer ⟨_, hsleeps⟩ (fun hgoesOn => ?_) fun hending => ?_
  · rw [GoesOn, timers_setTimer_self]
    exact ⟨hgoesOn.1, Or.inr (Or.inl rfl)⟩
  · rw [Ending, timers_setTimer_self]
    exact ⟨hending.1, Or.inr (Or.inl rfl)⟩

/-- Only a timer that is being stopped finds the mutex unlocked. -/
theorem Lively.abort (h : w.Lively) (hsleeps : (w.timers timer).thread = some .sleeping)
    (hunlocked : (w.timers timer).abortLocked = false) :
    (w.setTimer timer
      { w.timers timer with thread := some .exited, abortLocked := true }).Lively := by
  refine h.setTimer ⟨_, hsleeps⟩ (fun hgoesOn => ?_) fun hending => ?_
  · rcases hgoesOn.2 with ⟨-, hlocked⟩ | hposts | ⟨hexited, -⟩
    · rw [hunlocked] at hlocked
      cases hlocked
    · rw [hsleeps] at hposts
      cases hposts
    · rw [hsleeps] at hexited
      cases hexited
  · rw [Ending, timers_setTimer_self]
    exact ⟨hending.1, Or.inr (Or.inr rfl)⟩

theorem Lively.post (h : w.Lively) (hposts : (w.timers timer).thread = some .posting) :
    ((w.setPhase timer .exited).sendEvent (.timerCallback timer.id timer)).Lively := by
  have hsent : (w.sendEvent (.timerCallback timer.id timer)).Lively := h.sendEvent rfl
  show ((w.sendEvent (.timerCallback timer.id timer)).setTimer timer
    { w.timers timer with thread := some .exited }).Lively
  refine hsent.setTimer ⟨_, hposts⟩ (fun hgoesOn => ?_) fun hending => ?_
  · rw [GoesOn, timers_setTimer_self]
    exact ⟨hgoesOn.1, Or.inr (Or.inr ⟨rfl, List.mem_append_right _ (List.mem_singleton_self _)⟩)⟩
  · rw [Ending, timers_setTimer_self]
    exact ⟨hending.1, Or.inr (Or.inr rfl)⟩

/-! ## What an event does -/

/-- What the worker does with an event when every timer of the list has a thread. -/
inductive TakesUp (w : Worker) (event : Event) : Worker → Prop
  | ignored (nothing : event.pending = none)
      (others : ∀ timer ∈ w.timerList, event ≠ .timerCallback timer.id timer) :
      TakesUp w event w
  | starting (new : Timer) (start : event = .timerStart new) :
      TakesUp w event { w with place := .starting new }
  | stopping (timer : Timer) (next : AfterStop) (invoked : List Invocation)
      (stops : w.Stops timer next)
      (moved : event.pending.toList = (Place.joining timer next).pending)
      (others : ∀ other ∈ w.timerList, event = .timerCallback other.id other → other = timer) :
      TakesUp w event
        { w.setTimer timer (w.timers timer).stop with
          place := .joining timer next, invoked := invoked }

theorem stop_of_thread (hthread : ∃ phase, (w.timers timer).thread = some phase)
    (next : AfterStop) :
    w.stop timer next =
      { w.setTimer timer (w.timers timer).stop with place := .joining timer next } := by
  obtain ⟨phase, hthread⟩ := hthread
  have hstopped : ((w.setTimer timer (w.timers timer).stop).timers timer).thread =
      some phase := by
    rw [timers_setTimer_self]
    exact hthread
  rw [stop]
  simp only [hstopped]

/-- One spec for the four kinds of event. -/
theorem UniqueIds.takesUp (hunique : w.UniqueIds)
    (hthreads : ∀ timer ∈ w.timerList, ∃ phase, (w.timers timer).thread = some phase)
    (event : Event) : w.TakesUp event (w.dispatch event) := by
  cases event with
  | timerStart new =>
      rw [Worker.dispatch, startTimer]
      split
      · exact .starting new rfl
      · rename_i timer hfind
        obtain ⟨hmem, hid⟩ := of_getTimer hfind
        rw [stop_of_thread (hthreads timer hmem)]
        exact .stopping timer (.replace new) w.invoked ⟨hmem, hid.symm⟩ rfl
          fun other _ hevent => by cases hevent
  | timerStop id =>
      rw [Worker.dispatch, stopTimer]
      split
      · exact .ignored rfl fun timer _ hevent => by cases hevent
      · rename_i timer hfind
        obtain ⟨hmem, hid⟩ := of_getTimer hfind
        rw [stop_of_thread (hthreads timer hmem)]
        exact .stopping timer (.remove id) w.invoked ⟨hmem, hid.symm⟩ rfl
          fun other _ hevent => by cases hevent
  | timerCallback id elapsed =>
      rw [Worker.dispatch, handleCallback]
      cases hfind : w.getTimer id with
      | none =>
          refine .ignored rfl fun timer hmem hevent => ?_
          obtain ⟨hid, -⟩ := Event.timerCallback.inj hevent
          exact getTimer_eq_none.1 hfind timer hmem hid.symm
      | some timer =>
          obtain ⟨hmem, hid⟩ := of_getTimer hfind
          have hothers : ∀ other ∈ w.timerList,
              Event.timerCallback id elapsed = .timerCallback other.id other → other = timer := by
            rintro other hother hevent
            cases hevent
            exact List.inj_on_of_nodup_map hunique hother hmem hid.symm
          dsimp only
          split
          · rw [stop_of_thread (by exact hthreads timer hmem)]
            exact .stopping timer .restart _ ⟨hmem, trivial⟩ rfl hothers
          · have hfind' : ({ w with
                invoked := w.invoked ++ [{ timer := timer, elapsed := elapsed }] } :
                  Worker).getTimer id = some timer := hfind
            rw [stopTimer, hfind']
            dsimp only
            rw [stop_of_thread (by exact hthreads timer hmem)]
            exact .stopping timer (.remove id) _ ⟨hmem, hid.symm⟩ rfl hothers
  | message => exact .ignored rfl fun timer _ hevent => by cases hevent

/-! ## Steps of the worker -/

theorem pending_front (hidle : w.place = .idle) {event : Event} {rest : List Event}
    (hfront : w.queue = event :: rest) :
    w.pending = event.pending.toList ++ rest.filterMap Event.pending := by
  rw [pending, hidle, hfront]
  cases event with
  | timerStart timer => rfl
  | _ => rfl

/-- Another event leaves the queue. -/
theorem GoesOn.tail (h : w.GoesOn timer) {event : Event} {rest : List Event}
    (hfront : w.queue = event :: rest) (hevent : event ≠ .timerCallback timer.id timer) :
    ({ w with queue := rest } : Worker).GoesOn timer := by
  refine ⟨h.1, ?_⟩
  rcases h.2 with hsleeps | hposts | ⟨hexited, hqueued⟩
  · exact Or.inl hsleeps
  · exact Or.inr (Or.inl hposts)
  · rw [hfront] at hqueued
    rcases List.mem_cons.1 hqueued with heq | hrest
    · exact absurd heq.symm hevent
    · exact Or.inr (Or.inr ⟨hexited, hrest⟩)

/-- While the worker is idle no timer is being stopped. -/
theorem Lively.alive_idle (h : w.Lively) (hidle : w.place = .idle) :
    ∀ timer ∈ w.timerList, w.GoesOn timer := by
  intro timer hmem
  refine h.alive timer hmem fun next hplace => ?_
  rw [hidle] at hplace
  cases hplace

/-- An event leaves the queue, and no timer is stopped for it. -/
theorem Lively.take (h : w.Lively) (hidle : w.place = .idle) {event : Event}
    {rest : List Event} (hfront : w.queue = event :: rest) {place : Place}
    (hplace : ∀ timer next, place ≠ .joining timer next)
    (hpending : place.pending = event.pending.toList)
    (hothers : ∀ timer ∈ w.timerList, event ≠ .timerCallback timer.id timer) :
    ({ w with queue := rest, place := place } : Worker).Lively := by
  have hsame : ({ w with queue := rest, place := place } : Worker).pending = w.pending := by
    rw [pending_front hidle hfront, ← hpending]
    rfl
  exact {
    unique := h.unique
    nodup := hsame ▸ h.nodup
    constructed := hsame ▸ h.constructed
    fresh := hsame ▸ h.fresh
    alive := fun timer hmem _ =>
      GoesOn.tail (h.alive_idle hidle timer hmem) hfront (hothers timer hmem)
    ending := fun timer next heq => absurd heq (hplace timer next) }

/-- A timer that went on ends once `Stop` has been called. -/
theorem GoesOn.ending (h : w.GoesOn timer) {w' : Worker}
    (hstopped : w'.timers timer = (w.timers timer).stop) : w'.Ending timer := by
  rw [Ending, hstopped]
  refine ⟨rfl, ?_⟩
  rcases h.2 with ⟨hsleeps, -⟩ | hposts | ⟨hexited, -⟩
  · exact Or.inl ⟨hsleeps, rfl⟩
  · exact Or.inr (Or.inl hposts)
  · exact Or.inr (Or.inr hexited)

/-- An event leaves the queue, and a timer is stopped for it. -/
theorem Lively.beginStop (h : w.Lively) (hidle : w.place = .idle) {event : Event}
    {rest : List Event} (hfront : w.queue = event :: rest) {next : AfterStop}
    (invoked : List Invocation) (hstops : w.Stops timer next)
    (hpending : event.pending.toList = (Place.joining timer next).pending)
    (hothers : ∀ other ∈ w.timerList, event = .timerCallback other.id other → other = timer) :
    ({ w.setTimer timer (w.timers timer).stop with
      queue := rest, place := .joining timer next, invoked := invoked } : Worker).Lively := by
  have hgoesOn := h.alive_idle hidle
  have hsame : ({ w.setTimer timer (w.timers timer).stop with
      queue := rest, place := .joining timer next, invoked := invoked } : Worker).pending =
        w.pending := by
    rw [pending_front hidle hfront, hpending]
    rfl
  refine ⟨h.unique, hsame ▸ h.nodup, hsame ▸ h.constructed, ?_, ?_, ?_⟩
  · rw [hsame]
    exact fun other hother => h.fresh_setTimer (hgoesOn timer hstops.1).thread _ hother
  · intro other hmem hjoining
    have hne : other ≠ timer := fun heq => hjoining next (by rw [heq])
    have hother := (hgoesOn other hmem).tail hfront fun hevent => hne (hothers other hmem hevent)
    exact hother.setTimer_of_ne hne _
  · intro other next' hplace
    cases hplace
    exact ⟨hstops, (hgoesOn timer hstops.1).ending (timers_setTimer_self w timer _)⟩

theorem Lively.dispatch (h : w.Lively) (hidle : w.place = .idle) {event : Event}
    {rest : List Event} (hfront : w.queue = event :: rest) :
    (({ w with queue := rest } : Worker).dispatch event).Lively := by
  have htakesUp : ({ w with queue := rest } : Worker).TakesUp event
      (({ w with queue := rest } : Worker).dispatch event) :=
    UniqueIds.takesUp (w := { w with queue := rest }) h.unique (fun timer hmem => h.thread hmem)
      event
  generalize ({ w with queue := rest } : Worker).dispatch event = w' at htakesUp ⊢
  cases htakesUp with
  | ignored nothing others =>
      have hsame : ({ w with queue := rest } : Worker) =
          { w with queue := rest, place := .idle } := by
        rw [← hidle]
      rw [hsame]
      exact h.take hidle hfront nofun (by rw [nothing]; rfl) others
  | starting new start =>
      subst start
      exact h.take hidle hfront nofun rfl (fun _ _ => nofun)
  | stopping timer next invoked stops moved others =>
      exact h.beginStop hidle hfront invoked stops moved others

/-- A stopped timer leaves the list. -/
theorem Lively.removed (h : w.Lively) {next : AfterStop}
    (hjoining : w.place = .joining timer next) (place : Place)
    (hplace : ∀ other next, place ≠ .joining other next)
    (hpending : place.pending = (Place.joining timer next).pending) (state : TimerState) :
    ({ (w.setTimer timer state).removeTimer timer.id with place := place } : Worker).Lively := by
  obtain ⟨hstops, hending⟩ := h.ending timer next hjoining
  have hsame : ({ (w.setTimer timer state).removeTimer timer.id with place := place } :
      Worker).pending = w.pending := by
    rw [pending, pending, hjoining, hpending]
    rfl
  refine ⟨h.unique.removeTimer timer.id, hsame ▸ h.nodup, hsame ▸ h.constructed, ?_, ?_, ?_⟩
  · rw [hsame]
    exact fun other hother => h.fresh_setTimer hending.thread state hother
  · intro other hmem _
    obtain ⟨hlisted, hne⟩ := (h.unique.mem_removeTimer hstops.1 other).1 hmem
    have hother : w.GoesOn other := by
      refine h.alive other hlisted fun next' hplace' => hne ?_
      rw [hjoining] at hplace'
      cases hplace'
      rfl
    exact hother.setTimer_of_ne hne state
  · exact fun other next' heq => absurd heq (hplace other next')

/-- A cyclic timer sleeps again. -/
theorem Lively.restarted (h : w.Lively) (hjoining : w.place = .joining timer .restart)
    {state : TimerState} (hrunning : state.isRunning = false) (hthread : state.thread = none) :
    ({ w.setTimer timer state.start with place := .idle } : Worker).Lively := by
  obtain ⟨hstops, hending⟩ := h.ending timer .restart hjoining
  have hsame : ({ w.setTimer timer state.start with place := .idle } : Worker).pending =
      w.pending := by
    rw [pending, pending, hjoining]
    rfl
  refine ⟨h.unique, hsame ▸ h.nodup, hsame ▸ h.constructed, ?_, ?_, nofun⟩
  · rw [hsame]
    exact fun other hother => h.fresh_setTimer hending.thread _ hother
  · intro other hmem _
    by_cases hne : other = timer
    · subst hne
      exact goesOn_setTimer_start hrunning hthread
    · have hother : w.GoesOn other := by
        refine h.alive other hmem fun next' hplace' => hne ?_
        rw [hjoining] at hplace'
        cases hplace'
        rfl
      exact hother.setTimer_of_ne hne _

theorem Lively.join (h : w.Lively) {next : AfterStop}
    (hjoining : w.place = .joining timer next) :
    ((w.setTimer timer { w.timers timer with thread := none }).afterStop timer next).Lively := by
  obtain ⟨⟨-, hfor⟩, hending⟩ := h.ending timer next hjoining
  cases next with
  | remove id =>
      rw [afterStop, show id = timer.id from hfor]
      exact h.removed hjoining .idle (fun other next hplace => by cases hplace) rfl _
  | replace new =>
      rw [afterStop, show new.id = timer.id from hfor]
      exact h.removed hjoining (.starting new) (fun other next hplace => by cases hplace) rfl _
  | restart =>
      have htwice : (w.setTimer timer { w.timers timer with thread := none }).afterStop timer
          .restart = { w.setTimer timer
            (TimerState.start { w.timers timer with thread := none }) with place := .idle } := by
        rw [afterStop, timers_setTimer_self, Worker.setTimer, Worker.setTimer]
        simp only [Function.update_idem]
        rfl
      rw [htwice]
      exact h.restarted hjoining hending.1 rfl

theorem addTimer_eq (w : Worker) (new : Timer) :
    ∃ listed, w.addTimer new = { w with timerList := listed } ∧
      ∀ timer ∈ listed, timer ∈ w.timerList ∨ timer = new := by
  rw [addTimer]
  split
  · refine ⟨w.timerList ++ [new], rfl, fun timer hmem => ?_⟩
    exact (List.mem_append.1 hmem).imp id List.mem_singleton.1
  · exact ⟨w.timerList, rfl, fun _ => Or.inl⟩

/-- The timer is started, whether or not `AddTimer` took it. -/
theorem Lively.addAndStart (h : w.Lively) {new : Timer} (hstarting : w.place = .starting new) :
    (w.addAndStart new).Lively := by
  have hpending : w.pending = new :: w.queue.filterMap Event.pending := by
    rw [pending, hstarting]
    rfl
  have hnodup := h.nodup
  rw [hpending] at hnodup
  obtain ⟨hnew, hrest⟩ := List.nodup_cons.1 hnodup
  have hunstarted : w.timers new = {} :=
    h.fresh new (Or.inl (by rw [hpending]; exact List.mem_cons_self))
  have hunique := h.unique.addTimer new
  obtain ⟨listed, hadded, hlisted⟩ := w.addTimer_eq new
  rw [hadded] at hunique
  rw [Worker.addAndStart, hadded]
  show ({ ({ w with timerList := listed } : Worker).setTimer new (w.timers new).start with
    place := .idle } : Worker).Lively
  rw [hunstarted]
  have hmem {timer : Timer} (hmem : timer ∈ w.queue.filterMap Event.pending) :
      timer ∈ w.pending := by
    rw [hpending]
    exact List.mem_cons_of_mem new hmem
  refine ⟨hunique, hrest, fun timer hqueued => h.constructed timer (hmem hqueued), ?_, ?_,
    fun other next hplace => by cases hplace⟩
  · intro timer hother
    have hne : timer ≠ new := by
      rintro rfl
      refine hother.elim hnew fun hle => absurd hle (Nat.not_le.2 (h.constructed timer ?_))
      rw [hpending]
      exact List.mem_cons_self
    refine (timers_setTimer_of_ne hne _).trans (h.fresh timer (hother.imp_left hmem))
  · intro timer hin _
    by_cases hne : timer = new
    · subst hne
      exact goesOn_setTimer_start rfl rfl
    · have hother : w.GoesOn timer := by
        refine h.alive timer ((hlisted timer hin).resolve_right hne) fun next hplace => ?_
        rw [hstarting] at hplace
        cases hplace
      exact hother.setTimer_of_ne hne _

theorem Lively.step {w' : Worker} (h : w.Lively) (hstep : Step w w') : w'.Lively := by
  cases hstep with
  | startTimerEntry id cyclic => exact h.startTimerEntry id cyclic
  | stopTimerEntry id => exact h.sendEvent rfl
  | sendMessage => exact h.sendEvent rfl
  | expire timer sleeps _ => exact h.expire sleeps
  | abort timer sleeps unlocked => exact h.abort sleeps unlocked
  | post timer posts => exact h.post posts
  | dispatch event rest idle front => exact h.dispatch idle front
  | join timer next place _ => exact h.join place
  | start new place => exact h.addAndStart place

end

theorem lively_initial : ({} : Worker).Lively where
  unique := List.nodup_nil
  nodup := List.nodup_nil
  constructed _ hmem := absurd hmem List.not_mem_nil
  fresh _ _ := rfl
  alive _ hmem := absurd hmem List.not_mem_nil
  ending _ _ hplace := by cases hplace

theorem lively_of_run {w : Worker} (hrun : Relation.ReflTransGen Step {} w) : w.Lively :=
  Transition.invariant_of_run (I := Lively) Lively.step lively_initial hrun

/-- **No listed timer is forgotten.** -/
theorem goesOn_of_mem {w : Worker} (hrun : Relation.ReflTransGen Step {} w) {timer : Timer}
    (hmem : timer ∈ w.timerList) (hjoining : ∀ next, w.place ≠ .joining timer next) :
    w.GoesOn timer :=
  (lively_of_run hrun).alive timer hmem hjoining

/-- The thread of timer 0 has exited, and its event is in the queue. -/
theorem goesOn_posted : (posted armed).GoesOn (oneShot 0) := by
  have harmed : Relation.ReflTransGen Step {} armed :=
    Relation.ReflTransGen.mono (fun _ _ h => h.2) _ _ armed_reached
  refine goesOn_of_mem (harmed.trans ?_) (List.mem_singleton_self _) nofun
  refine .head (Step.expire (oneShot 0) rfl rfl) ?_
  exact .single (Step.post (oneShot 0) rfl)

/-! ## Coming to rest -/

/-- A step of the worker, or of the thread that it waits for. -/
inductive OwnStep : Worker → Worker → Prop
  | dispatch {w : Worker} (event : Event) (rest : List Event) (idle : w.place = .idle)
      (front : w.queue = event :: rest) : OwnStep w ({ w with queue := rest }.dispatch event)
  | join {w : Worker} (timer : Timer) (next : AfterStop)
      (place : w.place = .joining timer next)
      (exited : (w.timers timer).thread = some .exited) :
      OwnStep w ((w.setTimer timer { w.timers timer with thread := none }).afterStop timer next)
  | start {w : Worker} (new : Timer) (place : w.place = .starting new) :
      OwnStep w (w.addAndStart new)
  | abort {w : Worker} (timer : Timer) (next : AfterStop)
      (place : w.place = .joining timer next)
      (sleeps : (w.timers timer).thread = some .sleeping)
      (unlocked : (w.timers timer).abortLocked = false) :
      OwnStep w (w.setTimer timer
        { w.timers timer with thread := some .exited, abortLocked := true })
  | post {w : Worker} (timer : Timer) (next : AfterStop)
      (place : w.place = .joining timer next)
      (posts : (w.timers timer).thread = some .posting) :
      OwnStep w ((w.setPhase timer .exited).sendEvent (.timerCallback timer.id timer))

theorem OwnStep.step {w w' : Worker} (h : OwnStep w w') : Step w w' := by
  cases h with
  | dispatch event rest idle front => exact .dispatch event rest idle front
  | join timer next place exited => exact .join timer next place exited
  | start new place => exact .start new place
  | abort timer _ _ sleeps unlocked => exact .abort timer sleeps unlocked
  | post timer _ _ posts => exact .post timer posts

/-- The thread is about to post its event. -/
def posts (state : TimerState) : Bool :=
  match state.thread with
  | some .posting => true
  | _ => false

/-- How many timers of the list are about to post their event. -/
def postings (w : Worker) : ℕ :=
  w.timerList.countP fun timer => posts (w.timers timer)

/-- How many steps are left of the event in progress. -/
def left (w : Worker) : ℕ :=
  match w.place with
  | .idle => 0
  | .starting _ => 1
  | .joining timer _ =>
      match (w.timers timer).thread with
      | some .exited => 2
      | _ => 3

/-- An event, in the queue or about to be posted, takes four steps: the worker takes it up, the
thread that it stops exits, it is joined, and another timer is started. -/
def effort (w : Worker) : ℕ :=
  4 * (w.queue.length + w.postings) + w.left

theorem left_le (w : Worker) : w.left ≤ 3 := by
  rw [left]
  split
  · omega
  · omega
  · split
    · omega
    · omega

theorem left_idle {w : Worker} (hidle : w.place = .idle) : w.left = 0 := by
  rw [left, hidle]

theorem left_starting {w : Worker} {new : Timer} (hplace : w.place = .starting new) :
    w.left = 1 := by
  rw [left, hplace]

theorem left_exited {w : Worker} {timer : Timer} {next : AfterStop}
    (hplace : w.place = .joining timer next)
    (hexited : (w.timers timer).thread = some .exited) : w.left = 2 := by
  rw [left, hplace]
  simp only [hexited]

theorem left_running {w : Worker} {timer : Timer} {next : AfterStop}
    (hplace : w.place = .joining timer next)
    (hrunning : (w.timers timer).thread ≠ some .exited) : w.left = 3 := by
  rw [left, hplace]
  dsimp only
  split
  · rename_i hexited
    exact absurd hexited hrunning
  · rfl

section

variable {w : Worker} {timer : Timer}

theorem posts_setTimer {state : TimerState}
    (hstate : posts state = true → posts (w.timers timer) = true) (other : Timer)
    (hother : posts ((w.setTimer timer state).timers other) = true) :
    posts (w.timers other) = true := by
  by_cases hne : other = timer
  · subst hne
    rw [timers_setTimer_self] at hother
    exact hstate hother
  · rw [timers_setTimer_of_ne hne] at hother
    exact hother

theorem postings_setTimer_le {state : TimerState}
    (hstate : posts state = true → posts (w.timers timer) = true) :
    (w.setTimer timer state).postings ≤ w.postings :=
  List.countP_mono_left fun other _ => posts_setTimer hstate other

/-- A thread of the list that posted its event is no longer about to. -/
theorem postings_setTimer_lt {state : TimerState} (hmem : timer ∈ w.timerList)
    (hposts : posts (w.timers timer) = true) (hstate : posts state = false) :
    (w.setTimer timer state).postings < w.postings := by
  have hmono (timers : List Timer) :
      timers.countP (fun other => posts ((w.setTimer timer state).timers other)) ≤
        timers.countP fun other => posts (w.timers other) := by
    refine List.countP_mono_left fun other _ => posts_setTimer (fun h => ?_) other
    rw [hstate] at h
    cases h
  obtain ⟨before, behind, hsplit⟩ := List.append_of_mem hmem
  have hbefore := hmono before
  have hbehind := hmono behind
  show w.timerList.countP (fun other => posts ((w.setTimer timer state).timers other)) <
    w.timerList.countP fun other => posts (w.timers other)
  rw [hsplit, List.countP_append, List.countP_append, List.countP_cons, List.countP_cons,
    timers_setTimer_self, hposts, hstate]
  simp only [Bool.false_eq_true, if_false, if_true]
  omega

/-! ## Every own step loses effort -/

theorem effort_lt {w' : Worker} (hqueue : w'.queue.length = w.queue.length)
    (hpostings : w'.postings ≤ w.postings) (hleft : w'.left < w.left) :
    w'.effort < w.effort := by
  rw [effort, effort]
  omega

theorem effort_lt_dispatch {w' : Worker} {event : Event} {rest : List Event}
    (hfront : w.queue = event :: rest) (hqueue : w'.queue = rest)
    (hpostings : w'.postings ≤ w.postings) : w'.effort < w.effort := by
  have hleft := w'.left_le
  rw [effort, effort, hfront, hqueue, List.length_cons]
  omega

theorem Lively.effort_dispatch (h : w.Lively) {event : Event} {rest : List Event}
    (hfront : w.queue = event :: rest) :
    (({ w with queue := rest } : Worker).dispatch event).effort < w.effort := by
  have htakesUp : ({ w with queue := rest } : Worker).TakesUp event
      (({ w with queue := rest } : Worker).dispatch event) :=
    UniqueIds.takesUp (w := { w with queue := rest }) h.unique (fun timer hmem => h.thread hmem)
      event
  generalize ({ w with queue := rest } : Worker).dispatch event = w' at htakesUp ⊢
  cases htakesUp with
  | ignored nothing others => exact effort_lt_dispatch hfront rfl (le_refl _)
  | starting new start => exact effort_lt_dispatch hfront rfl (le_refl _)
  | stopping timer next invoked stops moved others =>
      refine effort_lt_dispatch hfront rfl ?_
      show (w.setTimer timer (w.timers timer).stop).postings ≤ w.postings
      exact postings_setTimer_le id

/-- A timer that is stopped leaves the list, or is started again. -/
theorem effort_join {next : AfterStop} (hjoining : w.place = .joining timer next)
    (hexited : (w.timers timer).thread = some .exited) :
    ((w.setTimer timer { w.timers timer with thread := none }).afterStop timer next).effort <
      w.effort := by
  have hleft := left_exited hjoining hexited
  have hgone : (w.setTimer timer { w.timers timer with thread := none }).postings ≤
      w.postings := postings_setTimer_le nofun
  have hremoved (id : ℕ) : (w.timerList.eraseP fun timer => timer.id = id).countP
      (fun other => posts ((w.setTimer timer
        { w.timers timer with thread := none }).timers other)) ≤ w.postings :=
    le_trans List.eraseP_sublist.countP_le hgone
  cases next with
  | remove id =>
      refine effort_lt rfl (hremoved id) ?_
      rw [hleft, left_idle rfl]
      omega
  | replace new =>
      refine effort_lt rfl (hremoved new.id) ?_
      rw [hleft, left_starting rfl]
      omega
  | restart =>
      refine effort_lt rfl (le_trans (postings_setTimer_le fun hposts => ?_) hgone) ?_
      · rw [timers_setTimer_self, TimerState.start] at hposts
        split at hposts
        · cases hposts
        · cases hposts
      · rw [hleft, left_idle rfl]
        omega

theorem Lively.effort_start (h : w.Lively) {new : Timer} (hstarting : w.place = .starting new) :
    (w.addAndStart new).effort < w.effort := by
  have hunstarted : w.timers new = {} := by
    refine h.fresh new (Or.inl ?_)
    rw [pending, hstarting]
    exact List.mem_cons_self
  have hlist : (w.addTimer new).postings ≤ w.postings := by
    rw [addTimer]
    split
    · show (w.timerList ++ [new]).countP (fun timer => posts (w.timers timer)) ≤ w.postings
      rw [List.countP_append, List.countP_singleton, hunstarted]
      exact le_refl _
    · exact le_refl _
  obtain ⟨listed, hadded, -⟩ := w.addTimer_eq new
  rw [Worker.addAndStart]
  rw [hadded] at hlist ⊢
  refine effort_lt rfl (le_trans (postings_setTimer_le fun hposts => ?_) hlist) ?_
  · rw [show ({ w with timerList := listed } : Worker).timers new = {} from hunstarted] at hposts
    cases hposts
  · rw [left_starting hstarting, left_idle rfl]
    omega

theorem Lively.effort_post (h : w.Lively) {next : AfterStop}
    (hjoining : w.place = .joining timer next)
    (hposts : (w.timers timer).thread = some .posting) :
    ((w.setPhase timer .exited).sendEvent (.timerCallback timer.id timer)).effort <
      w.effort := by
  have hmem := (h.ending timer next hjoining).1.1
  have hpostings : (w.setPhase timer .exited).postings < w.postings := by
    refine postings_setTimer_lt hmem ?_ rfl
    rw [posts, hposts]
  have hbefore := left_running hjoining (by rw [hposts]; nofun)
  have hbehind : ((w.setPhase timer .exited).sendEvent
      (.timerCallback timer.id timer)).left = 2 := by
    refine left_exited (by exact hjoining) ?_
    show ((w.setPhase timer .exited).timers timer).thread = some .exited
    rw [setPhase, timers_setTimer_self]
  rw [effort, effort, hbefore, hbehind]
  show 4 * ((w.queue ++ [Event.timerCallback timer.id timer]).length +
    (w.setPhase timer .exited).postings) + 2 < 4 * (w.queue.length + w.postings) + 3
  rw [List.length_append, List.length_singleton]
  omega

theorem Lively.effort_step (h : w.Lively) {w' : Worker} (hstep : OwnStep w w') :
    w'.effort < w.effort := by
  cases hstep with
  | dispatch event rest idle front => exact h.effort_dispatch front
  | join timer next place exited => exact effort_join place exited
  | start new place => exact h.effort_start place
  | abort timer next place sleeps unlocked =>
      refine effort_lt rfl (postings_setTimer_le nofun) ?_
      rw [left_running place (by rw [sleeps]; nofun),
        left_exited (by exact place) (by rw [timers_setTimer_self])]
      omega
  | post timer next place posts => exact h.effort_post place posts

/-- Where no own step is possible the worker is idle: what it waits for can go on. -/
theorem Lively.idle_of_stuck (h : w.Lively) (hstuck : ∀ w', ¬OwnStep w w') :
    w.place = .idle := by
  cases hplace : w.place with
  | idle => rfl
  | starting new => exact absurd (OwnStep.start new hplace) (hstuck _)
  | joining timer next =>
      rcases (h.ending timer next hplace).2.2 with ⟨hsleeps, hunlocked⟩ | hposts | hexited
      · exact absurd (OwnStep.abort timer next hplace hsleeps hunlocked) (hstuck _)
      · exact absurd (OwnStep.post timer next hplace hposts) (hstuck _)
      · exact absurd (OwnStep.join timer next hplace hexited) (hstuck _)

theorem nil_of_stuck (hidle : w.place = .idle) (hstuck : ∀ w', ¬OwnStep w w') :
    w.queue = [] := by
  cases hqueue : w.queue with
  | nil => rfl
  | cons event rest => exact absurd (OwnStep.dispatch event rest hidle hqueue) (hstuck _)

end

/-- The timer runs, and its thread will post its event. -/
def Waiting (w : Worker) (timer : Timer) : Prop :=
  (w.timers timer).isRunning = true ∧
    ((w.timers timer).thread = some .sleeping ∧ (w.timers timer).abortLocked = true ∨
      (w.timers timer).thread = some .posting)

/-- The worker is idle with nothing to do, and its timers wait. -/
structure AtRest (w : Worker) : Prop where
  idle : w.place = .idle
  queue : w.queue = []
  waiting : ∀ timer ∈ w.timerList, w.Waiting timer

/-- **The worker comes to rest**: after a step of a client or an expiry it takes so many steps
by itself at most, and where it can take none it has taken up every event. -/
theorem comes_to_rest {w w' : Worker} {n : ℕ} (hrun : Relation.ReflTransGen Step {} w)
    (h : Transition.Steps OwnStep n w w') :
    n + w'.effort ≤ w.effort ∧ ((∀ w'', ¬OwnStep w' w'') → w'.AtRest) := by
  obtain ⟨hlively, hle⟩ := h.add_le (I := Lively) effort
    (fun hI hstep => ⟨hI.step hstep.step, hI.effort_step hstep⟩) (lively_of_run hrun)
  refine ⟨hle, fun hstuck => ?_⟩
  have hidle := hlively.idle_of_stuck hstuck
  have hqueue := nil_of_stuck hidle hstuck
  refine ⟨hidle, hqueue, fun timer hmem => ?_⟩
  obtain ⟨hrunning, hsleeps | hposts | ⟨-, hqueued⟩⟩ := hlively.alive_idle hidle timer hmem
  · exact ⟨hrunning, Or.inl hsleeps⟩
  · exact ⟨hrunning, Or.inr hposts⟩
  · rw [hqueue] at hqueued
    cases hqueued

theorem stuck_stoppedAsleep (w : Worker) : ¬OwnStep stoppedAsleep w := by
  intro h
  cases h with
  | dispatch event rest _ front => exact absurd (show [] = event :: rest from front) nofun
  | join timer next place _ => exact absurd (show .idle = Place.joining timer next from place) nofun
  | start new place => exact absurd (show .idle = Place.starting new from place) nofun
  | abort timer next place _ _ =>
      exact absurd (show .idle = Place.joining timer next from place) nofun
  | post timer next place _ => exact absurd (show .idle = Place.joining timer next from place) nofun

/-- A client stops timer 0, which sleeps: three steps later the worker is at rest. -/
theorem stoppedAsleep_atRest :
    3 + stoppedAsleep.effort ≤ (armed.stopTimerEntry 1).effort ∧ stoppedAsleep.AtRest := by
  have harmed : Relation.ReflTransGen Step {} armed :=
    Relation.ReflTransGen.mono (fun _ _ h => h.2) _ _ armed_reached
  have hdispatch : OwnStep (armed.stopTimerEntry 1) joiningAsleep :=
    .dispatch (.timerStop 1) [] rfl rfl
  have habort : OwnStep joiningAsleep joinedAsleep :=
    .abort (oneShot 0) (.remove 1) rfl rfl rfl
  have hjoin : OwnStep joinedAsleep stoppedAsleep := .join (oneShot 0) (.remove 1) rfl rfl
  obtain ⟨hle, hrest⟩ := comes_to_rest (harmed.tail (.stopTimerEntry 1))
    ((((Transition.Steps.refl _).tail hdispatch).tail habort).tail hjoin)
  exact ⟨hle, hrest stuck_stoppedAsleep⟩

end Worker

end NewCPP.TimerFramework
