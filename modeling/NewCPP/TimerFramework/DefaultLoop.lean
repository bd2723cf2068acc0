import NewCPP.TimerFramework.WorkerThread

/-!
# The default event dispatcher

`Loop` of a worker that does not override it: the thread sleeps on `_Cv` while the queue is
empty, and `SendEvent` pushes and notifies.  `RequestStop` sets the flag only, and the
thread reads it between two events only.

* `stop_hangs_iff_idle` — `StopWithJoin` waits for a thread that can go on in every state of
  every run in which no stop is requested while the thread waits for an event; requested
  there it waits for a thread that cannot, spurious wake-ups included.
* `detached_dispatches_on` — a thread that `Stop` let go takes an event off the queue next
  to the thread of a later `Start`.

## Design notes

**The mutex.**  `_Mutex` is held from the test of the queue to the pop or to the wait,
which releases it, and for the push of `SendEvent`; each of these is one step.

**The condition variable.**  `waiting` are the threads in `_Cv.wait`.  `notify_one` takes
one out, if there is one.  A thread that is still in may wake up for no reason.

**`SendEvent`.**  A call reads `_Thread`, pushes and notifies in three steps, between which
anything may happen.
-/

namespace NewCPP.WorkerThread

open Library

universe u

variable {E : Type u}

/-- What the dispatcher and its clients share. -/
structure Events (E : Type u) where
  queue : List E := []
  waiting : List ℕ := []
  /-- The events of `SendEvent` calls that have found a thread. -/
  sending : List E := []
  /-- The `SendEvent` calls that have pushed and not yet notified. -/
  notifying : ℕ := 0

/-- Where a thread is in `DefaultEventDispatcher`. -/
inductive Position (E : Type u) where
  | check
  /-- Before the test of the queue, with or without the lock. -/
  | look
  | asleep
  | dispatching (event : E)

/-- A step of `DefaultEventDispatcher`, with or without spurious wake-ups. -/
inductive DispatcherStep (spurious : Bool) : Bool → ℕ → Events E → Position E → Events E →
    Option (Position E) → Prop
  | returns {thread : ℕ} {events : Events E} :
      DispatcherStep spurious true thread events .check events none
  | goes {thread : ℕ} {events : Events E} :
      DispatcherStep spurious false thread events .check events (some .look)
  | sleeps {stop : Bool} {thread : ℕ} {events : Events E} (empty : events.queue = []) :
      DispatcherStep spurious stop thread events .look
        { events with waiting := thread :: events.waiting } (some .asleep)
  | takes {stop : Bool} {thread : ℕ} {events : Events E} (event : E) (rest : List E)
      (front : events.queue = event :: rest) :
      DispatcherStep spurious stop thread events .look { events with queue := rest }
        (some (.dispatching event))
  | awakes {stop : Bool} {thread : ℕ} {events : Events E} (notified : thread ∉ events.waiting) :
      DispatcherStep spurious stop thread events .asleep events (some .look)
  | wakes {stop : Bool} {thread : ℕ} {events : Events E} (may : spurious = true) :
      DispatcherStep spurious stop thread events .asleep
        { events with waiting := events.waiting.erase thread } (some .look)
  | dispatched {stop : Bool} {thread : ℕ} {events : Events E} (event : E) :
      DispatcherStep spurious stop thread events (.dispatching event) events (some .check)

/-- The end of a `SendEvent`. -/
inductive Notify : Events E → Events E → Prop
  | nobody {events : Events E} (left : ℕ) (notifies : events.notifying = left + 1)
      (empty : events.waiting = []) : Notify events { events with notifying := left }
  | one {events : Events E} (left thread : ℕ) (notifies : events.notifying = left + 1)
      (waits : thread ∈ events.waiting) :
      Notify events { events with
        notifying := left, waiting := events.waiting.erase thread }

/-- A step of a `SendEvent`. -/
inductive SendEvent (thread : Option ℕ) : Events E → Events E → Prop
  | send {events : Events E} (event : E) (found : thread.isSome) :
      SendEvent thread events { events with sending := event :: events.sending }
  | push {events : Events E} (before after : List E) (event : E)
      (sends : events.sending = before ++ event :: after) :
      SendEvent thread events { events with
        sending := before ++ after
        queue := events.queue ++ [event]
        notifying := events.notifying + 1 }
  | notify {events events' : Events E} (notifies : Notify events events') :
      SendEvent thread events events'

/-- `Loop` as `Worker` has it. -/
def defaultEventDispatcher (E : Type u) : LoopImpl (Events E) (Position E) where
  enter := .check
  step := DispatcherStep true
  client := SendEvent

namespace Worker

/-- A worker with the default loop. -/
abbrev Default (E : Type u) := Worker (Events E) (Position E)

/-! ## Progress -/

/-- A step of one thread, or the notification that a `SendEvent` still owes. -/
inductive Own (spurious : Bool) (thread : ℕ) : Default E → Default E → Prop
  | exit {w : Default E} (checks : w.threads[thread]? = some .check)
      (stop : w.stopRequested = true) : Own spurious thread w (w.goTo thread .exited)
  | enter {w : Default E} (checks : w.threads[thread]? = some .check)
      (goes : w.stopRequested = false) : Own spurious thread w (w.goTo thread (.loop .check))
  | loop {w : Default E} (position : Position E) (shared : Events E)
      (next : Option (Position E)) (loops : w.threads[thread]? = some (.loop position))
      (steps : DispatcherStep spurious w.stopRequested thread w.shared position shared next) :
      Own spurious thread w
        { w with shared := shared, threads := w.threads.set thread (afterLoop next) }
  | notify {w : Default E} (shared : Events E) (notifies : Notify w.shared shared) :
      Own spurious thread w { w with shared := shared }

/-- The thread is about to dispatch an event, or has left `Run`. -/
def Advanced (w : Default E) (thread : ℕ) : Prop :=
  w.threads[thread]? = some .exited ∨
    ∃ event, w.threads[thread]? = some (.loop (.dispatching event))

/-- **The thread that `StopWithJoin` waits for can go on.** -/
def CanProgress (spurious : Bool) (w : Default E) : Prop :=
  ∃ thread w', w.thread = some thread ∧ Relation.ReflTransGen (Own spurious thread) w w' ∧
    w'.Advanced thread

/-- A thread is past the test of the flag and before the pop. -/
def AtQueue (w : Default E) (thread : ℕ) : Prop :=
  w.threads[thread]? = some (.loop .look) ∨ w.threads[thread]? = some (.loop .asleep)

/-- The thread waits for an event, or is about to. -/
def Idles (w : Default E) : Prop :=
  ∃ thread, w.thread = some thread ∧ w.AtQueue thread ∧ w.shared.queue = []

/-- The steps of `Start`, `StopWithJoin`, `SendEvent` and the thread. -/
def StepWithoutStop (w w' : Default E) : Prop :=
  Step (defaultEventDispatcher E) w w' ∧ w'.owner ≠ .detaching

/-- Such a step that requests no stop of a thread that waits for an event. -/
def TimelyStep (w w' : Default E) : Prop :=
  StepWithoutStop w w' ∧ (w'.owner = .joining → w.owner = .joining ∨ ¬w.Idles)

/-! ## The only thread -/

/-- Without `Stop` there is one thread, and `StopWithJoin` waits for it with the flag set. -/
structure Lone (w : Default E) : Prop where
  detached : w.detached = []
  detaching : w.owner ≠ .detaching
  known : w.Known
  exists_thread : ∀ thread, w.thread = some thread → thread < w.threads.length
  joining : w.owner = .joining → w.stopRequested = true ∧ w.thread.isSome

theorem Lone.eq_of_runs {w : Default E} (h : w.Lone) {thread : ℕ} (hruns : w.Runs thread) :
    w.thread = some thread := by
  rcases h.known thread hruns with hthread | hdetached
  · exact hthread
  · rw [h.detached] at hdetached
    cases hdetached

theorem Lone.step {w w' : Default E} (h : w.Lone) (hstep : StepWithoutStop w w') :
    w'.Lone := by
  obtain ⟨hstep, hstop⟩ := hstep
  have hknown := h.known.step hstep
  cases hstep with
  | start _ => exact ⟨h.detached, hstop, hknown, h.exists_thread, by rintro ⟨⟩⟩
  | create _ =>
      refine ⟨?_, hstop, hknown, ?_, ?_⟩
      · rw [create]
        split <;> exact h.detached
      · intro thread hthread
        rw [create] at hthread ⊢
        split at hthread
        · cases hthread
          show w.threads.length < (w.threads ++ [Place.check]).length
          simp
        · exact h.exists_thread thread hthread
      · intro howner
        rw [create] at howner
        split at howner <;> cases howner
  | stop _ => exact absurd rfl hstop
  | detach hdetaching => exact absurd hdetaching h.detaching
  | stopWithJoin _ hthread =>
      exact ⟨h.detached, hstop, hknown, h.exists_thread, fun _ => ⟨rfl, hthread⟩⟩
  | join _ _ _ _ => exact ⟨h.detached, hstop, hknown, by rintro _ ⟨⟩, by rintro ⟨⟩⟩
  | client _ _ => exact ⟨h.detached, hstop, hknown, h.exists_thread, h.joining⟩
  | _ =>
      refine ⟨h.detached, hstop, hknown, fun thread hthread => ?_, h.joining⟩
      simpa [goTo] using h.exists_thread thread hthread

/-! ## Nobody is forgotten -/

/-- Who waits on `_Cv` sleeps, and a notification is due while there are events. -/
structure Attended (w : Default E) : Prop where
  asleep : ∀ thread ∈ w.shared.waiting, w.threads[thread]? = some (.loop .asleep)
  nodup : w.shared.waiting.Nodup
  notified : w.shared.waiting ≠ [] → w.shared.queue ≠ [] → 0 < w.shared.notifying

/-- A thread that is not asleep may be put anywhere. -/
theorem Attended.set {w w' : Default E} (h : w.Attended) {thread : ℕ}
    {place place' : Place (Position E)} (hplace : w.threads[thread]? = some place)
    (hawake : place ≠ .loop .asleep) (hthreads : w'.threads = w.threads.set thread place')
    (hwaiting : w'.shared.waiting = w.shared.waiting)
    (hnotified : w.shared.waiting ≠ [] → w'.shared.queue ≠ [] → 0 < w'.shared.notifying) :
    w'.Attended := by
  refine ⟨fun sleeper hsleeper => ?_, hwaiting ▸ h.nodup, hwaiting ▸ hnotified⟩
  rw [hwaiting] at hsleeper
  have hasleep := h.asleep sleeper hsleeper
  rw [hthreads, List.getElem?_set_ne, hasleep]
  rintro rfl
  rw [hplace] at hasleep
  exact hawake (Option.some.inj hasleep)

theorem Attended.of_eq {w w' : Default E} (h : w.Attended) (hthreads : w'.threads = w.threads)
    (hshared : w'.shared = w.shared) : w'.Attended := by
  obtain ⟨hasleep, hnodup, hnotified⟩ := h
  rw [← hshared] at hasleep hnodup hnotified
  rw [← hthreads] at hasleep
  exact ⟨hasleep, hnodup, hnotified⟩

/-- A thread of `waiting` is taken out. -/
theorem Attended.erase {w w' : Default E} (h : w.Attended) {thread : ℕ}
    (hthreads : ∀ sleeper, sleeper ≠ thread → w'.threads[sleeper]? = w.threads[sleeper]?)
    (hwaiting : w'.shared.waiting = w.shared.waiting.erase thread)
    (hnotified : w'.shared.waiting ≠ [] → w'.shared.queue ≠ [] → 0 < w'.shared.notifying) :
    w'.Attended := by
  refine ⟨fun sleeper hsleeper => ?_, ?_, hnotified⟩
  · rw [hwaiting, h.nodup.mem_erase_iff] at hsleeper
    rw [hthreads sleeper hsleeper.1]
    exact h.asleep sleeper hsleeper.2
  · rw [hwaiting]
    exact h.nodup.erase thread

theorem Attended.client {w : Default E} (h : w.Attended) (hlone : w.Lone)
    {shared : Events E} (hsteps : SendEvent w.thread w.shared shared) :
    ({ w with shared := shared } : Default E).Attended := by
  cases hsteps with
  | send event _ => exact ⟨h.asleep, h.nodup, h.notified⟩
  | push before after event _ => exact ⟨h.asleep, h.nodup, fun _ _ => Nat.succ_pos _⟩
  | notify hnotifies =>
      cases hnotifies with
      | nobody left _ hempty => exact ⟨h.asleep, h.nodup, fun hwaits => absurd hempty hwaits⟩
      | one left thread _ hwaits =>
          refine h.erase (fun _ _ => rfl) rfl fun hleft => ?_
          -- a second thread that waits would be the same one
          obtain ⟨other, hother⟩ := List.exists_mem_of_ne_nil _ hleft
          obtain ⟨hne, hother⟩ := h.nodup.mem_erase_iff.1 hother
          have hthread := hlone.eq_of_runs (runs_of_place (h.asleep thread hwaits) (by rintro ⟨⟩))
          have hsecond := hlone.eq_of_runs (runs_of_place (h.asleep other hother) (by rintro ⟨⟩))
          exact absurd (Option.some.inj (hsecond.symm.trans hthread)) hne

theorem Attended.loop {w : Default E} (h : w.Attended) {thread : ℕ} {position : Position E}
    (hloops : w.threads[thread]? = some (.loop position)) {shared : Events E}
    {next : Option (Position E)}
    (hsteps : DispatcherStep true w.stopRequested thread w.shared position shared next) :
    ({ w with shared := shared, threads := w.threads.set thread (afterLoop next) } :
      Default E).Attended := by
  generalize w.stopRequested = stop at hsteps
  cases hsteps with
  | returns => exact h.set hloops (by rintro ⟨⟩) rfl rfl h.notified
  | goes => exact h.set hloops (by rintro ⟨⟩) rfl rfl h.notified
  | sleeps hempty =>
      have hfresh : thread ∉ w.shared.waiting := by
        intro hwaits
        rw [h.asleep thread hwaits] at hloops
        cases hloops
      refine ⟨fun sleeper hsleeper => ?_, List.nodup_cons.2 ⟨hfresh, h.nodup⟩, ?_⟩
      · show (w.threads.set thread (.loop .asleep))[sleeper]? = some (.loop .asleep)
        rcases List.mem_cons.1 hsleeper with rfl | hold
        · have hlt := (List.getElem?_eq_some_iff.1 hloops).1
          rw [List.getElem?_set_self hlt]
        · rw [List.getElem?_set_ne, h.asleep sleeper hold]
          rintro rfl
          exact hfresh hold
      · exact fun _ hqueue => absurd hempty hqueue
  | takes event rest hfront =>
      refine h.set hloops (by rintro ⟨⟩) rfl rfl fun hwaits _ => h.notified hwaits ?_
      rw [hfront]
      exact List.cons_ne_nil event rest
  | awakes hnotified =>
      refine ⟨fun sleeper hsleeper => ?_, h.nodup, h.notified⟩
      show (w.threads.set thread (.loop .look))[sleeper]? = some (.loop .asleep)
      rw [List.getElem?_set_ne, h.asleep sleeper hsleeper]
      rintro rfl
      exact hnotified hsleeper
  | wakes _ =>
      refine h.erase (fun sleeper hne => ?_) rfl fun hleft => h.notified ?_
      · exact List.getElem?_set_ne hne.symm
      · exact fun hempty => hleft (by simp [hempty])
  | dispatched event => exact h.set hloops (by rintro ⟨⟩) rfl rfl h.notified

theorem Attended.step {w w' : Default E} (h : w.Attended) (hlone : w.Lone)
    (hstep : Step (defaultEventDispatcher E) w w') : w'.Attended := by
  cases hstep with
  | create _ =>
      rw [create]
      split
      · refine ⟨fun sleeper hsleeper => ?_, h.nodup, h.notified⟩
        have hasleep := h.asleep sleeper hsleeper
        have hlt := (List.getElem?_eq_some_iff.1 hasleep).1
        show (w.threads ++ [Place.check])[sleeper]? = some (.loop .asleep)
        rw [List.getElem?_append_left hlt, hasleep]
      · exact h.of_eq rfl rfl
  | exit thread hchecks _ => exact h.set hchecks (by rintro ⟨⟩) rfl rfl h.notified
  | enter thread hchecks _ => exact h.set hchecks (by rintro ⟨⟩) rfl rfl h.notified
  | loop thread position shared next hloops hsteps => exact h.loop hloops hsteps
  | client shared hsteps => exact h.client hlone hsteps
  | _ => exact h.of_eq rfl rfl

/-! ## While the stop is awaited -/

/-- While `StopWithJoin` waits, its thread waits for no event. -/
def Timely (w : Default E) : Prop :=
  w.owner = .joining → ¬w.Idles

theorem Timely.of_eq {w w' : Default E} (h : w.Timely) (howner : w'.owner = w.owner)
    (hthread : w'.thread = w.thread)
    (hplace : ∀ thread, w.thread = some thread → w'.AtQueue thread → w.AtQueue thread)
    (hqueue : w'.shared.queue = [] → w.shared.queue = []) : w'.Timely := by
  rintro hjoining ⟨thread, hwaits, hplace', hempty⟩
  rw [hthread] at hwaits
  exact h (howner ▸ hjoining) ⟨thread, hwaits, hplace thread hwaits hplace', hqueue hempty⟩

theorem place_of_atQueue {w : Default E} {thread : ℕ} {place : Place (Position E)}
    (hplace : w.threads[thread]? = some place) (hqueue : w.AtQueue thread) :
    place = .loop .look ∨ place = .loop .asleep := by
  rcases hqueue with hlook | hasleep
  · exact Or.inl (Option.some.inj (hplace.symm.trans hlook))
  · exact Or.inr (Option.some.inj (hplace.symm.trans hasleep))

theorem Timely.loop {w : Default E} (h : w.Timely) (hlone : w.Lone) {thread : ℕ}
    {position : Position E} (hloops : w.threads[thread]? = some (.loop position))
    {shared : Events E} {next : Option (Position E)}
    (hsteps : DispatcherStep true w.stopRequested thread w.shared position shared next) :
    ({ w with shared := shared, threads := w.threads.set thread (afterLoop next) } :
      Default E).Timely := by
  have hthread : w.thread = some thread :=
    hlone.eq_of_runs (runs_of_place hloops (by rintro ⟨⟩))
  rintro hjoining ⟨other, hwaits, hqueue, hempty⟩
  obtain rfl : thread = other := Option.some.inj (hthread.symm.trans hwaits)
  have hbusy := h hjoining
  have hflag := (hlone.joining hjoining).1
  have hlt := (List.getElem?_eq_some_iff.1 hloops).1
  have hplace := place_of_atQueue (List.getElem?_set_self hlt) hqueue
  rw [hflag] at hsteps
  cases hsteps with
  | returns => rcases hplace with h | h <;> cases h
  | sleeps hnothing => exact hbusy ⟨thread, hthread, Or.inl hloops, hnothing⟩
  | takes event rest _ => rcases hplace with h | h <;> cases h
  | awakes _ => exact hbusy ⟨thread, hthread, Or.inr hloops, hempty⟩
  | wakes _ => exact hbusy ⟨thread, hthread, Or.inr hloops, hempty⟩
  | dispatched event => rcases hplace with h | h <;> cases h

theorem Timely.client {w : Default E} (h : w.Timely) {shared : Events E}
    (hsteps : SendEvent w.thread w.shared shared) :
    ({ w with shared := shared } : Default E).Timely := by
  refine h.of_eq rfl rfl (fun _ _ hqueue => hqueue) fun hempty => ?_
  cases hsteps with
  | send event _ => exact hempty
  | push before after event _ => simp at hempty
  | notify hnotifies => cases hnotifies <;> exact hempty

theorem Timely.step {w w' : Default E} (h : w.Timely) (hlone : w.Lone)
    (hstep : TimelyStep w w') : w'.Timely := by
  obtain ⟨⟨hstep, _⟩, hrequest⟩ := hstep
  -- where the owner is not in the join the invariant says nothing
  cases hstep with
  | start _ => rintro ⟨⟩
  | create _ =>
      rw [create]
      split <;> rintro ⟨⟩
  | stop _ => rintro ⟨⟩
  | detach _ => rintro ⟨⟩
  | stopWithJoin hidle _ =>
      rcases hrequest rfl with hjoining | hbusy
      · rw [hidle] at hjoining
        cases hjoining
      · exact fun _ => hbusy
  | join _ _ _ _ => rintro ⟨⟩
  | exit thread hchecks _ =>
      rintro hjoining ⟨other, hwaits, hqueue, _⟩
      have hthread := hlone.eq_of_runs (runs_of_place hchecks (by rintro ⟨⟩))
      obtain rfl : thread = other := Option.some.inj (hthread.symm.trans hwaits)
      have hlt := (List.getElem?_eq_some_iff.1 hchecks).1
      rcases place_of_atQueue (List.getElem?_set_self hlt) hqueue with h | h <;> cases h
  | enter thread _ hgoes =>
      rintro hjoining _
      have hflag := (hlone.joining hjoining).1
      change w.stopRequested = false at hgoes
      rw [hflag] at hgoes
      cases hgoes
  | loop thread position shared next hloops hsteps => exact h.loop hlone hloops hsteps
  | client shared hsteps => exact h.client hsteps

/-! ## The thread goes on -/

/-- A thread with an event to take takes it. -/
theorem advances_look (spurious : Bool) {w : Default E} {thread : ℕ}
    (hlook : w.threads[thread]? = some (.loop .look)) (hqueue : w.shared.queue ≠ []) :
    ∃ w', Relation.ReflTransGen (Own spurious thread) w w' ∧ w'.Advanced thread := by
  obtain ⟨event, rest, hfront⟩ := List.exists_cons_of_ne_nil hqueue
  have hlt := (List.getElem?_eq_some_iff.1 hlook).1
  exact ⟨_, .single (Own.loop .look _ _ hlook (DispatcherStep.takes event rest hfront)),
    Or.inr ⟨event, List.getElem?_set_self hlt⟩⟩

theorem advances_notified (spurious : Bool) {w : Default E} {thread : ℕ}
    (hasleep : w.threads[thread]? = some (.loop .asleep))
    (hnotified : thread ∉ w.shared.waiting) (hqueue : w.shared.queue ≠ []) :
    ∃ w', Relation.ReflTransGen (Own spurious thread) w w' ∧ w'.Advanced thread := by
  have hlt := (List.getElem?_eq_some_iff.1 hasleep).1
  have hwakes : Own spurious thread w _ :=
    Own.loop .asleep _ _ hasleep (DispatcherStep.awakes hnotified)
  obtain ⟨w', hruns, hadvanced⟩ := advances_look spurious
    (w := { w with threads := w.threads.set thread (.loop .look) })
    (List.getElem?_set_self hlt) hqueue
  exact ⟨w', hruns.head hwakes, hadvanced⟩

theorem canProgress_of_timely {w : Default E} (hlone : w.Lone) (hattended : w.Attended)
    (htimely : w.Timely) (hjoining : w.owner = .joining) : w.CanProgress false := by
  obtain ⟨hflag, hsome⟩ := hlone.joining hjoining
  obtain ⟨thread, hthread⟩ := Option.isSome_iff_exists.1 hsome
  have hlt := hlone.exists_thread thread hthread
  have hbusy : w.AtQueue thread → w.shared.queue ≠ [] :=
    fun hqueue hempty => htimely hjoining ⟨thread, hthread, hqueue, hempty⟩
  suffices h : ∃ w', Relation.ReflTransGen (Own false thread) w w' ∧ w'.Advanced thread by
    obtain ⟨w', hruns, hadvanced⟩ := h
    exact ⟨thread, w', hthread, hruns, hadvanced⟩
  have hexit {w : Default E} (hlt : thread < w.threads.length)
      (hchecks : w.threads[thread]? = some .check) (hflag : w.stopRequested = true) :
      ∃ w', Relation.ReflTransGen (Own false thread) w w' ∧ w'.Advanced thread :=
    ⟨_, .single (Own.exit hchecks hflag), Or.inl (List.getElem?_set_self hlt)⟩
  have hplace := List.getElem?_eq_getElem hlt
  generalize w.threads[thread] = place at hplace
  match place, hplace with
  | .exited, hplace => exact ⟨w, .refl, Or.inl hplace⟩
  | .check, hplace => exact hexit hlt hplace hflag
  | .loop .check, hplace =>
      have hreturns : DispatcherStep false w.stopRequested thread w.shared .check w.shared
          none := by
        rw [hflag]
        exact DispatcherStep.returns
      obtain ⟨w', hruns, hadvanced⟩ := hexit
        (w := { w with threads := w.threads.set thread .check })
        (by simpa using hlt) (List.getElem?_set_self hlt) hflag
      exact ⟨w', hruns.head (Own.loop .check _ _ hplace hreturns), hadvanced⟩
  | .loop .look, hplace => exact advances_look false hplace (hbusy (Or.inl hplace))
  | .loop .asleep, hplace =>
      have hqueue := hbusy (Or.inr hplace)
      by_cases hwaits : thread ∈ w.shared.waiting
      · have hdue := hattended.notified (List.ne_nil_of_mem hwaits) hqueue
        obtain ⟨left, hleft⟩ := Nat.exists_eq_succ_of_ne_zero hdue.ne'
        obtain ⟨w', hruns, hadvanced⟩ := advances_notified false
          (w := { w with shared := { w.shared with
            notifying := left, waiting := w.shared.waiting.erase thread } })
          hplace (List.Nodup.not_mem_erase hattended.nodup) hqueue
        exact ⟨w', hruns.head (Own.notify _ (Notify.one left thread hleft hwaits)), hadvanced⟩
      · exact advances_notified false hplace hwaits hqueue
  | .loop (.dispatching event), hplace => exact ⟨w, .refl, Or.inr ⟨event, hplace⟩⟩

/-! ## The thread that waits for an event -/

/-- Nothing that the thread does, and no notification that is due, ends the wait. -/
theorem atQueue_own {spurious : Bool} {w w' : Default E} {thread : ℕ}
    (hqueue : w.AtQueue thread) (hempty : w.shared.queue = [])
    (hown : Own spurious thread w w') : w'.AtQueue thread ∧ w'.shared.queue = [] := by
  cases hown with
  | exit hchecks _ => rcases place_of_atQueue hchecks hqueue with h | h <;> cases h
  | enter hchecks _ => rcases place_of_atQueue hchecks hqueue with h | h <;> cases h
  | loop position shared next hloops hsteps =>
      have hlt := (List.getElem?_eq_some_iff.1 hloops).1
      have hplace := place_of_atQueue hloops hqueue
      generalize w.stopRequested = stop at hsteps
      cases hsteps with
      | returns => rcases hplace with h | h <;> cases h
      | goes => rcases hplace with h | h <;> cases h
      | sleeps _ => exact ⟨Or.inr (List.getElem?_set_self hlt), hempty⟩
      | takes event rest hfront =>
          rw [hempty] at hfront
          cases hfront
      | awakes _ => exact ⟨Or.inl (List.getElem?_set_self hlt), hempty⟩
      | wakes _ => exact ⟨Or.inl (List.getElem?_set_self hlt), hempty⟩
      | dispatched event => rcases hplace with h | h <;> cases h
  | notify shared hnotifies => cases hnotifies <;> exact ⟨hqueue, hempty⟩

theorem Idles.not_canProgress {w : Default E} (h : w.Idles) (spurious : Bool) :
    ¬w.CanProgress spurious := by
  obtain ⟨thread, hthread, hqueue, hempty⟩ := h
  rintro ⟨waited, w', hwaited, hruns, hadvanced⟩
  obtain rfl : thread = waited := Option.some.inj (hthread.symm.trans hwaited)
  obtain ⟨hqueue', _⟩ := Transition.invariant_of_run
    (I := fun w => w.AtQueue thread ∧ w.shared.queue = [])
    (fun hI hown => atQueue_own hI.1 hI.2 hown) ⟨hqueue, hempty⟩ hruns
  rcases hadvanced with hexited | ⟨event, hdispatching⟩
  · rcases place_of_atQueue hexited hqueue' with h | h <;> cases h
  · rcases place_of_atQueue hdispatching hqueue' with h | h <;> cases h

/-- **`StopWithJoin` and the waiting thread.**  In every run in which no stop is requested
while the thread waits for an event with an empty queue, the thread that `StopWithJoin`
waits for can go on in every state; requested then, it cannot, whatever wakes it up. -/
theorem stop_hangs_iff_idle (E : Type u) :
    (∀ w : Default E, Relation.ReflTransGen TimelyStep (new {}) w → w.owner = .joining →
        w.CanProgress false) ∧
      ∀ w w' : Default E, Step (defaultEventDispatcher E) w w' → w.owner = .idle →
        w'.owner = .joining → w.Idles → ¬w'.CanProgress true := by
  constructor
  · intro w hrun hjoining
    have hsound := Transition.invariant_of_run
      (I := fun w : Default E => w.Lone ∧ w.Attended ∧ w.Timely) ?_ ?_ hrun
    · exact canProgress_of_timely hsound.1 hsound.2.1 hsound.2.2 hjoining
    · rintro w w' ⟨hlone, hattended, htimely⟩ hstep
      exact ⟨hlone.step hstep.1, hattended.step hlone hstep.1.1, htimely.step hlone hstep⟩
    · refine ⟨⟨rfl, by rintro ⟨⟩, ?_, by rintro _ ⟨⟩, by rintro ⟨⟩⟩, ⟨?_, List.nodup_nil, ?_⟩, ?_⟩
      · rintro thread ⟨place, hplace, _⟩
        cases hplace
      · rintro thread ⟨⟩
      · exact fun hwaits => absurd rfl hwaits
      · rintro ⟨⟩
  · intro w w' hstep hidle hjoining hidles
    have hidles' : w'.Idles := by
      cases hstep with
      | stopWithJoin _ _ => exact hidles
      | create hstarting =>
          rw [hidle] at hstarting
          cases hstarting
      | start _ => cases hjoining
      | stop _ => cases hjoining
      | detach _ => cases hjoining
      | join _ _ _ _ => cases hjoining
      | _ =>
          change w.owner = .joining at hjoining
          rw [hidle] at hjoining
          cases hjoining
    exact hidles'.not_canProgress true

/-- The thread has been created and is past its first look at the flag. -/
def looking : Default Unit :=
  { thread := some 0, threads := [.loop .look], shared := {} }

/-- `StopWithJoin` waits for a thread that sleeps on `_Cv`. -/
def hanging : Default Unit :=
  { stopRequested := true, thread := some 0, threads := [.loop .asleep], owner := .joining
    shared := { waiting := [0] } }

/-- `StopWithJoin` waits for a thread that has an event to take. -/
def stopping : Default Unit :=
  { stopRequested := true, thread := some 0, threads := [.loop .look], owner := .joining
    shared := { queue := [()], notifying := 1 } }

theorem goes_step {w : Default E} (thread : ℕ)
    (hchecks : w.threads[thread]? = some (.loop .check)) (hflag : w.stopRequested = false) :
    Step (defaultEventDispatcher E) w (w.goTo thread (.loop .look)) := by
  have hgoes : DispatcherStep true w.stopRequested thread w.shared .check w.shared
      (some .look) := by
    rw [hflag]
    exact DispatcherStep.goes
  exact Step.loop thread Position.check w.shared (some Position.look) hchecks hgoes

theorem looking_reached {r : Default Unit → Default Unit → Prop}
    (hr : ∀ w w', Step (defaultEventDispatcher Unit) w w' → w'.owner ≠ .detaching →
      w'.owner ≠ .joining → r w w') :
    Relation.ReflTransGen r (new {}) looking := by
  refine .head (hr _ _ (Step.start rfl) (by rintro ⟨⟩) (by rintro ⟨⟩)) ?_
  refine .head (hr _ _ (Step.create rfl) (by rintro ⟨⟩) (by rintro ⟨⟩)) ?_
  refine .head (hr _ _ (Step.enter 0 rfl rfl) (by rintro ⟨⟩) (by rintro ⟨⟩)) ?_
  exact .single (hr _ _ (goes_step 0 rfl rfl) (by rintro ⟨⟩) (by rintro ⟨⟩))

theorem stopping_reached : Relation.ReflTransGen TimelyStep (new {}) stopping := by
  have hquiet (w w' : Default Unit) (hstep : Step (defaultEventDispatcher Unit) w w')
      (hdetaching : w'.owner ≠ .detaching) (hjoining : w'.owner ≠ .joining) :
      TimelyStep w w' :=
    ⟨⟨hstep, hdetaching⟩, fun h => absurd h hjoining⟩
  refine (looking_reached hquiet).trans ?_
  refine .head (hquiet _ _ (Step.client _ (SendEvent.send () rfl)) (by rintro ⟨⟩)
    (by rintro ⟨⟩)) ?_
  refine .head (hquiet _ _ (Step.client _ (SendEvent.push [] [] () rfl)) (by rintro ⟨⟩)
    (by rintro ⟨⟩)) ?_
  refine .single ⟨⟨Step.stopWithJoin rfl rfl, by rintro ⟨⟩⟩, fun _ => Or.inr ?_⟩
  rintro ⟨_, _, _, hempty⟩
  cases hempty

/-- A stop that is requested while an event is in the queue ends. -/
theorem stopping_progresses : stopping.CanProgress false :=
  (stop_hangs_iff_idle Unit).1 stopping stopping_reached rfl

/-- **The hang**: a stop is requested while the thread sleeps. -/
theorem stop_hangs : ∃ w : Default Unit, Relation.ReflTransGen StepWithoutStop (new {}) w ∧
    w.owner = .joining ∧ ¬w.CanProgress true := by
  refine ⟨hanging, ?_, rfl, Idles.not_canProgress ⟨0, rfl, Or.inr rfl, rfl⟩ true⟩
  refine (looking_reached fun _ _ hstep hdetaching _ => ⟨hstep, hdetaching⟩).trans ?_
  refine .head (b := { looking with threads := [.loop .asleep], shared := { waiting := [0] } })
    ⟨Step.loop 0 Position.look _ (some Position.asleep) rfl
      (DispatcherStep.sleeps rfl), by rintro ⟨⟩⟩ ?_
  exact .single ⟨Step.stopWithJoin rfl rfl, by rintro ⟨⟩⟩

/-! ## A thread that was let go -/

/-- `Stop` has let thread 0 go, and `Start` is about to create a thread. -/
def restarting : Default Unit :=
  { threads := [.loop .look], detached := [0], owner := .starting, shared := {} }

theorem restarting_reached :
    Relation.ReflTransGen (Step (defaultEventDispatcher Unit)) (new {}) restarting := by
  refine (looking_reached fun _ _ hstep _ _ => hstep).trans ?_
  refine .head (Step.stop rfl) ?_
  refine .head (Step.detach rfl) ?_
  exact .single (Step.start rfl)

/-- Thread 0 dispatches an event next to thread 1. -/
def overlapping : Default Unit :=
  { thread := some 1, threads := [.loop (.dispatching ()), .loop .look], detached := [0]
    shared := { notifying := 1 } }

/-- **Two dispatchers**: `Start` returns true while thread 0, which `Stop` let go, is still
in `Run`, and both threads go on to the queue. -/
theorem detached_dispatches_on :
    Relation.ReflTransGen (Step (defaultEventDispatcher Unit)) (new {}) restarting ∧
      restarting.create.1 = true ∧ restarting.create.2.Runs 0 ∧ restarting.create.2.Runs 1 ∧
      Relation.ReflTransGen (Step (defaultEventDispatcher Unit)) restarting.create.2
        overlapping := by
  refine ⟨restarting_reached, rfl, ⟨_, rfl, by rintro ⟨⟩⟩, ⟨_, rfl, by rintro ⟨⟩⟩, ?_⟩
  refine .head (Step.enter 1 rfl rfl) ?_
  have hgoes : Step (defaultEventDispatcher Unit) (restarting.create.2.goTo 1 (.loop .check))
      (restarting.create.2.goTo 1 (.loop .look)) := goes_step 1 rfl rfl
  refine .head hgoes ?_
  refine .head (Step.client _ (SendEvent.send () rfl)) ?_
  refine .head (Step.client _ (SendEvent.push [] [] () rfl)) ?_
  exact .single (Step.loop 0 Position.look _ (some (Position.dispatching ())) rfl
    (DispatcherStep.takes () [] rfl))

/-- The state after a stop with join and a second start. -/
def restarted : Default Unit :=
  { thread := some 1, threads := [.exited, .check], shared := {} }

theorem restarted_reached : Relation.ReflTransGen
    (Transition.restrict (Step (defaultEventDispatcher Unit)) fun w => ¬w.Overlaps)
    (new {}) restarted := by
  have hnone {w : Default Unit} (hdetached : w.detached = []) : ¬w.Overlaps := by
    rintro ⟨_, _, thread, hmem, _⟩
    rw [hdetached] at hmem
    cases hmem
  refine .head ⟨hnone rfl, Step.start rfl⟩ ?_
  refine .head ⟨hnone rfl, Step.create rfl⟩ ?_
  refine .head ⟨hnone rfl, Step.stopWithJoin rfl rfl⟩ ?_
  refine .head ⟨hnone rfl, Step.exit 0 rfl rfl⟩ ?_
  refine .head ⟨hnone rfl, Step.join 0 rfl rfl rfl⟩ ?_
  refine .head ⟨hnone rfl, Step.start rfl⟩ ?_
  exact .single ⟨hnone rfl, Step.create rfl⟩

/-- After `StopWithJoin` the next thread is alone. -/
theorem restarted_alone : restarted.AtMostOne :=
  (one_dispatcher (defaultEventDispatcher Unit) {}).1 restarted restarted_reached

end Worker

end NewCPP.WorkerThread
