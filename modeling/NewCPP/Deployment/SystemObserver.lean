import Mathlib.Algebra.Order.Ring.Nat
import NewCPP.Deployment.MovedMonitor
import NewCPP.Library.EPoll
import NewCPP.Library.Transition

/-!
# The system observer

`SystemObserver::monitor` waits for events of its observers' descriptors and has the folder
monitor read its own once for each of them.

* `no_stall` — where every read takes all events that are queued, or another edge is to
  come, no event is left behind; and otherwise one is.

## Design notes

**The queue.**  Every event that the kernel queues raises an edge on the descriptor of the
monitor.  What a read leaves in the queue raises none.

**Other observers.**  Something may happen to their descriptors at any time, and serving
one may leave something or not.

**Edges.**  The library `Library.EPoll` keeps which descriptors were noticed.  What is fetched
is handled one by one, with arrivals at any time in between, so that an event may raise an edge
for a queue that is about to be read anyway.

**The invariant.**  `Noticed` says that a queue with events in it is noticed or fetched,
`Fetched` that what is fetched is registered.  A read of the whole queue keeps the first, and a
read that leaves something breaks it.
-/

namespace NewCPP.Deployment

open Library

/-- Where the observer is in `monitor`. -/
inductive ObserverPlace where
  | stopped
  | waiting
  | handling (events : List ℕ)

/-- The observers under one epoll instance, one of them a folder monitor. -/
structure SystemObserver where
  watch : FolderWatch
  /-- The descriptors of the other observers. -/
  others : List ℕ
  otherLive : ℕ → Bool := fun _ => false
  epollWorker : EPoll ℕ := .empty
  place : ObserverPlace := .stopped

namespace SystemObserver

/-- At most so many events come from one wait. -/
def systemObserverEpoolEvents : ℕ := 4

/-- The observer of a folder, before `monitor` is called. -/
def new (watch : FolderWatch) (others : List ℕ) : SystemObserver :=
  { watch := watch, others := others }

/-- There is something to read from the descriptor. -/
def live (s : SystemObserver) (fd : ℕ) : Bool :=
  if s.watch.monitor.descriptor = some fd then !s.watch.pending.isEmpty else s.otherLive fd

/-- The beginning of `monitor`. -/
def beginMonitor (s : SystemObserver) : SystemObserver :=
  { s with
    epollWorker := EPoll.empty.addAll (s.others ++ s.watch.monitor.descriptor.toList) s.live
    place := .waiting }

/-- The thread waits, and goes on with the events it was given. -/
def waitEPoll (s : SystemObserver) : SystemObserver :=
  let waited := s.epollWorker.wait systemObserverEpoolEvents s.live
  { s with epollWorker := waited.2, place := .handling waited.1 }

/-- The handler of an event. -/
def handle (fd : ℕ) (events : List ℕ) (left : Bool) (s : SystemObserver) : SystemObserver :=
  { s with
    watch :=
      if s.watch.monitor.descriptor = some fd then s.watch.perform .handleIncommingEvents
      else s.watch
    otherLive := Function.update s.otherLive fd left
    place := .handling events }

/-- All observers process, and the thread waits again. -/
def process (s : SystemObserver) : SystemObserver :=
  { s with watch := s.watch.perform .process, place := .waiting }

/-- The kernel queues an event of the folder. -/
def arrive (event : InotifyEvent) (s : SystemObserver) : SystemObserver :=
  { s with
    watch := s.watch.perform (.arrive event)
    epollWorker :=
      match s.watch.monitor.descriptor with
      | none => s.epollWorker
      | some fd => s.epollWorker.notify fd }

/-- Something happens at another observer. -/
def otherEvent (fd : ℕ) (s : SystemObserver) : SystemObserver :=
  { s with
    otherLive := Function.update s.otherLive fd true
    epollWorker := s.epollWorker.notify fd }

/-- **One step** of the kernel or of the observer. -/
inductive Step : SystemObserver → SystemObserver → Prop
  | arrive {s : SystemObserver} (event : InotifyEvent) : Step s (s.arrive event)
  | otherEvent {s : SystemObserver} (fd : ℕ) : Step s (s.otherEvent fd)
  | elapse {s : SystemObserver} (time : ℕ) :
      Step s { s with watch := s.watch.perform (.wait time) }
  | setFileReadyTimeout {s : SystemObserver} (timeout : ℤ) :
      Step s { s with watch := s.watch.perform (.setFileReadyTimeout timeout) }
  | beginMonitor {s : SystemObserver} (stopped : s.place = .stopped) : Step s s.beginMonitor
  | wait {s : SystemObserver} (waiting : s.place = .waiting) : Step s s.waitEPoll
  | waitFails {s : SystemObserver} (waiting : s.place = .waiting) :
      Step s { s with place := .handling [] }
  | handle {s : SystemObserver} (fd : ℕ) (events : List ℕ) (left : Bool)
      (handling : s.place = .handling (fd :: events)) : Step s (s.handle fd events left)
  | process {s : SystemObserver} (handled : s.place = .handling []) : Step s s.process
  | stop {s : SystemObserver} (waiting : s.place = .waiting) : Step s { s with place := .stopped }

/-- The events that have been fetched and not handled. -/
def events (s : SystemObserver) : List ℕ :=
  match s.place with
  | .handling events => events
  | _ => []

/-- An edge of the descriptor has been noticed, or fetched and not handled. -/
def Pending (s : SystemObserver) (fd : ℕ) : Prop :=
  fd ∈ s.epollWorker.ready ∨ fd ∈ s.events

instance (s : SystemObserver) (fd : ℕ) : Decidable (s.Pending fd) :=
  inferInstanceAs (Decidable (_ ∨ _))

/-- Without a pending edge all events of the folder have been parsed. -/
def NoStall (s : SystemObserver) : Prop :=
  ∀ fd, s.watch.monitor.descriptor = some fd → fd ∈ s.epollWorker.interest → ¬s.Pending fd →
    s.watch.pending = []

/-- The bytes of the queue. -/
def queueSize (s : SystemObserver) : ℕ :=
  (s.watch.pending.map InotifyEvent.size).sum

/-- The step handles an edge. -/
def Handles (s s' : SystemObserver) : Prop :=
  ∃ fd events left, s.place = .handling (fd :: events) ∧ s' = s.handle fd events left

/-- The next read takes all events of the queue, or there is another edge to come. -/
def ReadsAll (s : SystemObserver) : Prop :=
  ∀ fd events, s.place = .handling (fd :: events) → s.watch.monitor.descriptor = some fd →
    s.queueSize ≤ s.watch.monitor.eventBuffer ∨ fd ∈ s.epollWorker.ready

end SystemObserver

/-! ## What a read leaves -/

/-- Events are left behind exactly where they do not all fit. -/
theorem readEvents_snd_eq_nil_iff (size : ℕ) (pending : List InotifyEvent) :
    (readEvents size pending).2 = [] ↔ (pending.map InotifyEvent.size).sum ≤ size := by
  induction pending generalizing size with
  | nil => simp [readEvents]
  | cons event pending ih =>
      rw [readEvents, List.map_cons, List.sum_cons]
      split
      · rename_i hfits
        rw [ih]
        omega
      · rename_i hfits
        simp only [reduceCtorEq, false_iff]
        omega

namespace FolderWatch

theorem descriptor_perform (watch : FolderWatch) (action : WatchAction) :
    (watch.perform action).monitor.descriptor = watch.monitor.descriptor := by
  cases action with
  | handleIncommingEvents =>
      rw [perform, FolderMonitor.handleIncommingEvents, parseEvents_eq]
  | _ => rfl

/-- A read leaves nothing exactly if everything fits into the buffer. -/
theorem pending_handle_eq_nil_iff {watch : FolderWatch} {fd : ℕ}
    (h : watch.monitor.descriptor = some fd) :
    (watch.perform .handleIncommingEvents).pending = [] ↔
      (watch.pending.map InotifyEvent.size).sum ≤ watch.monitor.eventBuffer := by
  simp only [perform, FolderMonitor.incoming, h]
  exact readEvents_snd_eq_nil_iff _ _

end FolderWatch

namespace SystemObserver

/-! ## Nothing is left behind -/

/-- The descriptor is the monitor's, and its queue is not empty. -/
def queued (s : SystemObserver) (fd : ℕ) : Bool :=
  s.watch.monitor.descriptor = some fd && !s.watch.pending.isEmpty

/-- A folder with events in its queue is readable. -/
theorem live_of_queued {s : SystemObserver} (fd : ℕ) (h : s.queued fd = true) :
    s.live fd = true := by
  rw [queued, Bool.and_eq_true, decide_eq_true_iff] at h
  rw [live, if_pos h.1, h.2]

/-- Its queue is not empty. -/
theorem queued_iff {s : SystemObserver} {fd : ℕ} :
    s.queued fd = true ↔ s.watch.monitor.descriptor = some fd ∧ s.watch.pending ≠ [] := by
  simp [queued]

theorem events_of_waiting {s : SystemObserver} (h : s.place = .waiting) : s.events = [] := by
  rw [events, h]

theorem events_of_handling {s : SystemObserver} {fetched : List ℕ}
    (h : s.place = .handling fetched) : s.events = fetched := by
  rw [events, h]

/-- No edge of the monitor's descriptor is missing. -/
def Noticed (s : SystemObserver) : Prop :=
  s.epollWorker.Noticed s.events s.queued

theorem Noticed.of_events {s : SystemObserver} {fetched : List ℕ} (h : s.Noticed)
    (hevents : s.events = fetched) : s.epollWorker.Noticed fetched s.queued :=
  hevents ▸ h

/-- An event that is noticed or fetched is not left lying. -/
theorem noStall_of_noticed {s : SystemObserver} (h : s.Noticed) : s.NoStall := by
  intro fd hdescriptor hinterest hpending
  by_contra hqueue
  exact hpending (h fd hinterest (queued_iff.2 ⟨hdescriptor, hqueue⟩))

theorem descriptor_handle (fd : ℕ) (events : List ℕ) (left : Bool) (s : SystemObserver) :
    (s.handle fd events left).watch.monitor.descriptor = s.watch.monitor.descriptor := by
  simp only [handle]
  split
  · exact s.watch.descriptor_perform _
  · rfl

/-- The same of a read by the observer. -/
theorem pending_handle {s : SystemObserver} {fd : ℕ} (events : List ℕ) (left : Bool)
    (h : s.watch.monitor.descriptor = some fd) :
    (s.handle fd events left).watch.pending = [] ↔
      s.queueSize ≤ s.watch.monitor.eventBuffer := by
  simp only [handle, if_pos h]
  exact FolderWatch.pending_handle_eq_nil_iff h

/-- A read that takes everything keeps what is noticed in step with the queue. -/
theorem noticed_handle {s : SystemObserver} {fd : ℕ} {events : List ℕ} (h : s.Noticed)
    (hreads : s.ReadsAll) (hplace : s.place = .handling (fd :: events)) (left : Bool) :
    (s.handle fd events left).Noticed := by
  have hnoticed := h.of_events (events_of_handling hplace)
  refine hnoticed.serve (fun other hne hqueued => ?_) fun hqueued => ?_
  · -- the handler of another descriptor does not touch the queue
    obtain ⟨hdescriptor, hqueue⟩ := queued_iff.1 hqueued
    rw [descriptor_handle] at hdescriptor
    have hother : s.watch.monitor.descriptor ≠ some fd := by
      rw [hdescriptor, ne_eq, Option.some_inj]
      exact hne
    simp only [handle, if_neg hother] at hqueue
    exact queued_iff.2 ⟨hdescriptor, hqueue⟩
  · obtain ⟨hdescriptor, hqueue⟩ := queued_iff.1 hqueued
    rw [descriptor_handle] at hdescriptor
    rw [ne_eq, pending_handle events left hdescriptor] at hqueue
    exact Or.inl ((hreads fd events hplace hdescriptor).resolve_left hqueue)

/-- An event that arrives is noticed. -/
theorem noticed_arrive {s : SystemObserver} (h : s.Noticed) (event : InotifyEvent) :
    (s.arrive event).Noticed := by
  rw [Noticed, arrive]
  cases hdescriptor : s.watch.monitor.descriptor with
  | none =>
      intro fd _ hqueued
      have hother : s.watch.monitor.descriptor = some fd := (queued_iff.1 hqueued).1
      rw [hdescriptor] at hother
      cases hother
  | some own =>
      refine EPoll.Noticed.notify h fun other hne hqueued => ?_
      have hother : s.watch.monitor.descriptor = some other := (queued_iff.1 hqueued).1
      rw [hdescriptor, Option.some_inj] at hother
      exact absurd hother.symm hne

/-- What every step keeps, where a read takes the whole queue or another edge is to come. -/
theorem noticed_step {s s' : SystemObserver} (h : s.Noticed)
    (hreads : Handles s s' → s.ReadsAll) (hstep : Step s s') : s'.Noticed := by
  cases hstep with
  | arrive event => exact noticed_arrive h event
  | otherEvent fd => exact EPoll.Noticed.notify h fun _ _ hqueued => hqueued
  | elapse time => exact h
  | setFileReadyTimeout timeout => exact h
  | beginMonitor _ => exact (EPoll.Noticed.empty _ _).addAll live_of_queued _
  | wait hplace => exact (h.of_events (events_of_waiting hplace)).wait live_of_queued _
  | waitFails hplace => exact h.of_events (events_of_waiting hplace)
  | handle fd events left hplace =>
      exact noticed_handle h (hreads ⟨fd, events, left, hplace, rfl⟩) hplace left
  | process hplace => exact h.of_events (events_of_handling hplace)
  | stop hplace => exact h.of_events (events_of_waiting hplace)

/-! ## Runs of the observer -/

/-- What was fetched is registered, each descriptor once. -/
def Fetched (s : SystemObserver) : Prop :=
  s.epollWorker.Fetched s.events

/-- Only descriptors that are registered are fetched. -/
theorem fetched_step {s s' : SystemObserver} (h : s.Fetched) (hstep : Step s s') :
    s'.Fetched := by
  cases hstep with
  | arrive event =>
      rw [Fetched, arrive]
      cases s.watch.monitor.descriptor with
      | none => exact h
      | some fd => exact EPoll.Fetched.notify h fd
  | otherEvent fd => exact EPoll.Fetched.notify h fd
  | elapse time => exact h
  | setFileReadyTimeout timeout => exact h
  | beginMonitor _ => exact .nil _
  | wait _ => exact .wait _ _ _
  | waitFails _ => exact .nil _
  | handle fd events left hplace =>
      rw [Fetched, events_of_handling hplace] at h
      exact h.serve
  | process _ => exact .nil _
  | stop _ => exact .nil _

/-- A read that leaves an event, with no other edge to come, leaves it behind. -/
theorem exists_stall {s : SystemObserver} (h : s.Fetched) (hreads : ¬s.ReadsAll) :
    ∃ s', Step s s' ∧ ¬s'.NoStall := by
  simp only [ReadsAll, not_forall, not_or] at hreads
  obtain ⟨fd, events, hplace, hdescriptor, hsize, hready⟩ := hreads
  rw [Fetched, events_of_handling hplace] at h
  refine ⟨_, .handle fd events false hplace, fun hstall => hsize ?_⟩
  rw [← pending_handle events false hdescriptor]
  refine hstall fd ?_ (h.interest fd List.mem_cons_self) ?_
  · rw [descriptor_handle, hdescriptor]
  · rintro (hnow | hlater)
    · exact hready hnow
    · exact h.not_mem_serve hlater

/-- **No event is left behind** in the runs in which every read takes all that is queued,
or is followed by another edge; and wherever a read does not, one is left behind. -/
theorem no_stall (watch : FolderWatch) (others : List ℕ) :
    (∀ s, Relation.ReflTransGen (Transition.restrictAt Step Handles ReadsAll)
        (new watch others) s → s.NoStall) ∧
      ∀ s, Relation.ReflTransGen Step (new watch others) s → ¬s.ReadsAll →
        ∃ s', Step s s' ∧ ¬s'.NoStall := by
  constructor
  · intro s hrun
    have hnew : (new watch others).Noticed := EPoll.Noticed.empty _ _
    apply noStall_of_noticed
    exact Transition.invariant_of_run_restrictAt (I := Noticed)
      (fun h hreads hstep => noticed_step h hreads hstep) hnew hrun
  · intro s hrun hreads
    have hnew : (new watch others).Fetched := .nil _
    exact exists_stall (Transition.invariant_of_run (I := Fetched)
      (fun h hstep => fetched_step h hstep) hnew hrun) hreads

/-- A file with a short name is created. -/
def shortName : InotifyEvent :=
  ⟨.inCreate, 'a' :: List.replicate 15 '\x00'⟩

/-- A file with a name of fifty characters is created. -/
def longName : InotifyEvent :=
  ⟨.inCreate, List.replicate 50 'a' ++ List.replicate 14 '\x00'⟩

/-- The observer of a new monitor about to handle the first event. -/
def handling (event : InotifyEvent) : SystemObserver :=
  (((new (FolderWatch.start 3) [4]).beginMonitor).arrive event).waitEPoll

/-- A read that takes the one event there is. -/
theorem no_stall_shortName : ((handling shortName).handle 3 [] false).NoStall := by
  refine (no_stall (FolderWatch.start 3) [4]).1 _ ?_
  have hbegin : Transition.restrictAt Step Handles ReadsAll (new (FolderWatch.start 3) [4]) _ :=
    ⟨.beginMonitor rfl, by rintro ⟨_, _, _, ⟨⟩, _⟩⟩
  have harrive : Transition.restrictAt Step Handles ReadsAll
      (new (FolderWatch.start 3) [4]).beginMonitor _ :=
    ⟨.arrive shortName, by rintro ⟨_, _, _, ⟨⟩, _⟩⟩
  have hwait : Transition.restrictAt Step Handles ReadsAll
      ((new (FolderWatch.start 3) [4]).beginMonitor.arrive shortName) _ :=
    ⟨.wait rfl, by rintro ⟨_, _, _, ⟨⟩, _⟩⟩
  refine (((Relation.ReflTransGen.single hbegin).tail harrive).tail hwait).tail ⟨?_, ?_⟩
  · exact .handle 3 [] false rfl
  · rintro - fd events - -
    exact Or.inl (by decide)

/-- The name of fifty characters does not fit into the buffer, and is never read. -/
theorem not_no_stall_longName : ¬∀ others s,
    Relation.ReflTransGen Step (new (FolderWatch.start 3) others) s → s.NoStall := by
  intro h
  have hrun : Relation.ReflTransGen Step (new (FolderWatch.start 3) [4])
      ((handling longName).handle 3 [] false) :=
    ((((Relation.ReflTransGen.single (.beginMonitor rfl)).tail (.arrive longName)).tail
      (.wait rfl)).tail (.handle 3 [] false rfl))
  have hpending := h [4] _ hrun 3 rfl (by decide) (by decide)
  revert hpending
  decide

end SystemObserver

end NewCPP.Deployment
