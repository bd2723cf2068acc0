import NewCPP.Deployment.SystemObserver
import NewCPP.Deployment.UsbMonitor

/-!
# Observing the mass storages

`SystemObserver::monitor` has each reported observer handle its events once, and
`UsbMassStorageMonitor::handleIncommingEvents` receives one event of udev, while the descriptor is
edge-triggered.

* `backlog_kept` — what is left unread: without an edge to come, exactly as many events as have
  arrived without an edge of their own, the last ones; this is never made up for.
* `left_unread` — the devices whose events are left are neither queued nor given to the consumer
  until udev reports another event.

## Design notes

**udev.**  Only events that pass the filter of the monitor arrive; none is lost on the way, and
receiving gives the first of them.

**Edges.**  An event that arrives raises an edge unless an earlier edge has not been fetched.  What
is there when the descriptor is registered raises one edge.

**The loop.**  `main` never stops it, so that it begins once.

**Other observers.**  Something may happen to their descriptors at any time, and serving one may
leave something or not.
-/

namespace NewCPP.Deployment

open Library
open UsbMassStorageMonitor (RawDevice Environment)

/-- What udev reports: an action and the handle of the device. -/
abbrev UdevEvent := UsbMassStorageMonitor.Action × RawDevice

/-- The observers under one epoll instance, one of them the monitor of the sticks. -/
structure UsbObserver where
  /-- The descriptor of the monitor. -/
  usb : ℕ
  /-- The descriptors of the other observers. -/
  others : List ℕ
  /-- The events of udev that are unread. -/
  pending : List UdevEvent := []
  delayedDevices : List RawDevice := []
  otherLive : ℕ → Bool := fun _ => false
  epollWorker : EPoll ℕ := .empty
  place : ObserverPlace := .stopped
  arrived : List UdevEvent := []
  received : List UdevEvent := []
  consumed : List RawDevice := []
  /-- How many events have arrived without an edge of their own. -/
  coalesced : ℕ := 0

namespace UsbObserver

/-- The observer of a new monitor, before `monitor` is called. -/
def new (usb : ℕ) (others : List ℕ) : UsbObserver :=
  { usb := usb, others := others }

/-- There is something to read from the descriptor. -/
def live (s : UsbObserver) (fd : ℕ) : Bool :=
  if fd = s.usb then !s.pending.isEmpty else s.otherLive fd

/-- The events that have been fetched and not handled. -/
def events (s : UsbObserver) : List ℕ :=
  match s.place with
  | .handling events => events
  | _ => []

/-- An edge has been noticed and not fetched. -/
def noticed (s : UsbObserver) : Bool :=
  s.epollWorker.ready.any fun fd => fd = s.usb

/-- An edge has been fetched and not handled. -/
def fetched (s : UsbObserver) : Bool :=
  s.events.any fun fd => fd = s.usb

/-- The edges that are to come. -/
def edges (s : UsbObserver) : ℕ :=
  s.noticed.toNat + s.fetched.toNat

/-- The descriptor is registered. -/
def registered (s : UsbObserver) : Bool :=
  s.epollWorker.interest.any fun fd => fd = s.usb

/-- The beginning of `monitor`. -/
def beginMonitor (s : UsbObserver) : UsbObserver :=
  { s with
    epollWorker := EPoll.empty.addAll (s.usb :: s.others) s.live
    coalesced := s.pending.length - 1
    place := .waiting }

/-- The thread waits, and goes on with the events it was given. -/
def waitEPoll (s : UsbObserver) : UsbObserver :=
  let waited := s.epollWorker.wait SystemObserver.systemObserverEpoolEvents s.live
  { s with epollWorker := waited.2, place := .handling waited.1 }

/-- `handleIncommingEvents` of the monitor. -/
def receive (s : UsbObserver) : UsbObserver :=
  { s with
    pending := s.pending.tail
    delayedDevices :=
      UsbMassStorageMonitor.handleIncommingEvents s.pending.head? s.delayedDevices
    received := s.received ++ s.pending.head?.toList }

/-- The handler of an event. -/
def handle (fd : ℕ) (events : List ℕ) (left : Bool) (s : UsbObserver) : UsbObserver :=
  let handled :=
    if fd = s.usb then s.receive
    else { s with otherLive := Function.update s.otherLive fd left }
  { handled with place := .handling events }

/-- An event of udev. -/
def arrive (event : UdevEvent) (s : UsbObserver) : UsbObserver :=
  { s with
    pending := s.pending ++ [event]
    arrived := s.arrived ++ [event]
    epollWorker := s.epollWorker.notify s.usb
    -- an edge that has been noticed already stands for this event, too
    coalesced := if s.registered && !s.noticed then s.coalesced else s.coalesced + 1 }

/-- Something happens at another observer. -/
def otherEvent (fd : ℕ) (s : UsbObserver) : UsbObserver :=
  { s with
    otherLive := Function.update s.otherLive fd true
    epollWorker := s.epollWorker.notify fd }

/-- **One step** of the loop, or of another observer. -/
inductive OwnStep : UsbObserver → UsbObserver → Prop
  | otherEvent {s : UsbObserver} (fd : ℕ) (other : fd ≠ s.usb) : OwnStep s (s.otherEvent fd)
  | beginMonitor {s : UsbObserver} (stopped : s.place = .stopped) : OwnStep s s.beginMonitor
  | wait {s : UsbObserver} (waiting : s.place = .waiting) : OwnStep s s.waitEPoll
  | waitFails {s : UsbObserver} (waiting : s.place = .waiting) :
      OwnStep s { s with place := .handling [] }
  | handle {s : UsbObserver} (fd : ℕ) (events : List ℕ) (left : Bool)
      (handling : s.place = .handling (fd :: events)) : OwnStep s (s.handle fd events left)
  | process {s : UsbObserver} (environment : Environment)
      (consumed : List (RawDevice × UsbMassStorage)) (stay : List RawDevice)
      (handled : s.place = .handling [])
      (processes :
        UsbMassStorageMonitor.Process environment s.delayedDevices consumed stay) :
      OwnStep s { s with
        delayedDevices := stay
        consumed := s.consumed ++ consumed.map Prod.fst
        place := .waiting }

/-- **One step**, events of udev included. -/
inductive Step : UsbObserver → UsbObserver → Prop
  | arrive {s : UsbObserver} (event : UdevEvent) : Step s (s.arrive event)
  | own {s s' : UsbObserver} (step : OwnStep s s') : Step s s'

/-! ## The edges that are to come -/

theorem noticed_iff {s : UsbObserver} : s.noticed = true ↔ s.usb ∈ s.epollWorker.ready := by
  simp [noticed]

theorem fetched_iff {s : UsbObserver} : s.fetched = true ↔ s.usb ∈ s.events := by
  simp [fetched]

theorem registered_iff {s : UsbObserver} :
    s.registered = true ↔ s.usb ∈ s.epollWorker.interest := by
  simp [registered]

theorem noticed_eq_false {s : UsbObserver} (h : s.usb ∉ s.epollWorker.ready) :
    s.noticed = false :=
  Bool.eq_false_iff.2 (mt noticed_iff.1 h)

theorem fetched_eq_false {s : UsbObserver} (h : s.usb ∉ s.events) : s.fetched = false :=
  Bool.eq_false_iff.2 (mt fetched_iff.1 h)

/-- Nothing is noticed, and nothing is fetched. -/
theorem edges_eq_zero_iff {s : UsbObserver} :
    s.edges = 0 ↔ s.usb ∉ s.epollWorker.ready ∧ s.usb ∉ s.events := by
  rw [← noticed_iff, ← fetched_iff, edges, Nat.add_eq_zero_iff]
  simp

theorem events_of_waiting {s : UsbObserver} (h : s.place = .waiting) : s.events = [] := by
  rw [events, h]

theorem events_of_handling {s : UsbObserver} {fetched : List ℕ}
    (h : s.place = .handling fetched) : s.events = fetched := by
  rw [events, h]

theorem live_usb {s : UsbObserver} (h : s.pending ≠ []) : s.live s.usb = true := by
  rw [live, if_pos rfl]
  simpa using h

/-- The registration notices what is already there. -/
theorem noticed_beginMonitor (s : UsbObserver) :
    s.beginMonitor.noticed = !s.pending.isEmpty := by
  cases hpending : s.pending with
  | nil =>
      apply noticed_eq_false
      intro hready
      rcases EPoll.mem_ready_of_addAll _ _ _ _ hready with hready | hlive
      · cases hready
      · have hempty : s.live s.usb = false := by
          rw [live, if_pos rfl, hpending]
          rfl
        cases hempty.symm.trans hlive
  | cons event pending =>
      apply noticed_iff.2
      apply EPoll.mem_ready_addAll
      · exact live_usb (hpending ▸ List.cons_ne_nil event pending)
      · exact List.mem_cons_self
      · exact List.not_mem_nil

/-- An event is noticed, or it is added to those that are. -/
theorem edges_arrive (event : UdevEvent) (s : UsbObserver) :
    (s.arrive event).edges + (s.arrive event).coalesced = s.edges + s.coalesced + 1 := by
  have hnoticed : (s.arrive event).noticed = (s.noticed || s.registered) := by
    rw [Bool.eq_iff_iff, Bool.or_eq_true, noticed_iff, noticed_iff, registered_iff]
    show s.usb ∈ (s.epollWorker.notify s.usb).ready ↔ _
    rw [EPoll.mem_ready_notify]
    simp
  have hfetched : (s.arrive event).fetched = s.fetched := rfl
  rw [edges, edges, hnoticed, hfetched]
  show _ + (if s.registered && !s.noticed then s.coalesced else s.coalesced + 1) = _
  cases s.registered <;> cases s.noticed <;> simp <;> omega

/-- The others have edges of their own. -/
theorem edges_otherEvent {fd : ℕ} {s : UsbObserver} (other : fd ≠ s.usb) :
    (s.otherEvent fd).edges = s.edges := by
  have hnoticed : (s.otherEvent fd).noticed = s.noticed := by
    rw [Bool.eq_iff_iff, noticed_iff, noticed_iff]
    show s.usb ∈ (s.epollWorker.notify fd).ready ↔ _
    rw [EPoll.mem_ready_notify]
    exact or_iff_left fun h => other h.1.symm
  rw [edges, hnoticed]
  rfl

/-- A wait turns the edge that has been noticed into one that is fetched, or leaves it. -/
theorem edges_waitEPoll {s : UsbObserver} (hplace : s.place = .waiting)
    (hpending : s.usb ∈ s.epollWorker.ready → s.pending ≠ []) :
    s.waitEPoll.edges = s.edges := by
  have hbefore : s.fetched = false := by
    apply fetched_eq_false
    rw [events_of_waiting hplace]
    exact List.not_mem_nil
  by_cases hready : s.usb ∈ s.epollWorker.ready
  · have hnoticed : s.noticed = true := noticed_iff.2 hready
    -- with an event unread the descriptor is live, so that the wait does not pass it over
    have hreported : s.usb ∈ s.waitEPoll.events ∨ s.usb ∈ s.waitEPoll.epollWorker.ready :=
      EPoll.mem_wait_or_ready hready (live_usb (hpending hready))
    rcases hreported with hfetched | hleft
    · have hnow : s.waitEPoll.fetched = true := fetched_iff.2 hfetched
      have hlater : s.waitEPoll.noticed = false :=
        noticed_eq_false (EPoll.not_mem_ready_of_mem_wait hfetched)
      rw [edges, edges, hnow, hlater, hnoticed, hbefore]
      rfl
    · have hlater : s.waitEPoll.noticed = true := noticed_iff.2 hleft
      have hnow : s.waitEPoll.fetched = false :=
        fetched_eq_false fun hfetched => EPoll.not_mem_ready_of_mem_wait hfetched hleft
      rw [edges, edges, hnow, hlater, hnoticed, hbefore]
  · have hnone : s.edges = 0 := by
      rw [edges, noticed_eq_false hready, hbefore]
      rfl
    rw [hnone, edges_eq_zero_iff]
    refine ⟨fun hleft => hready ?_, fun hfetched => hready ?_⟩
    · exact (EPoll.report_sublist _ _ _).subset (List.mem_append_right _ hleft)
    · exact EPoll.mem_ready_of_mem_wait hfetched

/-! ## What has arrived -/

/-- Every event that has arrived is received or unread, in order, and every one that is unread
has an edge to come or had none of its own. -/
structure Accounted (s : UsbObserver) : Prop where
  order : s.arrived = s.received ++ s.pending
  fetched : s.epollWorker.Fetched s.events
  owed : s.pending.length = s.edges + s.coalesced

namespace Accounted

/-- Nothing has happened yet. -/
theorem new (usb : ℕ) (others : List ℕ) : (UsbObserver.new usb others).Accounted where
  order := rfl
  fetched := .nil _
  owed := rfl

variable {s : UsbObserver}

theorem pending_ne_nil (h : s.Accounted) (hedge : s.edges ≠ 0) : s.pending ≠ [] := by
  apply List.ne_nil_of_length_pos
  rw [h.owed]
  omega

/-- An event of udev. -/
theorem arrive (h : s.Accounted) (event : UdevEvent) : (s.arrive event).Accounted where
  order := by
    show s.arrived ++ [event] = s.received ++ (s.pending ++ [event])
    rw [h.order, List.append_assoc]
  fetched := EPoll.Fetched.notify h.fetched s.usb
  owed := by
    rw [edges_arrive, ← h.owed]
    exact List.length_append

/-- An event at another observer. -/
theorem otherEvent (h : s.Accounted) {fd : ℕ} (other : fd ≠ s.usb) :
    (s.otherEvent fd).Accounted where
  order := h.order
  fetched := EPoll.Fetched.notify h.fetched fd
  owed := by
    rw [edges_otherEvent other]
    exact h.owed

/-- The registration. -/
theorem beginMonitor (h : s.Accounted) : s.beginMonitor.Accounted where
  order := h.order
  fetched := .nil _
  owed := by
    have hfetched : s.beginMonitor.fetched = false := rfl
    rw [edges, noticed_beginMonitor, hfetched]
    show s.pending.length = _ + (s.pending.length - 1)
    cases s.pending with
    | nil => rfl
    | cons event pending => simp [Nat.add_comm]

/-- What is noticed is fetched. -/
theorem waitEPoll (h : s.Accounted) (hplace : s.place = .waiting) : s.waitEPoll.Accounted where
  order := h.order
  fetched := .wait _ _ _
  owed := by
    rw [edges_waitEPoll hplace]
    · exact h.owed
    · exact fun hready => h.pending_ne_nil fun hedges => (edges_eq_zero_iff.1 hedges).1 hready

/-- The place changes, but not what has been fetched. -/
theorem at_place (h : s.Accounted) {place : ObserverPlace}
    {delayedDevices consumed : List RawDevice} (hevents : s.events = [])
    (hplace : place = .waiting ∨ place = .handling []) :
    { s with delayedDevices, consumed, place : UsbObserver }.Accounted := by
  obtain ⟨horder, hfetched, howed⟩ := h
  rw [edges, UsbObserver.fetched, hevents] at howed
  rcases hplace with rfl | rfl
  · exact ⟨horder, .nil _, howed⟩
  · exact ⟨horder, .nil _, howed⟩

/-- The edge that is handled and the event that is received go together. -/
theorem receive (h : s.Accounted) {events : List ℕ} (left : Bool)
    (hplace : s.place = .handling (s.usb :: events)) :
    (s.handle s.usb events left).Accounted := by
  have hevents := events_of_handling hplace
  have hserved : s.epollWorker.Fetched (s.usb :: events) := hevents ▸ h.fetched
  have hfetched : s.fetched = true := fetched_iff.2 (hevents ▸ List.mem_cons_self)
  have howed := h.owed
  rw [edges, hfetched] at howed
  cases hpending : s.pending with
  | nil =>
      -- the edge that was fetched stands for an event
      rw [hpending, List.length_nil, Bool.toNat_true] at howed
      omega
  | cons event pending =>
      rw [hpending] at howed
      have hlater : (s.handle s.usb events left).fetched = false := by
        apply fetched_eq_false
        rw [handle, if_pos rfl]
        exact hserved.not_mem_serve
      have hnoticed : (s.handle s.usb events left).noticed = s.noticed := by
        rw [handle, if_pos rfl]
        rfl
      refine ⟨?_, ?_, ?_⟩
      · rw [handle, if_pos rfl]
        show s.arrived = (s.received ++ s.pending.head?.toList) ++ s.pending.tail
        rw [h.order, hpending, List.append_assoc]
        rfl
      · rw [handle, if_pos rfl]
        exact hserved.serve
      · rw [edges, hlater, hnoticed, handle, if_pos rfl]
        show s.pending.tail.length = _ + s.coalesced
        rw [hpending]
        simp only [List.length_cons, Bool.toNat_true] at howed
        simp only [List.tail_cons, Bool.toNat_false]
        omega

/-- Another observer is served. -/
theorem serveOther (h : s.Accounted) {fd : ℕ} {events : List ℕ} (left : Bool)
    (hother : fd ≠ s.usb) (hplace : s.place = .handling (fd :: events)) :
    (s.handle fd events left).Accounted := by
  have hevents := events_of_handling hplace
  have hserved : s.epollWorker.Fetched (fd :: events) := hevents ▸ h.fetched
  have hfetched : (s.handle fd events left).fetched = s.fetched := by
    rw [Bool.eq_iff_iff, fetched_iff, fetched_iff, hevents, List.mem_cons, handle, if_neg hother]
    exact (or_iff_right hother.symm).symm
  have hnoticed : (s.handle fd events left).noticed = s.noticed := by
    rw [handle, if_neg hother]
    rfl
  refine ⟨?_, ?_, ?_⟩
  · rw [handle, if_neg hother]
    exact h.order
  · rw [handle, if_neg hother]
    exact hserved.serve
  · rw [edges, hfetched, hnoticed, handle, if_neg hother]
    exact h.owed

/-- Every step of the thread. -/
theorem own {s' : UsbObserver} (h : s.Accounted) (hstep : OwnStep s s') : s'.Accounted := by
  cases hstep with
  | otherEvent fd other => exact h.otherEvent other
  | beginMonitor _ => exact h.beginMonitor
  | wait hplace => exact h.waitEPoll hplace
  | waitFails hplace => exact h.at_place (events_of_waiting hplace) (Or.inr rfl)
  | handle fd events left hplace =>
      by_cases hfd : fd = s.usb
      · subst hfd
        exact h.receive left hplace
      · exact h.serveOther left hfd hplace
  | process environment consumed stay hplace _ =>
      exact h.at_place (events_of_handling hplace) (Or.inl rfl)

/-- Every step. -/
theorem step {s' : UsbObserver} (h : s.Accounted) (hstep : Step s s') : s'.Accounted := by
  cases hstep with
  | arrive event => exact h.arrive event
  | own hstep => exact h.own hstep

end Accounted

/-- So the accounts are right in every state that is reached. -/
theorem accounted_of_run {usb : ℕ} {others : List ℕ} {s : UsbObserver}
    (hrun : Relation.ReflTransGen Step (new usb others) s) : s.Accounted :=
  Transition.invariant_of_run (I := Accounted) (fun h hstep => h.step hstep)
    (Accounted.new usb others) hrun

/-! ## What is left -/

/-- Once it has begun the loop goes on, and no event gets an edge of its own later. -/
structure Later (s s' : UsbObserver) : Prop where
  begun : s'.place ≠ .stopped
  coalesced : s.coalesced ≤ s'.coalesced

theorem coalesced_handle (fd : ℕ) (events : List ℕ) (left : Bool) (s : UsbObserver) :
    (s.handle fd events left).coalesced = s.coalesced := by
  rw [handle]
  split <;> rfl

theorem Later.step {first s s' : UsbObserver} (h : Later first s) (hstep : Step s s') :
    Later first s' := by
  obtain ⟨hbegun, hcoalesced⟩ := h
  cases hstep with
  | arrive event =>
      refine ⟨hbegun, hcoalesced.trans ?_⟩
      show s.coalesced ≤ if _ then s.coalesced else s.coalesced + 1
      split
      · exact Nat.le_refl _
      · exact Nat.le_succ _
  | own hstep =>
      cases hstep with
      | otherEvent fd other => exact ⟨hbegun, hcoalesced⟩
      | beginMonitor hstopped => exact absurd hstopped hbegun
      | wait _ => exact ⟨by rintro ⟨⟩, hcoalesced⟩
      | waitFails _ => exact ⟨by rintro ⟨⟩, hcoalesced⟩
      | handle fd events left _ =>
          rw [← coalesced_handle fd events left s] at hcoalesced
          exact ⟨by rintro ⟨⟩, hcoalesced⟩
      | process environment consumed stay _ _ => exact ⟨by rintro ⟨⟩, hcoalesced⟩

/-- **The backlog is never made up for.**  Where no edge is to come, as many events are unread as
have arrived without an edge of their own; from then on at least as many always are, and these are
the events that have arrived last. -/
theorem backlog_kept {usb : ℕ} {others : List ℕ} {s s' : UsbObserver}
    (hbefore : Relation.ReflTransGen Step (new usb others) s) (hbegun : s.place ≠ .stopped)
    (hedges : s.edges = 0) (hrun : Relation.ReflTransGen Step s s') :
    s.pending.length = s.coalesced ∧ s.pending.length ≤ s'.pending.length ∧
      s'.pending.length = s'.edges + s'.coalesced ∧
      s'.received = s'.arrived.take (s'.arrived.length - s'.pending.length) := by
  have hnow := accounted_of_run hbefore
  have hlater := accounted_of_run (hbefore.trans hrun)
  have hkept : Later s s' := Transition.invariant_of_run (I := Later s)
    (fun h hstep => h.step hstep) ⟨hbegun, le_refl _⟩ hrun
  have howed : s.pending.length = s.coalesced := by
    rw [hnow.owed, hedges, Nat.zero_add]
  refine ⟨howed, ?_, hlater.owed, ?_⟩
  · calc s.pending.length = s.coalesced := howed
      _ ≤ s'.coalesced := hkept.coalesced
      _ ≤ s'.pending.length := by
          rw [hlater.owed]
          exact Nat.le_add_left _ _
  · rw [hlater.order, List.length_append, Nat.add_sub_cancel, List.take_left']
    rfl

/-- Two mass storages are plugged in before the loop looks: the second is left. -/
def together : UsbObserver :=
  ((((new 3 [4]).beginMonitor.arrive (.add, ⟨1, "/a".toList⟩)).arrive
    (.add, ⟨2, "/b".toList⟩)).waitEPoll).handle 3 [] false

/-- Two events that arrive before the first is read. -/
theorem together_reachable : Relation.ReflTransGen Step (new 3 [4]) together :=
  ((((Relation.ReflTransGen.single (.own (.beginMonitor rfl))).tail (.arrive _)).tail
    (.arrive _)).tail (.own (.wait rfl))).tail (.own (.handle 3 [] false rfl))

/-- The first is removed: the event of the second is received in place of this one. -/
theorem backlog_kept_together :
    let removed := together.arrive (.remove, ⟨1, "/a".toList⟩)
    together.pending.length = together.coalesced ∧
      together.pending.length ≤ removed.pending.length ∧
      removed.pending.length = removed.edges + removed.coalesced ∧
      removed.received = removed.arrived.take (removed.arrived.length - removed.pending.length) :=
  backlog_kept together_reachable (by rintro ⟨⟩) (by decide)
    (Relation.ReflTransGen.single (.arrive _))

/-! ## The devices -/

/-- Only devices that have been plugged in are queued or have been consumed. -/
def Known (s : UsbObserver) : Prop :=
  ∀ dev, dev ∈ s.delayedDevices ∨ dev ∈ s.consumed → (.add, dev) ∈ s.received

/-- No other word of udev begins so. -/
theorem action_eq_add {action : UsbMassStorageMonitor.Action}
    (h : "add".toList <+: action.text) : action = .add := by
  revert h
  cases action <;> decide

/-- A device comes into the queue by an `add` event only. -/
theorem mem_handleIncommingEvents {received : Option UdevEvent}
    {delayedDevices : List RawDevice} {dev : RawDevice}
    (h : dev ∈ UsbMassStorageMonitor.handleIncommingEvents received delayedDevices) :
    dev ∈ delayedDevices ∨ received = some (.add, dev) := by
  cases received with
  | none => exact Or.inl h
  | some event =>
      obtain ⟨action, device⟩ := event
      rw [UsbMassStorageMonitor.handleIncommingEvents] at h
      split at h
      · rename_i hadd
        rw [action_eq_add hadd]
        rcases List.mem_append.1 h with hqueue | hnew
        · exact Or.inl hqueue
        · rw [List.mem_singleton] at hnew
          exact Or.inr (hnew ▸ rfl)
      · split at h
        · exact Or.inl (List.mem_of_mem_eraseP h)
        · exact Or.inl h

/-- Reading an event keeps what is known. -/
theorem Known.receive {s : UsbObserver} (h : s.Known) : s.receive.Known := by
  rintro dev (hqueue | hconsumed)
  · rcases mem_handleIncommingEvents hqueue with hqueue | hnew
    · exact List.mem_append_left _ (h dev (Or.inl hqueue))
    · refine List.mem_append_right _ ?_
      rw [hnew]
      exact List.mem_singleton_self _
  · exact List.mem_append_left _ (h dev (Or.inr hconsumed))

/-- So does a call of `process`, which consumes only devices from the queue. -/
theorem Known.process {s : UsbObserver} (h : s.Known) {environment : Environment}
    {consumed : List (RawDevice × UsbMassStorage)} {stay : List RawDevice}
    (hprocess : UsbMassStorageMonitor.Process environment s.delayedDevices consumed stay)
    (dev : RawDevice) (hdev : dev ∈ stay ∨ dev ∈ s.consumed ++ consumed.map Prod.fst) :
    (.add, dev) ∈ s.received := by
  obtain ⟨⟨visited, hvisited, hconsumed⟩, hstay⟩ := hprocess
  rcases hdev with hdev | hdev
  · exact h dev (Or.inl (List.mem_of_mem_filter (hstay.mem_iff.1 hdev)))
  · rcases List.mem_append.1 hdev with hdev | hdev
    · exact h dev (Or.inr hdev)
    · rw [hconsumed, List.map_map] at hdev
      obtain ⟨device, hdevice, rfl⟩ := List.mem_map.1 hdev
      exact h device (Or.inl (hvisited.mem_iff.1 (List.mem_of_mem_filter hdevice)))

theorem Known.own {s s' : UsbObserver} (h : s.Known) (hstep : OwnStep s s') : s'.Known := by
  cases hstep with
  | otherEvent fd other => exact h
  | beginMonitor _ => exact h
  | wait _ => exact h
  | waitFails _ => exact h
  | handle fd events left _ =>
      rw [handle]
      split
      · exact h.receive
      · exact h
  | process environment consumed stay _ hprocess => exact h.process hprocess

theorem Known.step {s s' : UsbObserver} (h : s.Known) (hstep : Step s s') : s'.Known := by
  cases hstep with
  | arrive event => exact h
  | own hstep => exact h.own hstep

/-- No edge is to come, and nothing has been read since `first`. -/
structure Quiet (first s : UsbObserver) : Prop where
  begun : s.place ≠ .stopped
  accounted : s.Accounted
  known : s.Known
  edges : s.edges = 0
  pending : s.pending = first.pending
  received : s.received = first.received

theorem Quiet.own {first s s' : UsbObserver} (h : Quiet first s) (hstep : OwnStep s s') :
    Quiet first s' := by
  have haccounted := h.accounted.own hstep
  have hknown := h.known.own hstep
  obtain ⟨hready, hevents⟩ := edges_eq_zero_iff.1 h.edges
  cases hstep with
  | otherEvent fd other =>
      refine ⟨h.begun, haccounted, hknown, ?_, h.pending, h.received⟩
      rw [edges_otherEvent other]
      exact h.edges
  | beginMonitor hstopped => exact absurd hstopped h.begun
  | wait hplace =>
      refine ⟨by rintro ⟨⟩, haccounted, hknown, ?_, h.pending, h.received⟩
      rw [edges_waitEPoll hplace fun hnoticed => absurd hnoticed hready]
      exact h.edges
  | waitFails hplace =>
      refine ⟨by rintro ⟨⟩, haccounted, hknown, ?_, h.pending, h.received⟩
      exact edges_eq_zero_iff.2 ⟨hready, List.not_mem_nil⟩
  | handle fd events left hplace =>
      -- the monitor's descriptor has not been fetched, so that another one is served
      rw [events_of_handling hplace, List.mem_cons, not_or] at hevents
      have hother : fd ≠ s.usb := Ne.symm hevents.1
      rw [handle, if_neg hother] at haccounted hknown ⊢
      refine ⟨by rintro ⟨⟩, haccounted, hknown, ?_, h.pending, h.received⟩
      exact edges_eq_zero_iff.2 ⟨hready, hevents.2⟩
  | process environment consumed stay hplace _ =>
      refine ⟨by rintro ⟨⟩, haccounted, hknown, ?_, h.pending, h.received⟩
      exact edges_eq_zero_iff.2 ⟨hready, List.not_mem_nil⟩

/-- **What is left waits for udev.**  Where no edge is to come, the loop reads nothing more,
whatever the other observers report and however often `process` runs: a device whose add event is
unread is neither queued nor given to the consumer. -/
theorem left_unread {usb : ℕ} {others : List ℕ} {s s' : UsbObserver}
    (hbefore : Relation.ReflTransGen Step (new usb others) s) (hbegun : s.place ≠ .stopped)
    (hedges : s.edges = 0) (hrun : Relation.ReflTransGen OwnStep s s') :
    s'.pending = s.pending ∧ ∀ dev, (.add, dev) ∉ s.received →
      dev ∉ s'.delayedDevices ∧ dev ∉ s'.consumed := by
  have hknown : s.Known := Transition.invariant_of_run (I := Known)
    (fun h hstep => h.step hstep) (fun _ h => by rcases h with h | h <;> cases h) hbefore
  have hquiet : Quiet s s' := Transition.invariant_of_run (I := Quiet s)
    (fun h hstep => h.own hstep)
    ⟨hbegun, accounted_of_run hbefore, hknown, hedges, rfl, rfl⟩ hrun
  refine ⟨hquiet.pending, fun dev hdev => not_or.1 fun hin => hdev ?_⟩
  rw [← hquiet.received]
  exact hquiet.known dev hin

/-- A disk that is mounted. -/
def disk : Environment := fun _ =>
  (some [⟨"/dev/sda".toList, "/media".toList⟩],
    { block := some "/dev/sda".toList, scsiDisk := true, usb := some ([], []) })

/-- The first mass storage is mounted and consumed. -/
def firstConsumed : UsbObserver :=
  { together with delayedDevices := [], consumed := [⟨1, "/a".toList⟩], place := .waiting }

/-- After one of them was read, the other is still there. -/
theorem left_unread_together :
    firstConsumed.pending = together.pending ∧
      ∀ dev, (.add, dev) ∉ together.received →
        dev ∉ firstConsumed.delayedDevices ∧ dev ∉ firstConsumed.consumed := by
  have hmounted (dev : RawDevice) : UsbMassStorageMonitor.isMounted disk dev = true := rfl
  have hprocess : UsbMassStorageMonitor.Process disk together.delayedDevices
      [(⟨1, "/a".toList⟩, UsbMassStorageMonitor.processed disk ⟨1, "/a".toList⟩)] [] := by
    refine ⟨⟨[⟨1, "/a".toList⟩], List.Perm.refl _, ?_⟩, ?_⟩
    · rw [List.filter_eq_self.2 fun dev _ => hmounted dev]
      rfl
    · rw [List.filter_eq_nil_iff.2 fun dev _ => by rw [hmounted dev]; decide]
  exact left_unread together_reachable (by rintro ⟨⟩) (by decide)
    (Relation.ReflTransGen.single (.process disk _ _ rfl hprocess))

end UsbObserver

end NewCPP.Deployment
