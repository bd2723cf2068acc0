import Mathlib.Logic.Function.Basic
import NewCPP.Library.EPoll
import NewCPP.Library.Transition
import NewCPP.Ipc.Socket

/-!
# The accept queues

`IpcConnectorUnix::loop`: up to ten events of the listening descriptors are fetched, and
for each of them `accept` is called once.

* `none_unaccepted` — where every event finds at most one connection in the queue, and
  `accept` returns it, or another event is to come, no connection stays in a queue without
  an event; and otherwise one does.

## Design notes

**Sockets.**  A socket is given by its place; so is its listening descriptor.

**The kernel.**  A connection is refused while more than the length that `listen` is called
with are queued.  Every other one raises an event, if the descriptor is registered.
`accept` fails as long as the process has no descriptor left.

**The invariant.**  A queue in which somebody waits is noticed or fetched, as in
`Library.EPoll`.  An `accept` that leaves somebody in the queue is what breaks it, since no new
edge comes for those who are there already.

**Exactness.**  The condition of `none_unaccepted` is asked at the calls of `accept` only;
arrivals and the other steps are free.
-/

namespace NewCPP.Ipc

open Library

universe u

variable {κ : Type u}

/-- Where the connector is between `bindSocket` and the end of a `loop`. -/
inductive AcceptPlace where
  | bound
  | waiting
  | handling (events : List ℕ)

/-- The connector and the queues of its sockets, `κ` being the clients. -/
structure AcceptQueues (κ : Type u) where
  sockets : List IpcSocket
  queue : ℕ → List κ := fun _ => []
  descriptorLeft : Bool := true
  epollWorker : EPoll ℕ := .empty
  place : AcceptPlace := .bound

namespace AcceptQueues

/-- At most so many events come from one wait. -/
def epoolEvents : ℕ := 10

/-- The length that `listen` asks for. -/
def numberOfQueuedRequestsBeforeRefuse : ℕ := 5

/-- Sockets that listen. -/
def new (created : List (String × String)) : AcceptQueues κ :=
  { sockets := Sockets.create created }

/-- Somebody waits in the queue of the socket. -/
def live (s : AcceptQueues κ) (socket : ℕ) : Bool :=
  !(s.queue socket).isEmpty

/-- `start`. -/
def start (s : AcceptQueues κ) : AcceptQueues κ :=
  { s with
    epollWorker := s.epollWorker.addAll (List.range s.sockets.length) s.live
    place := .waiting }

/-- The thread waits, and goes on with the events it was given. -/
def waitEPoll (s : AcceptQueues κ) : AcceptQueues κ :=
  let waited := s.epollWorker.wait epoolEvents s.live
  { s with epollWorker := waited.2, place := .handling waited.1 }

/-- The handler of an event; `result` is the descriptor that `accept` returns unless it
fails. -/
def accept (socket : ℕ) (events : List ℕ) (result : ℕ) (s : AcceptQueues κ) : AcceptQueues κ :=
  match s.descriptorLeft, s.queue socket with
  | true, _ :: queue =>
      { s with
        sockets := s.sockets.modify socket (IpcSocket.addClientDecriptor result)
        queue := Function.update s.queue socket queue
        place := .handling events }
  | _, _ => { s with place := .handling events }

/-- A client connects and is not refused. -/
def connect (socket : ℕ) (client : κ) (s : AcceptQueues κ) : AcceptQueues κ :=
  { s with
    queue := Function.update s.queue socket (s.queue socket ++ [client])
    epollWorker := s.epollWorker.notify socket }

/-- **One step** of a client, of the process or of the connector. -/
inductive Step : AcceptQueues κ → AcceptQueues κ → Prop
  | connect {s : AcceptQueues κ} (socket : ℕ) (client : κ)
      (exists_socket : socket < s.sockets.length)
      (room : (s.queue socket).length ≤ numberOfQueuedRequestsBeforeRefuse) :
      Step s (s.connect socket client)
  | descriptors {s : AcceptQueues κ} (left : Bool) : Step s { s with descriptorLeft := left }
  | start {s : AcceptQueues κ} (bound : s.place = .bound) : Step s s.start
  | wait {s : AcceptQueues κ} (waiting : s.place = .waiting) : Step s s.waitEPoll
  | accept {s : AcceptQueues κ} (socket : ℕ) (events : List ℕ) (result : ℕ)
      (handling : s.place = .handling (socket :: events)) :
      Step s (s.accept socket events result)
  | loop {s : AcceptQueues κ} (handled : s.place = .handling []) :
      Step s { s with place := .waiting }

/-- The events that have been fetched and not handled. -/
def events (s : AcceptQueues κ) : List ℕ :=
  match s.place with
  | .handling events => events
  | _ => []

/-- An event of the socket has been noticed, or fetched and not handled. -/
def Pending (s : AcceptQueues κ) (socket : ℕ) : Prop :=
  socket ∈ s.epollWorker.ready ∨ socket ∈ s.events

instance (s : AcceptQueues κ) (socket : ℕ) : Decidable (s.Pending socket) :=
  inferInstanceAs (Decidable (_ ∨ _))

/-- Without a pending event there is no connection to accept. -/
def NoneUnaccepted (s : AcceptQueues κ) : Prop :=
  ∀ socket ∈ s.epollWorker.interest, ¬s.Pending socket → s.queue socket = []

/-- The step handles an event. -/
def Accepts (s s' : AcceptQueues κ) : Prop :=
  ∃ socket events result, s.place = .handling (socket :: events) ∧
    s' = s.accept socket events result

/-- The next `accept` takes the last connection of the queue, if there is any, or there is
another event to come. -/
def AcceptsLast (s : AcceptQueues κ) : Prop :=
  ∀ socket events, s.place = .handling (socket :: events) →
    (s.queue socket).length ≤ (if s.descriptorLeft then 1 else 0) ∨
      socket ∈ s.epollWorker.ready

/-! ## No connection stays in a queue -/

/-- Somebody waits. -/
theorem live_iff {s : AcceptQueues κ} {socket : ℕ} :
    s.live socket = true ↔ s.queue socket ≠ [] := by
  simp [live]

theorem events_of_bound {s : AcceptQueues κ} (h : s.place = .bound) : s.events = [] := by
  rw [events, h]

theorem events_of_waiting {s : AcceptQueues κ} (h : s.place = .waiting) : s.events = [] := by
  rw [events, h]

theorem events_of_handling {s : AcceptQueues κ} {fetched : List ℕ}
    (h : s.place = .handling fetched) : s.events = fetched := by
  rw [events, h]

/-- No event of a queue is missing. -/
def Noticed (s : AcceptQueues κ) : Prop :=
  s.epollWorker.Noticed s.events s.live

theorem Noticed.of_events {s : AcceptQueues κ} {fetched : List ℕ} (h : s.Noticed)
    (hevents : s.events = fetched) : s.epollWorker.Noticed fetched s.live :=
  hevents ▸ h

/-- Who is noticed or fetched is not left waiting. -/
theorem noneUnaccepted_of_noticed {s : AcceptQueues κ} (h : s.Noticed) : s.NoneUnaccepted := by
  intro socket hinterest hpending
  by_contra hqueue
  exact hpending (h socket hinterest (live_iff.2 hqueue))

section

variable (s : AcceptQueues κ) (socket : ℕ) (events : List ℕ) (result : ℕ)

@[simp] theorem epollWorker_accept :
    (s.accept socket events result).epollWorker = s.epollWorker := by
  rw [accept]
  split <;> rfl

@[simp] theorem place_accept : (s.accept socket events result).place = .handling events := by
  rw [accept]
  split <;> rfl

@[simp] theorem events_accept : (s.accept socket events result).events = events := by
  rw [AcceptQueues.events, place_accept]

/-- The other queues are left alone. -/
theorem queue_accept_of_ne {other : ℕ} (h : other ≠ socket) :
    (s.accept socket events result).queue other = s.queue other := by
  rw [accept]
  split
  · exact Function.update_of_ne h _ _
  · rfl

/-- `accept` empties a queue that holds at most one connection. -/
theorem queue_accept_eq_nil_iff : (s.accept socket events result).queue socket = [] ↔
    (s.queue socket).length ≤ if s.descriptorLeft then 1 else 0 := by
  cases hleft : s.descriptorLeft with
  | false => simp [accept, hleft]
  | true =>
      cases hqueue : s.queue socket with
      | nil => simp [accept, hleft, hqueue]
      | cons client queue => simp [accept, hleft, hqueue]

end

/-- What every step keeps, where `accept` takes the last connection or another event is to
come. -/
theorem noticed_step {s s' : AcceptQueues κ} (h : s.Noticed)
    (haccepts : Accepts s s' → s.AcceptsLast) (hstep : Step s s') : s'.Noticed := by
  cases hstep with
  | connect socket client _ _ =>
      refine EPoll.Noticed.notify h fun other hne hlive => ?_
      rw [live_iff] at hlive ⊢
      simpa only [connect, Function.update_of_ne hne] using hlive
  | descriptors left => exact h
  | start hplace =>
      exact (h.of_events (events_of_bound hplace)).addAll (fun _ hlive => hlive) _
  | wait hplace => exact (h.of_events (events_of_waiting hplace)).wait (fun _ hlive => hlive) _
  | accept socket events result hplace =>
      have haccepts := haccepts ⟨socket, events, result, hplace, rfl⟩
      have hnoticed := h.of_events (events_of_handling hplace)
      rw [Noticed, epollWorker_accept, events_accept]
      refine hnoticed.serve (fun other hne hlive => ?_) fun hlive => ?_
      · rwa [live_iff, queue_accept_of_ne s socket events result hne, ← live_iff] at hlive
      · rw [live_iff, ne_eq, queue_accept_eq_nil_iff] at hlive
        exact Or.inl ((haccepts socket events hplace).resolve_left hlive)
  | loop hplace => exact h.of_events (events_of_handling hplace)

/-! ## Runs of the connector -/

/-- What was fetched is registered, each socket once. -/
def Fetched (s : AcceptQueues κ) : Prop :=
  s.epollWorker.Fetched s.events

theorem fetched_step {s s' : AcceptQueues κ} (h : s.Fetched) (hstep : Step s s') :
    s'.Fetched := by
  cases hstep with
  | connect socket client _ _ => exact EPoll.Fetched.notify h socket
  | descriptors left => exact h
  | start _ => exact .nil _
  | wait _ => exact .wait _ _ _
  | accept socket events result hplace =>
      rw [Fetched, events_of_handling hplace] at h
      rw [Fetched, events_accept, epollWorker_accept]
      exact h.serve
  | loop _ => exact .nil _

/-- An `accept` that leaves a connection, with no other event to come. -/
theorem exists_unaccepted {s : AcceptQueues κ} (h : s.Fetched) (haccepts : ¬s.AcceptsLast) :
    ∃ s', Step s s' ∧ ¬s'.NoneUnaccepted := by
  simp only [AcceptsLast, not_forall, not_or] at haccepts
  obtain ⟨socket, events, hplace, hlength, hready⟩ := haccepts
  rw [Fetched, events_of_handling hplace] at h
  refine ⟨_, .accept socket events 0 hplace, fun hnone => hlength ?_⟩
  rw [← queue_accept_eq_nil_iff s socket events 0]
  refine hnone socket ?_ ?_
  · rw [epollWorker_accept]
    exact h.interest socket List.mem_cons_self
  · rw [Pending, epollWorker_accept, events_accept, not_or]
    exact ⟨hready, h.not_mem_serve⟩

/-- **No connection is left unaccepted** in the runs in which every event that is handled finds
at most one connection, and a descriptor for it, or is followed by another event; and wherever
an event does not, a connection is left. -/
theorem none_unaccepted (created : List (String × String)) :
    (∀ s : AcceptQueues κ,
        Relation.ReflTransGen (Transition.restrictAt Step Accepts AcceptsLast) (new created) s →
          s.NoneUnaccepted) ∧
      ∀ s : AcceptQueues κ, Relation.ReflTransGen Step (new created) s → ¬s.AcceptsLast →
        ∃ s', Step s s' ∧ ¬s'.NoneUnaccepted := by
  constructor
  · intro s hrun
    have hnew : (new created : AcceptQueues κ).Noticed := EPoll.Noticed.empty _ _
    apply noneUnaccepted_of_noticed
    exact Transition.invariant_of_run_restrictAt (I := Noticed)
      (fun h haccepts hstep => noticed_step h haccepts hstep) hnew hrun
  · intro s hrun haccepts
    have hnew : (new created : AcceptQueues κ).Fetched := .nil _
    exact exists_unaccepted (Transition.invariant_of_run (I := Fetched)
      (fun h hstep => fetched_step h hstep) hnew hrun) haccepts

/-- One socket on which clients connect before the first `loop`. -/
def connected (clients : List ℕ) : AcceptQueues ℕ :=
  (clients.foldl (fun s client => s.connect 0 client) (new [("unix:/a", "a")])).start

theorem none_unaccepted_one : ((connected [1]).waitEPoll.accept 0 [] 5).NoneUnaccepted := by
  refine (none_unaccepted [("unix:/a", "a")]).1 _ ?_
  have hconnect : Transition.restrictAt Step Accepts AcceptsLast (new [("unix:/a", "a")])
      ((new [("unix:/a", "a")]).connect 0 1) :=
    ⟨.connect 0 1 (by decide) (by decide), by rintro ⟨_, _, _, ⟨⟩, _⟩⟩
  have hstart : Transition.restrictAt Step Accepts AcceptsLast
      ((new [("unix:/a", "a")]).connect 0 1) (connected [1]) :=
    ⟨.start rfl, by rintro ⟨_, _, _, ⟨⟩, _⟩⟩
  have hwait : Transition.restrictAt Step Accepts AcceptsLast (connected [1])
      (connected [1]).waitEPoll := ⟨.wait rfl, by rintro ⟨_, _, _, ⟨⟩, _⟩⟩
  refine (((Relation.ReflTransGen.single hconnect).tail hstart).tail hwait).tail ⟨?_, ?_⟩
  · exact .accept 0 [] 5 rfl
  · rintro - socket events ⟨⟩
    exact Or.inl (by decide)

/-- Two clients connect before one event is fetched, and only the first is accepted. -/
theorem not_none_unaccepted_two : ¬∀ (created : List (String × String)) (s : AcceptQueues ℕ),
    Relation.ReflTransGen Step (new created) s → s.NoneUnaccepted := by
  intro h
  have hrun : Relation.ReflTransGen Step (new [("unix:/a", "a")])
      ((connected [1, 2]).waitEPoll.accept 0 [] 5) :=
    ((((Relation.ReflTransGen.single (.connect 0 1 (by decide) (by decide))).tail
      (.connect 0 2 (by decide) (by decide))).tail (.start rfl)).tail (.wait rfl)).tail
      (.accept 0 [] 5 rfl)
  have hqueue := h _ _ hrun 0 (by decide) (by decide)
  revert hqueue
  decide

end AcceptQueues

end NewCPP.Ipc
