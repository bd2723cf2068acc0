import Mathlib.Data.List.Basic
import Mathlib.Logic.Function.Basic
import Mathlib.Logic.Relation
import Mathlib.Tactic.Common
import NewCPP.Library.EPoll
import NewCPP.Library.Transition
import NewCPP.Ipc.Socket

/-!
# The receiver

`IpcReceiverUnix::loop`: the clients that have come or gone are registered with `epoll` or
taken out of it, up to ten events are fetched, for each event the descriptor is read once
into the buffer and what was read is dispatched, and the clients that have hung up are
dropped from their sockets.

* `dispatched_isPrefix` — no byte is dispatched twice or out of order.
* `no_byte_left` — where every read finds at most as many bytes as the buffer holds, or
  more to come, no byte is left behind; and otherwise one is.  The descriptors are
  edge-triggered, and what a read leaves raises no event.

## Design notes

**The kernel.**  A connection keeps the bytes that have not been read.  Data and a hang-up
are noticed by `epoll` if the descriptor is registered; when it is registered, `epoll`
notices what is already there.

**Reading.**  A `read` of a connection with unread bytes returns as many of them as fit.
Events are only raised for connections with unread bytes or a hang-up, so that no `read`
blocks.

**Interleaving.**  The clients may write and hang up, and clients may be accepted, between
any two steps of the receiver.  The receiver closes no descriptor, so that `accept` returns
one that it has not returned before.
-/

namespace NewCPP.Ipc

open Library
open Sockets (Listed findParent collectDescriptors difference)

universe u

variable {β : Type u}

/-- What the kernel holds for a connection. -/
structure Connection (β : Type u) where
  /-- All the bytes that have arrived. -/
  arrived : List β := []
  unread : List β := []
  hungUp : Bool := false

/-- There is something to report. -/
def Connection.live (connection : Connection β) : Bool :=
  !connection.unread.isEmpty || connection.hungUp

/-- An `epoll_event`. -/
structure Event where
  fd : ℕ
  epollIn : Bool
  /-- `EPOLLHUP` or `EPOLLRDHUP`. -/
  epollHup : Bool

/-- Where the receiver is in `loop`. -/
inductive ReceiverPlace where
  | start
  | validated
  | handling (events : List Event) (dropDescriptors : List ℕ)

/-- A call of `dispatchData`. -/
structure Dispatched (β : Type u) where
  data : List β
  socketName : String
  fd : ℕ

/-- The members of the class, the connections, and where the thread is in its loop. -/
structure Receiver (β : Type u) where
  sockets : List IpcSocket
  /-- What `accept` has returned. -/
  accepted : List ℕ := []
  connections : ℕ → Connection β := fun _ => {}
  epollWorker : EPoll ℕ := .empty
  managedDescriptors : List (ℕ × String) := []
  place : ReceiverPlace := .start
  dispatched : List (Dispatched β) := []

namespace Receiver

/-- At most so many events come from one wait. -/
def epoolEvents : ℕ := 10

/-- There is something to report of the descriptor. -/
def live (r : Receiver β) (fd : ℕ) : Bool := (r.connections fd).live

/-- The epoll instance is brought in line with the client lists. -/
def validateEPoll (r : Receiver β) : Receiver β :=
  let allCurrent := collectDescriptors r.sockets
  let removed := difference r.managedDescriptors allCurrent
  let added := difference allCurrent r.managedDescriptors
  { r with
    epollWorker := (r.epollWorker.delAll removed).addAll added r.live
    managedDescriptors := allCurrent
    place := .validated }

/-- The event that is reported for a descriptor. -/
def event (r : Receiver β) (fd : ℕ) : Event :=
  { fd := fd, epollIn := r.live fd, epollHup := (r.connections fd).hungUp }

/-- The thread waits, and goes on with the events it was given. -/
def waitEPoll (r : Receiver β) : Receiver β :=
  let waited := r.epollWorker.wait epoolEvents r.live
  { r with epollWorker := waited.2, place := .handling (waited.1.map r.event) [] }

/-- The name under which a descriptor is managed. -/
def socketName (r : Receiver β) (fd : ℕ) : Option String :=
  (r.managedDescriptors.find? fun pair => pair.1 = fd).map Prod.snd

/-- What is read of a descriptor is dispatched, if it is managed. -/
def readData (capacity fd : ℕ) (r : Receiver β) : Receiver β :=
  let connection := r.connections fd
  let readBytes := connection.unread.take capacity
  let connections := Function.update r.connections fd
    { connection with unread := connection.unread.drop capacity }
  if readBytes.isEmpty then { r with connections := connections }
  else
    match r.socketName fd with
    | none => { r with connections := connections }
    | some name => { r with
        connections := connections
        dispatched := r.dispatched ++ [⟨readBytes, name, fd⟩] }

/-- The descriptors to drop, after an event. -/
def dropAfter (event : Event) (dropDescriptors : List ℕ) : List ℕ :=
  if event.epollHup then dropDescriptors ++ [event.fd] else dropDescriptors

/-- The handler of an event. -/
def handle (capacity : ℕ) (event : Event) (events : List Event) (dropDescriptors : List ℕ)
    (r : Receiver β) : Receiver β :=
  let handled := if event.epollIn then r.readData capacity event.fd else r
  { handled with place := .handling events (dropAfter event dropDescriptors) }

/-- A client that has hung up is dropped from its socket. -/
def purgeSocket (sockets : List IpcSocket) (clientDescr : ℕ) : List IpcSocket :=
  match findParent sockets clientDescr with
  | none => sockets
  | some parent => sockets.modify parent (IpcSocket.removeClientDescriptor clientDescr)

/-- The descriptors that hung up are taken off the client lists. -/
def purgeSockets (dropDescriptors : List ℕ) (r : Receiver β) : Receiver β :=
  { r with sockets := dropDescriptors.foldl purgeSocket r.sockets, place := .start }

/-- Bytes arrive on a descriptor. -/
def arrive (fd : ℕ) (bytes : List β) (r : Receiver β) : Receiver β :=
  let connection := r.connections fd
  { r with
    connections := Function.update r.connections fd { connection with
      arrived := connection.arrived ++ bytes
      unread := connection.unread ++ bytes }
    epollWorker := r.epollWorker.notify fd }

/-- A client hangs up. -/
def hangUp (fd : ℕ) (r : Receiver β) : Receiver β :=
  { r with
    connections := Function.update r.connections fd { r.connections fd with hungUp := true }
    epollWorker := r.epollWorker.notify fd }

/-- The connector accepts a client on a socket; the client may have written already. -/
def accept (index fd : ℕ) (bytes : List β) (hungUp : Bool) (r : Receiver β) : Receiver β :=
  { r with
    sockets := r.sockets.modify index (IpcSocket.addClientDecriptor fd)
    accepted := fd :: r.accepted
    connections := Function.update r.connections fd
      { arrived := bytes, unread := bytes, hungUp := hungUp } }

/-- **One step** of a client, of the connector or of the receiver. -/
inductive Step (capacity : ℕ) : Receiver β → Receiver β → Prop
  | accept {r : Receiver β} (index fd : ℕ) (bytes : List β) (hungUp : Bool)
      (socket : index < r.sockets.length) (fresh : fd ∉ r.accepted) :
      Step capacity r (r.accept index fd bytes hungUp)
  | write {r : Receiver β} (fd : ℕ) (bytes : List β) (some_bytes : bytes ≠ [])
      (accepted : fd ∈ r.accepted) (connected : (r.connections fd).hungUp = false) :
      Step capacity r (r.arrive fd bytes)
  | close {r : Receiver β} (fd : ℕ) (accepted : fd ∈ r.accepted)
      (connected : (r.connections fd).hungUp = false) : Step capacity r (r.hangUp fd)
  | validate {r : Receiver β} (start : r.place = .start) : Step capacity r r.validateEPoll
  | wait {r : Receiver β} (validated : r.place = .validated) : Step capacity r r.waitEPoll
  | waitFails {r : Receiver β} (validated : r.place = .validated) :
      Step capacity r { r with place := .start }
  | handle {r : Receiver β} (event : Event) (events : List Event) (dropDescriptors : List ℕ)
      (handling : r.place = .handling (event :: events) dropDescriptors) :
      Step capacity r (r.handle capacity event events dropDescriptors)
  | purge {r : Receiver β} (dropDescriptors : List ℕ)
      (handled : r.place = .handling [] dropDescriptors) :
      Step capacity r (r.purgeSockets dropDescriptors)

/-- A receiver that has just been constructed, for sockets with URIs and names. -/
def new (created : List (String × String)) : Receiver β :=
  { sockets := Sockets.create created }

/-- The events that have been fetched and not handled. -/
def events (r : Receiver β) : List Event :=
  match r.place with
  | .handling events _ => events
  | _ => []

/-- Those that have hung up so far in this round. -/
def dropDescriptors (r : Receiver β) : List ℕ :=
  match r.place with
  | .handling _ dropDescriptors => dropDescriptors
  | _ => []

/-- The bytes that have been dispatched for a descriptor. -/
def dispatchedOn (r : Receiver β) (fd : ℕ) : List β :=
  (r.dispatched.filter fun dispatch => dispatch.fd = fd).flatMap Dispatched.data

/-- An event of the descriptor has been noticed, or fetched and not handled. -/
def Pending (r : Receiver β) (fd : ℕ) : Prop :=
  fd ∈ r.epollWorker.ready ∨ fd ∈ r.events.map Event.fd

/-- All bytes of a descriptor without a pending event, or that was dropped, have been
dispatched. -/
def NoByteLeft (r : Receiver β) : Prop :=
  ∀ fd ∈ r.accepted, (fd ∈ r.epollWorker.interest ∧ ¬r.Pending fd) ∨ ¬Listed r.sockets fd →
    r.dispatchedOn fd = (r.connections fd).arrived

/-- The step handles an event. -/
def Handles (capacity : ℕ) (r r' : Receiver β) : Prop :=
  ∃ event events dropDescriptors, r.place = .handling (event :: events) dropDescriptors ∧
    r' = r.handle capacity event events dropDescriptors

/-- The next read takes all unread bytes, or there is another event to come. -/
def ReadsAll (capacity : ℕ) (r : Receiver β) : Prop :=
  ∀ event events dropDescriptors, r.place = .handling (event :: events) dropDescriptors →
    (r.connections event.fd).unread.length ≤ capacity ∨ event.fd ∈ r.epollWorker.ready

/-! ## What the steps do -/

section

variable (capacity : ℕ) (r : Receiver β)

/-- Reading a descriptor only changes its connection and what was dispatched. -/
theorem readData_frame (fd : ℕ) :
    let read := r.readData capacity fd
    read.sockets = r.sockets ∧ read.accepted = r.accepted ∧ read.epollWorker = r.epollWorker ∧
      read.managedDescriptors = r.managedDescriptors ∧
      read.connections = Function.update r.connections fd
        { r.connections fd with unread := (r.connections fd).unread.drop capacity } := by
  dsimp only [readData]
  split
  · simp
  · split <;> simp

/-- A read does not make a peer hang up. -/
theorem hungUp_readData (fd other : ℕ) :
    ((r.readData capacity fd).connections other).hungUp = (r.connections other).hungUp := by
  rw [(readData_frame capacity r fd).2.2.2.2]
  by_cases h : other = fd
  · subst h
    simp
  · simp [h]

/-- A readable descriptor is read, and dropped afterwards if it hung up. -/
theorem handle_eq {capacity : ℕ} {r : Receiver β} {event : Event} {events : List Event}
    {dropDescriptors : List ℕ} (hpollin : event.epollIn = true) :
    r.handle capacity event events dropDescriptors =
      { r.readData capacity event.fd with
        place := .handling events (dropAfter event dropDescriptors) } := by
  rw [handle, if_pos hpollin]

/-- Only what hung up is dropped. -/
theorem mem_dropAfter {event : Event} {dropDescriptors : List ℕ} {fd : ℕ}
    (h : fd ∈ dropAfter event dropDescriptors) :
    fd ∈ dropDescriptors ∨ fd = event.fd ∧ event.epollHup = true := by
  rw [dropAfter] at h
  split at h
  · rename_i hhup
    simpa [hhup] using h
  · exact Or.inl h

theorem dispatchedOn_append (dispatch : Dispatched β) (fd : ℕ) :
    { r with dispatched := r.dispatched ++ [dispatch] }.dispatchedOn fd =
      r.dispatchedOn fd ++ if dispatch.fd = fd then dispatch.data else [] := by
  simp only [dispatchedOn, List.filter_append, List.flatMap_append]
  by_cases h : dispatch.fd = fd <;> simp [h]

/-- What is read of a managed descriptor is dispatched. -/
theorem dispatched_readData {fd : ℕ} (hmanaged : ∃ name, (fd, name) ∈ r.managedDescriptors) :
    (∀ other, (r.readData capacity fd).dispatchedOn other = r.dispatchedOn other ++
      if fd = other then (r.connections fd).unread.take capacity else []) ∧
      ∀ dispatch ∈ (r.readData capacity fd).dispatched,
        dispatch ∈ r.dispatched ∨ dispatch.fd = fd := by
  have hname : ∃ name, r.socketName fd = some name := by
    obtain ⟨name, hname⟩ := hmanaged
    rw [socketName]
    cases hfind : r.managedDescriptors.find? fun pair => pair.1 = fd with
    | none => exact absurd (List.find?_eq_none.1 hfind _ hname) (by simp)
    | some pair => exact ⟨pair.2, rfl⟩
  obtain ⟨name, hname⟩ := hname
  dsimp only [readData]
  split
  · rename_i hempty
    rw [List.isEmpty_iff] at hempty
    rw [hempty]
    exact ⟨fun other => by simp [dispatchedOn], fun dispatch h => Or.inl h⟩
  · rw [hname]
    refine ⟨fun other => dispatchedOn_append r _ other, fun dispatch h => ?_⟩
    rcases List.mem_append.1 h with h | h
    · exact Or.inl h
    · exact Or.inr (by simp [List.mem_singleton.1 h])

/-- A purge takes off the dropped clients and no others. -/
theorem listed_purgeSockets (dropDescriptors : List ℕ) {fd : ℕ} :
    ∀ sockets : List IpcSocket, (Listed (dropDescriptors.foldl purgeSocket sockets) fd →
      Listed sockets fd) ∧ (Listed sockets fd → fd ∉ dropDescriptors →
        Listed (dropDescriptors.foldl purgeSocket sockets) fd) := by
  induction dropDescriptors with
  | nil => exact fun sockets => ⟨id, fun h _ => h⟩
  | cons first rest ih =>
      intro sockets
      have hfirst : (Listed (purgeSocket sockets first) fd → Listed sockets fd) ∧
          (Listed sockets fd → fd ≠ first → Listed (purgeSocket sockets first) fd) := by
        rw [purgeSocket]
        split
        · exact ⟨id, fun h _ => h⟩
        · rename_i parent _
          constructor
          · rintro ⟨index, h⟩
            exact ⟨index, ((Sockets.mem_clients_remove _ _ _ _ _).1 h).1⟩
          · rintro ⟨index, h⟩ hne
            exact ⟨index, (Sockets.mem_clients_remove _ _ _ _ _).2 ⟨h, fun heq => hne heq.2⟩⟩
      constructor
      · exact fun h => hfirst.1 ((ih _).1 h)
      · intro h hmem
        rw [List.mem_cons, not_or] at hmem
        exact (ih _).2 (hfirst.2 h hmem.1) hmem.2

end

/-! ## Every byte is dispatched once and in order -/

/-- What holds of the events that have been fetched and the descriptors to drop. -/
structure Fetched (r : Receiver β) : Prop where
  interest : ∀ event ∈ r.events, event.fd ∈ r.epollWorker.interest
  nodup : (r.events.map Event.fd).Nodup
  pollin : ∀ event ∈ r.events, event.epollIn = true
  /-- After a hang-up nothing else happens to a descriptor. -/
  hungUp : ∀ event ∈ r.events, event.epollHup = true →
    (r.connections event.fd).hungUp = true ∧ event.fd ∉ r.epollWorker.ready
  drops : ∀ fd ∈ r.dropDescriptors, fd ∈ r.accepted

/-- What holds in every state that can be reached. -/
structure Inv (r : Receiver β) : Prop where
  managed : ∀ fd ∈ r.epollWorker.interest, ∃ name, (fd, name) ∈ r.managedDescriptors
  managed_accepted : ∀ pair ∈ r.managedDescriptors, pair.1 ∈ r.accepted
  listed_accepted : ∀ fd, Listed r.sockets fd → fd ∈ r.accepted
  dispatched_accepted : ∀ dispatch ∈ r.dispatched, dispatch.fd ∈ r.accepted
  fetched : r.Fetched
  bytes : ∀ fd, r.dispatchedOn fd ++ (r.connections fd).unread = (r.connections fd).arrived

theorem fetched_nil {r : Receiver β} (hevents : r.events = [])
    (hdrops : r.dropDescriptors = []) : r.Fetched := by
  constructor <;> simp [hevents, hdrops]

/-- Nobody has connected yet. -/
theorem inv_new (created : List (String × String)) : (new created : Receiver β).Inv where
  managed := by simp [new, EPoll.empty]
  managed_accepted := by simp [new]
  listed_accepted := by
    rintro fd ⟨index, h⟩
    simp [new, Sockets.clients_create] at h
  dispatched_accepted := by simp [new]
  fetched := fetched_nil rfl rfl
  bytes := by simp [new, dispatchedOn]

/-- The events that have been fetched are of registered, hence of accepted descriptors. -/
theorem Inv.interest_accepted {r : Receiver β} (hinv : r.Inv) {fd : ℕ}
    (hfd : fd ∈ r.epollWorker.interest) : fd ∈ r.accepted := by
  obtain ⟨name, hname⟩ := hinv.managed fd hfd
  exact hinv.managed_accepted _ hname

/-- After `ValidateEPoll` only current clients are registered. -/
theorem managed_validateEPoll {r : Receiver β} (hinv : r.Inv) :
    ∀ fd ∈ r.validateEPoll.epollWorker.interest,
      ∃ name, (fd, name) ∈ collectDescriptors r.sockets := by
  intro fd hfd
  dsimp only [validateEPoll] at hfd
  rw [EPoll.mem_interest_addAll, (EPoll.mem_delAll _ _ _).1] at hfd
  rcases hfd with ⟨hinterest, hkept⟩ | hadded
  · obtain ⟨name, hname⟩ := hinv.managed fd hinterest
    refine ⟨name, ?_⟩
    by_contra hgone
    exact hkept ((Sockets.mem_difference _ _ fd).2 ⟨name, hname, hgone⟩)
  · obtain ⟨name, hname, _⟩ := (Sockets.mem_difference _ _ fd).1 hadded
    exact ⟨name, hname⟩

/-- One event less is to be handled. -/
theorem fetched_handle {capacity : ℕ} {r : Receiver β} {event : Event} {events : List Event}
    {dropDescriptors : List ℕ} (hinv : r.Inv)
    (hplace : r.place = .handling (event :: events) dropDescriptors) :
    (r.handle capacity event events dropDescriptors).Fetched := by
  have hevents : r.events = event :: events := by rw [Receiver.events, hplace]
  have hdrops : r.dropDescriptors = dropDescriptors := by rw [Receiver.dropDescriptors, hplace]
  have hmem : ∀ other ∈ events, other ∈ r.events := fun other h => by simp [hevents, h]
  have hpollin := hinv.fetched.pollin event (by simp [hevents])
  have hinterest := hinv.fetched.interest event (by simp [hevents])
  obtain ⟨_, haccepted, hepoll, _, _⟩ := readData_frame capacity r event.fd
  rw [handle_eq hpollin]
  constructor
  case interest =>
    intro other hother
    show other.fd ∈ (r.readData capacity event.fd).epollWorker.interest
    rw [hepoll]
    exact hinv.fetched.interest other (hmem other hother)
  case nodup =>
    have hnodup := hinv.fetched.nodup
    rw [hevents] at hnodup
    exact (List.nodup_cons.1 hnodup).2
  case pollin => exact fun other hother => hinv.fetched.pollin other (hmem other hother)
  case hungUp =>
    intro other hother hhup
    show ((r.readData capacity event.fd).connections other.fd).hungUp = true ∧
      other.fd ∉ (r.readData capacity event.fd).epollWorker.ready
    rw [hepoll, hungUp_readData]
    exact hinv.fetched.hungUp other (hmem other hother) hhup
  case drops =>
    intro fd hfd
    show fd ∈ (r.readData capacity event.fd).accepted
    rw [haccepted]
    rcases mem_dropAfter hfd with hfd | ⟨rfl, _⟩
    · exact hinv.fetched.drops fd (by rwa [hdrops])
    · exact hinv.interest_accepted hinterest

/-- Handling an event keeps the invariant. -/
theorem inv_handle {capacity : ℕ} {r : Receiver β} {event : Event} {events : List Event}
    {dropDescriptors : List ℕ} (hinv : r.Inv)
    (hplace : r.place = .handling (event :: events) dropDescriptors) :
    (r.handle capacity event events dropDescriptors).Inv := by
  have hevents : r.events = event :: events := by rw [Receiver.events, hplace]
  have hpollin := hinv.fetched.pollin event (by simp [hevents])
  have hinterest := hinv.fetched.interest event (by simp [hevents])
  have hfetched : (r.handle capacity event events dropDescriptors).Fetched :=
    fetched_handle hinv hplace
  obtain ⟨hsockets, haccepted, hepoll, hmanaged, hconnections⟩ :=
    readData_frame capacity r event.fd
  obtain ⟨hdispatched, hnew⟩ := dispatched_readData capacity r (hinv.managed _ hinterest)
  rw [handle_eq hpollin] at hfetched ⊢
  constructor
  case managed => simpa [hepoll, hmanaged] using hinv.managed
  case managed_accepted => simpa [haccepted, hmanaged] using hinv.managed_accepted
  case listed_accepted => simpa [haccepted, hsockets] using hinv.listed_accepted
  case dispatched_accepted =>
    intro dispatch hdispatch
    show dispatch.fd ∈ (r.readData capacity event.fd).accepted
    rw [haccepted]
    rcases hnew dispatch hdispatch with hold | hfd
    · exact hinv.dispatched_accepted dispatch hold
    · rw [hfd]
      exact hinv.interest_accepted hinterest
  case fetched => exact hfetched
  case bytes =>
    intro fd
    show (r.readData capacity event.fd).dispatchedOn fd ++
      ((r.readData capacity event.fd).connections fd).unread =
        ((r.readData capacity event.fd).connections fd).arrived
    rw [hdispatched, hconnections]
    by_cases hfd : event.fd = fd
    · subst hfd
      simp [← hinv.bytes event.fd]
    · simp [hfd, Ne.symm hfd, ← hinv.bytes fd]

/-- A new descriptor keeps it. -/
theorem inv_accept {r : Receiver β} {fd : ℕ} (hinv : r.Inv) (hfresh : fd ∉ r.accepted)
    (index : ℕ) (bytes : List β) (hungUp : Bool) : (r.accept index fd bytes hungUp).Inv := by
  constructor
  case managed => exact hinv.managed
  case managed_accepted =>
    exact fun pair hpair => List.mem_cons_of_mem _ (hinv.managed_accepted pair hpair)
  case listed_accepted =>
    rintro other ⟨place, hother⟩
    rcases (Sockets.mem_clients_add _ _ _ _ _).1 hother with hother | ⟨_, _, rfl⟩
    · exact List.mem_cons_of_mem _ (hinv.listed_accepted other ⟨place, hother⟩)
    · exact List.mem_cons_self ..
  case dispatched_accepted =>
    exact fun dispatch h => List.mem_cons_of_mem _ (hinv.dispatched_accepted dispatch h)
  case fetched =>
    refine { hinv.fetched with hungUp := ?_, drops := ?_ }
    · intro event hevent hhup
      have hfd := hinv.interest_accepted (hinv.fetched.interest event hevent)
      show (Function.update r.connections fd _ event.fd).hungUp = true ∧ _
      rw [Function.update_of_ne (ne_of_mem_of_not_mem hfd hfresh)]
      exact hinv.fetched.hungUp event hevent hhup
    · exact fun other h => List.mem_cons_of_mem _ (hinv.fetched.drops other h)
  case bytes =>
    intro other
    show r.dispatchedOn other ++ (Function.update r.connections fd _ other).unread =
      (Function.update r.connections fd _ other).arrived
    by_cases hother : other = fd
    · subst hother
      have hnone : r.dispatchedOn other = [] := by
        rw [dispatchedOn, List.flatMap_eq_nil_iff]
        intro dispatch h
        rw [List.mem_filter] at h
        have hne := ne_of_mem_of_not_mem (hinv.dispatched_accepted dispatch h.1) hfresh
        exact absurd (by simpa using h.2) hne
      simp [hnone]
    · rw [Function.update_of_ne hother]
      exact hinv.bytes other

/-- What happens to a descriptor that has not been hung up keeps the invariant. -/
theorem inv_update {r : Receiver β} {fd : ℕ} (hinv : r.Inv) (connection : Connection β)
    (hconnected : (r.connections fd).hungUp = false)
    (hbytes : r.dispatchedOn fd ++ connection.unread = connection.arrived) :
    { r with
      connections := Function.update r.connections fd connection
      epollWorker := r.epollWorker.notify fd }.Inv := by
  constructor
  case managed => simpa using hinv.managed
  case managed_accepted => exact hinv.managed_accepted
  case listed_accepted => exact hinv.listed_accepted
  case dispatched_accepted => exact hinv.dispatched_accepted
  case fetched =>
    refine { hinv.fetched with interest := ?_, hungUp := ?_ }
    · intro event hevent
      rw [EPoll.interest_notify]
      exact hinv.fetched.interest event hevent
    · intro event hevent hhup
      obtain ⟨hhungUp, hready⟩ := hinv.fetched.hungUp event hevent hhup
      have hne : event.fd ≠ fd := by
        rintro rfl
        rw [hconnected] at hhungUp
        cases hhungUp
      rw [EPoll.mem_ready_notify]
      simp [hne, hhungUp, hready]
  case bytes =>
    intro other
    show r.dispatchedOn other ++ (Function.update r.connections fd connection other).unread =
      (Function.update r.connections fd connection other).arrived
    by_cases hother : other = fd
    · subst hother
      simpa using hbytes
    · rw [Function.update_of_ne hother]
      exact hinv.bytes other

/-- What was fetched is what the wait returned. -/
theorem fetched_waitEPoll (r : Receiver β) : r.waitEPoll.Fetched := by
  have hevents : r.waitEPoll.events =
      (r.epollWorker.wait epoolEvents r.live).1.map r.event := rfl
  constructor
  case interest =>
    rw [hevents, List.forall_mem_map]
    exact fun fd hfd => r.epollWorker.subset (EPoll.mem_ready_of_mem_wait hfd)
  case nodup =>
    rw [hevents, List.map_map]
    simpa [Function.comp_def, event] using EPoll.nodup_wait
  case pollin =>
    rw [hevents, List.forall_mem_map]
    intro fd hfd
    show r.live fd = true
    exact EPoll.live_of_mem_wait hfd
  case hungUp =>
    rw [hevents, List.forall_mem_map]
    exact fun fd hfd hhup => ⟨hhup, EPoll.not_mem_ready_of_mem_wait hfd⟩
  case drops => rintro fd ⟨⟩

/-- **Every step** keeps the bytes of each descriptor together and in order. -/
theorem inv_step {capacity : ℕ} {r r' : Receiver β} (hinv : r.Inv)
    (hstep : Step capacity r r') : r'.Inv := by
  cases hstep with
  | accept index fd bytes hungUp _ hfresh => exact inv_accept hinv hfresh index bytes hungUp
  | write fd bytes _ _ hconnected =>
      refine inv_update hinv _ hconnected ?_
      rw [← hinv.bytes fd, List.append_assoc]
  | close fd _ hconnected => exact inv_update hinv _ hconnected (hinv.bytes fd)
  | validate _ =>
      refine { hinv with
        managed := managed_validateEPoll hinv
        managed_accepted := ?_
        fetched := fetched_nil rfl rfl }
      rintro ⟨fd, name⟩ hpair
      exact hinv.listed_accepted fd ((Sockets.mem_collectDescriptors _ _).1 ⟨name, hpair⟩)
  | wait _ => exact { hinv with fetched := fetched_waitEPoll r }
  | waitFails _ => exact { hinv with fetched := fetched_nil rfl rfl }
  | handle event events dropDescriptors hplace => exact inv_handle hinv hplace
  | purge dropDescriptors _ =>
      exact { hinv with
        listed_accepted := fun fd h =>
          hinv.listed_accepted fd ((listed_purgeSockets dropDescriptors _).1 h)
        fetched := fetched_nil rfl rfl }

/-- **In every run** what was dispatched for a descriptor is the beginning of what has
arrived on it. -/
theorem dispatched_isPrefix {capacity : ℕ} {created : List (String × String)} {r : Receiver β}
    (hrun : Relation.ReflTransGen (Step capacity) (new created) r) (fd : ℕ) :
    r.dispatchedOn fd <+: (r.connections fd).arrived := by
  have hinv : r.Inv := Transition.invariant_of_run (I := Inv) inv_step (inv_new created) hrun
  exact ⟨(r.connections fd).unread, hinv.bytes fd⟩

/-! ## No byte is left behind -/

/-- The client has hung up and all it has written was read. -/
def Finished (r : Receiver β) (fd : ℕ) : Prop :=
  (r.connections fd).unread = [] ∧ (r.connections fd).hungUp = true

/-- What holds as long as every read takes all unread bytes, or another event is to come. -/
structure Complete (r : Receiver β) : Prop where
  pending : ∀ fd ∈ r.epollWorker.interest, (r.connections fd).unread ≠ [] → r.Pending fd
  dropped : ∀ fd ∈ r.accepted, fd ∈ r.dropDescriptors ∨ ¬Listed r.sockets fd → r.Finished fd

/-- There is nothing to be read yet. -/
theorem complete_new (created : List (String × String)) :
    (new created : Receiver β).Complete where
  pending := by simp [new, EPoll.empty]
  dropped := by simp [new]

/-- Nothing happens any more to a client that has hung up. -/
theorem finished_step {capacity : ℕ} {r r' : Receiver β} {fd : ℕ} (hfinished : r.Finished fd)
    (haccepted : fd ∈ r.accepted) (hstep : Step capacity r r') : r'.Finished fd := by
  obtain ⟨hunread, hhungUp⟩ := hfinished
  have hne : ∀ {other}, (r.connections other).hungUp = false → fd ≠ other := by
    rintro other hconnected rfl
    rw [hhungUp] at hconnected
    cases hconnected
  cases hstep with
  | accept index other bytes hungUp _ hfresh =>
      have hother := ne_of_mem_of_not_mem haccepted hfresh
      simp [Finished, accept, hother, hunread, hhungUp]
  | write other bytes _ _ hconnected =>
      simp [Finished, arrive, hne hconnected, hunread, hhungUp]
  | close other _ hconnected => simp [Finished, hangUp, hne hconnected, hunread, hhungUp]
  | handle event events dropDescriptors hplace =>
      show ((ite _ _ _ : Receiver β).connections fd).unread = [] ∧
        ((ite _ _ _ : Receiver β).connections fd).hungUp = true
      split
      · rw [hungUp_readData, (readData_frame capacity r event.fd).2.2.2.2]
        refine ⟨?_, hhungUp⟩
        by_cases hfd : fd = event.fd
        · subst hfd
          simp [hunread]
        · simp [hfd, hunread]
      · exact ⟨hunread, hhungUp⟩
  | _ => exact ⟨hunread, hhungUp⟩

/-- A client has written bytes that have not been read. -/
def hasUnread (r : Receiver β) (fd : ℕ) : Bool :=
  !(r.connections fd).unread.isEmpty

theorem hasUnread_iff {r : Receiver β} {fd : ℕ} :
    r.hasUnread fd = true ↔ (r.connections fd).unread ≠ [] := by
  simp [hasUnread]

/-- With bytes to read a descriptor is reported. -/
theorem live_of_hasUnread {r : Receiver β} (fd : ℕ) (h : r.hasUnread fd = true) :
    r.live fd = true := by
  simp [live, Connection.live, hasUnread_iff.1 h]

theorem Complete.noticed {r : Receiver β} (hcomplete : r.Complete) :
    r.epollWorker.Noticed (r.events.map Event.fd) r.hasUnread :=
  fun fd hfd hunread => hcomplete.pending fd hfd (hasUnread_iff.1 hunread)

/-- Between two events the descriptors with unread bytes are noticed. -/
theorem Complete.noticed_nil {r : Receiver β} (hcomplete : r.Complete) (hevents : r.events = []) :
    r.epollWorker.Noticed [] r.hasUnread := by
  have hnoticed := hcomplete.noticed
  rwa [hevents, List.map_nil] at hnoticed

/-- Who is noticed or fetched is not forgotten. -/
theorem pending_of_noticed {r : Receiver β}
    (h : r.epollWorker.Noticed (r.events.map Event.fd) r.hasUnread) :
    ∀ fd ∈ r.epollWorker.interest, (r.connections fd).unread ≠ [] → r.Pending fd :=
  fun fd hfd hunread => h fd hfd (hasUnread_iff.2 hunread)

/-- What is there when a client is registered is noticed. -/
theorem noticed_validateEPoll {r : Receiver β} (hcomplete : r.Complete)
    (hstart : r.events = []) : r.validateEPoll.epollWorker.Noticed [] r.hasUnread :=
  ((hcomplete.noticed_nil hstart).delAll _).addAll live_of_hasUnread _

/-- A read that takes all unread bytes leaves none. -/
theorem unread_readData {capacity : ℕ} {r : Receiver β} {fd : ℕ}
    (hlength : (r.connections fd).unread.length ≤ capacity) :
    ((r.readData capacity fd).connections fd).unread = [] := by
  rw [(readData_frame capacity r fd).2.2.2.2]
  simpa using hlength

/-- A read that takes everything keeps the bookkeeping complete. -/
theorem complete_handle {capacity : ℕ} {r : Receiver β} {event : Event} {events : List Event}
    {dropDescriptors : List ℕ} (hinv : r.Inv) (hcomplete : r.Complete)
    (hreads : r.ReadsAll capacity)
    (hplace : r.place = .handling (event :: events) dropDescriptors) :
    (r.handle capacity event events dropDescriptors).Complete := by
  have hstep : Step capacity r (r.handle capacity event events dropDescriptors) :=
    Step.handle event events dropDescriptors hplace
  have hevents : r.events = event :: events := by rw [Receiver.events, hplace]
  have hdrops : r.dropDescriptors = dropDescriptors := by rw [Receiver.dropDescriptors, hplace]
  have hreads := hreads event events dropDescriptors hplace
  have hpollin := hinv.fetched.pollin event (by simp [hevents])
  obtain ⟨hsockets, haccepted, hepoll, _, hconnections⟩ := readData_frame capacity r event.fd
  rw [handle_eq hpollin] at hstep ⊢
  constructor
  case pending =>
    have hnoticed := hcomplete.noticed
    rw [hevents, List.map_cons] at hnoticed
    refine pending_of_noticed ?_
    show (r.readData capacity event.fd).epollWorker.Noticed (events.map Event.fd)
      (r.readData capacity event.fd).hasUnread
    rw [hepoll]
    refine hnoticed.serve (fun other hne hunread => ?_) fun hunread => ?_
    · rwa [hasUnread_iff, hconnections, Function.update_of_ne hne, ← hasUnread_iff] at hunread
    · exact Or.inl (hreads.resolve_left fun hlength =>
        hasUnread_iff.1 hunread (unread_readData hlength))
  case dropped =>
    rintro fd hfd (hdrop | hlisted)
    · change fd ∈ (r.readData capacity event.fd).accepted at hfd
      rw [haccepted] at hfd
      rcases mem_dropAfter hdrop with hdrop | ⟨rfl, hhup⟩
      · exact finished_step (hcomplete.dropped fd hfd (Or.inl (by rwa [hdrops]))) hfd hstep
      · -- after a hang-up no other event comes, so that this was the last read
        obtain ⟨hhungUp, hready⟩ := hinv.fetched.hungUp event (by simp [hevents]) hhup
        refine ⟨unread_readData (hreads.resolve_right hready), ?_⟩
        show ((r.readData capacity event.fd).connections event.fd).hungUp = true
        rw [hungUp_readData, hhungUp]
    · change fd ∈ (r.readData capacity event.fd).accepted at hfd
      change ¬Listed (r.readData capacity event.fd).sockets fd at hlisted
      rw [haccepted] at hfd
      rw [hsockets] at hlisted
      exact finished_step (hcomplete.dropped fd hfd (Or.inr hlisted)) hfd hstep

/-- What happens to a descriptor is noticed if it is registered. -/
theorem complete_update {r : Receiver β} {fd : ℕ} (hcomplete : r.Complete)
    (connection : Connection β) (hconnected : (r.connections fd).hungUp = false) :
    { r with
      connections := Function.update r.connections fd connection
      epollWorker := r.epollWorker.notify fd }.Complete := by
  constructor
  case pending =>
    refine pending_of_noticed (hcomplete.noticed.notify fun other hne hunread => ?_)
    rw [hasUnread_iff] at hunread ⊢
    simpa only [Function.update_of_ne hne] using hunread
  case dropped =>
    intro other hother hdropped
    obtain ⟨hunread, hhungUp⟩ := hcomplete.dropped other hother hdropped
    have hne : other ≠ fd := by
      rintro rfl
      rw [hconnected] at hhungUp
      cases hhungUp
    simp [Finished, hne, hunread, hhungUp]

/-- A new client is not registered yet. -/
theorem complete_accept {r : Receiver β} (hinv : r.Inv) (hcomplete : r.Complete)
    {index fd : ℕ} (hlength : index < r.sockets.length) (hfresh : fd ∉ r.accepted)
    (bytes : List β) (hungUp : Bool) : (r.accept index fd bytes hungUp).Complete := by
  constructor
  case pending =>
    intro other hinterest hunread
    change (Function.update r.connections fd _ other).unread ≠ [] at hunread
    have hne := ne_of_mem_of_not_mem (hinv.interest_accepted hinterest) hfresh
    rw [Function.update_of_ne hne] at hunread
    exact hcomplete.pending other hinterest hunread
  case dropped =>
    intro other hother hdropped
    have hdropped' : other ∈ r.dropDescriptors ∨ ¬Listed r.sockets other ∧ other ≠ fd := by
      refine hdropped.imp_right fun hlisted => ⟨?_, ?_⟩
      · rintro ⟨place, h⟩
        exact hlisted ⟨place, (Sockets.mem_clients_add _ _ _ _ _).2 (Or.inl h)⟩
      · rintro rfl
        exact hlisted ⟨index,
          (Sockets.mem_clients_add _ _ _ _ _).2 (Or.inr ⟨rfl, hlength, rfl⟩)⟩
    have hold : other ∈ r.accepted := by
      rcases hdropped' with hdrop | ⟨_, hfd⟩
      · exact hinv.fetched.drops other hdrop
      · exact (List.mem_cons.1 hother).resolve_left hfd
    have hfinished := hcomplete.dropped other hold (hdropped'.imp_right And.left)
    have hstep : Step 0 r (r.accept index fd bytes hungUp) :=
      Step.accept index fd bytes hungUp hlength hfresh
    exact finished_step hfinished hold hstep

/-- **Every step** that reads all unread bytes, or before another event, leaves none
behind. -/
theorem complete_step {capacity : ℕ} {r r' : Receiver β} (hinv : r.Inv)
    (hcomplete : r.Complete) (hreads : Handles capacity r r' → r.ReadsAll capacity)
    (hstep : Step capacity r r') : r'.Complete := by
  cases hstep with
  | accept index fd bytes hungUp hlength hfresh =>
      exact complete_accept hinv hcomplete hlength hfresh bytes hungUp
  | write fd bytes _ _ hconnected => exact complete_update hcomplete _ hconnected
  | close fd _ hconnected => exact complete_update hcomplete _ hconnected
  | validate hstart =>
      have hevents : r.events = [] := by rw [events, hstart]
      exact ⟨pending_of_noticed (noticed_validateEPoll hcomplete hevents),
        fun fd hfd hdropped => hcomplete.dropped fd hfd (hdropped.imp_left (by rintro ⟨⟩))⟩
  | wait hvalidated =>
      have hevents : r.events = [] := by rw [events, hvalidated]
      constructor
      case pending =>
        have hfetched : r.waitEPoll.events.map Event.fd =
            (r.epollWorker.wait epoolEvents r.live).1 := by
          show List.map Event.fd (List.map r.event _) = _
          rw [List.map_map]
          exact List.map_id _
        refine pending_of_noticed ?_
        rw [hfetched]
        exact (hcomplete.noticed_nil hevents).wait live_of_hasUnread _
      case dropped =>
        exact fun fd hfd hdropped =>
          hcomplete.dropped fd hfd (hdropped.imp_left (by rintro ⟨⟩))
  | waitFails hvalidated =>
      have hevents : r.events = [] := by rw [events, hvalidated]
      exact ⟨pending_of_noticed (hcomplete.noticed_nil hevents),
        fun fd hfd hdropped => hcomplete.dropped fd hfd (hdropped.imp_left (by rintro ⟨⟩))⟩
  | handle event events dropDescriptors hplace =>
      exact complete_handle hinv hcomplete
        (hreads ⟨event, events, dropDescriptors, hplace, rfl⟩) hplace
  | purge dropDescriptors hhandled =>
      have hevents : r.events = [] := by rw [events, hhandled]
      have hdrops : r.dropDescriptors = dropDescriptors := by
        rw [Receiver.dropDescriptors, hhandled]
      constructor
      case pending => exact pending_of_noticed (hcomplete.noticed_nil hevents)
      case dropped =>
        rintro fd hfd (⟨⟨⟩⟩ | hlisted)
        refine hcomplete.dropped fd hfd ?_
        rw [hdrops]
        by_contra hkept
        rw [not_or, not_not] at hkept
        exact hlisted ((listed_purgeSockets dropDescriptors _).2 hkept.2 hkept.1)

/-- And then no byte is left behind. -/
theorem noByteLeft_of_complete {r : Receiver β} (hinv : r.Inv) (hcomplete : r.Complete) :
    r.NoByteLeft := by
  intro fd hfd hdone
  have hunread : (r.connections fd).unread = [] := by
    rcases hdone with ⟨hinterest, hpending⟩ | hlisted
    · by_contra hunread
      exact hpending (hcomplete.pending fd hinterest hunread)
    · exact (hcomplete.dropped fd hfd (Or.inr hlisted)).1
  rw [← hinv.bytes fd, hunread, List.append_nil]

/-- Bytes that a read leaves without another event to come are left behind. -/
theorem left_behind {capacity : ℕ} {r : Receiver β} (hinv : r.Inv)
    (hreads : ¬r.ReadsAll capacity) : ∃ r', Step capacity r r' ∧ ¬r'.NoByteLeft := by
  simp only [ReadsAll, not_forall, not_or] at hreads
  obtain ⟨event, events, dropDescriptors, hplace, hlength, hready⟩ := hreads
  have hevents : r.events = event :: events := by rw [Receiver.events, hplace]
  have hstep : Step capacity r (r.handle capacity event events dropDescriptors) :=
    Step.handle event events dropDescriptors hplace
  refine ⟨_, hstep, fun hleft => ?_⟩
  have hpollin := hinv.fetched.pollin event (by simp [hevents])
  have hinterest := hinv.fetched.interest event (by simp [hevents])
  obtain ⟨_, haccepted, hepoll, _, hconnections⟩ := readData_frame capacity r event.fd
  have hinv' := inv_step hinv hstep
  rw [handle_eq hpollin] at hleft hinv'
  have hnodup := hinv.fetched.nodup
  rw [hevents] at hnodup
  have hdispatched := hleft event.fd (by
    show event.fd ∈ (r.readData capacity event.fd).accepted
    rw [haccepted]
    exact hinv.interest_accepted hinterest) (Or.inl ⟨by
      show event.fd ∈ (r.readData capacity event.fd).epollWorker.interest
      rwa [hepoll], by
      show ¬(event.fd ∈ (r.readData capacity event.fd).epollWorker.ready ∨ _)
      rw [hepoll]
      exact not_or.2 ⟨hready, (List.nodup_cons.1 hnodup).1⟩⟩)
  have hbytes := hinv'.bytes event.fd
  rw [hdispatched] at hbytes
  have hunread : ((r.readData capacity event.fd).connections event.fd).unread = [] :=
    List.append_right_eq_self.1 hbytes
  rw [hconnections] at hunread
  simp only [Function.update_self, List.drop_eq_nil_iff] at hunread
  exact hlength hunread

/-- **No byte is left behind**: in a run in which every read takes all unread bytes, or is
made when another event is to come, all bytes of a descriptor without a pending event have
been dispatched, once and in order, and all bytes of one that was dropped.  From a state
that does not meet this condition a step leaves bytes behind. -/
theorem no_byte_left (capacity : ℕ) (created : List (String × String)) :
    (∀ r : Receiver β, Relation.ReflTransGen
      (Transition.restrictAt (Step capacity) (Handles capacity) (ReadsAll capacity))
        (new created) r → r.NoByteLeft) ∧
      ∀ r : Receiver β, Relation.ReflTransGen (Step capacity) (new created) r →
        ¬r.ReadsAll capacity → ∃ r', Step capacity r r' ∧ ¬r'.NoByteLeft := by
  constructor
  · intro r hrun
    have hkept : r.Inv ∧ r.Complete :=
      Transition.invariant_of_run_restrictAt (I := fun r : Receiver β => r.Inv ∧ r.Complete)
        (fun h hreads hstep => ⟨inv_step h.1 hstep, complete_step h.1 h.2 hreads hstep⟩)
        ⟨inv_new created, complete_new created⟩ hrun
    exact noByteLeft_of_complete hkept.1 hkept.2
  · intro r hrun hreads
    have hinv : r.Inv := Transition.invariant_of_run (I := Inv) inv_step (inv_new created) hrun
    exact left_behind hinv hreads

/-- A message that fits is dispatched, and the client is dropped after it. -/
theorem message_dispatched :
    ∃ r : Receiver ℕ, r.NoByteLeft ∧ r.dispatchedOn 5 = [1, 2] ∧ r.sockets.map
      IpcSocket.clientsDescriptor = [[]] := by
  refine ⟨(((((new [("unix:/tmp/test", "test")]).accept 0 5 [] false).arrive 5 [1, 2]).hangUp
    5).validateEPoll.waitEPoll.handle 2 ⟨5, true, true⟩ [] []).purgeSockets [5],
    (no_byte_left 2 [("unix:/tmp/test", "test")]).1 _ ?_, by decide, by decide⟩
  refine .head ⟨Step.accept 0 5 [] false (by decide) (by decide), ?_⟩ ?_
  · rintro ⟨_, _, _, ⟨⟩, _⟩
  refine .head ⟨Step.write 5 [1, 2] (by decide) (by decide) rfl, ?_⟩ ?_
  · rintro ⟨_, _, _, ⟨⟩, _⟩
  refine .head ⟨Step.close 5 (by decide) rfl, ?_⟩ ?_
  · rintro ⟨_, _, _, ⟨⟩, _⟩
  refine .head ⟨Step.validate rfl, ?_⟩ ?_
  · rintro ⟨_, _, _, ⟨⟩, _⟩
  refine .head ⟨Step.wait rfl, ?_⟩ ?_
  · rintro ⟨_, _, _, ⟨⟩, _⟩
  refine .head ⟨Step.handle ⟨5, true, true⟩ [] [] rfl, ?_⟩ ?_
  · rintro - event events dropDescriptors ⟨⟩
    exact Or.inl (by decide)
  refine .head ⟨Step.purge [5] rfl, ?_⟩ .refl
  rintro ⟨_, _, _, ⟨⟩, _⟩

/-- A message longer than the buffer: its second byte is not read, and no event is to come
for it. -/
theorem long_message_left_behind :
    ∃ r : Receiver ℕ,
      Relation.ReflTransGen (Step 1) (new [("unix:/tmp/test", "test")]) r ∧ ¬r.NoByteLeft := by
  refine ⟨(((new [("unix:/tmp/test", "test")]).accept 0 5 [] false).arrive 5
    [1, 2]).validateEPoll.waitEPoll.handle 1 ⟨5, true, false⟩ [] [], ?_, fun hleft => ?_⟩
  · refine .head (Step.accept 0 5 [] false (by decide) (by decide)) ?_
    refine .head (Step.write 5 [1, 2] (by decide) (by decide) rfl) ?_
    refine .head (Step.validate rfl) ?_
    refine .head (Step.wait rfl) ?_
    exact .head (Step.handle ⟨5, true, false⟩ [] [] rfl) .refl
  · have hdispatched := hleft 5 (by decide) (Or.inl ⟨by decide, by
      show ¬(_ ∨ _)
      decide⟩)
    exact absurd hdispatched (by decide)

end Receiver

end NewCPP.Ipc
