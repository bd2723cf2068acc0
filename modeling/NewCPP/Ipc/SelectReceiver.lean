import Mathlib.Data.List.Perm.Basic
import Mathlib.Logic.Function.Basic
import NewCPP.Ipc.Socket
import NewCPP.Library.BoundedSet
import NewCPP.Library.Transition

/-!
# The receiver on Windows

`IpcReceiverWindows::loop` copies the clients of all sockets, puts them into an `fd_set`, asks
`select` which of them have something to read, and reads each of those once.

* `dispatchedOf_append_unread` — every byte that has arrived on a connection was dispatched once
  and in order, or is still unread.
* `socketName_of_run` — and it was dispatched under the name of the socket that accepted the
  connection, as long as no descriptor that is held is closed and given out again.

## Design notes

**The set.**  `FD_SET` leaves a set alone that has `FD_SETSIZE` elements, 64 unless the program
defines another number before it includes `winsock2.h`, which this one does not.

**Connections.**  A descriptor that has been closed may be returned by `accept` again, so that
connections are numbered in the order in which they are accepted; `handle` gives the connection
of a descriptor that is open.

**Interleaving.**  The connector accepts a client and lists it; nobody knows the descriptor
before it is listed, so that this is one step.  The transmitter takes a client to which it
cannot send off its socket and closes the descriptor then.  Between any two steps of the
receiver the others may take steps of theirs.

**Order.**  `std::partition` leaves what it keeps in an order that is not specified.
-/

namespace NewCPP.Ipc

open Library
open Sockets (clients Listed collectDescriptors)

universe u

variable {β : Type u}

/-- The room in an `fd_set`. -/
def fdSetsize : ℕ := 64

namespace FdSet

/-- `FD_SET`, which leaves a full set as it is. -/
def addSocket (set : List ℕ) (socket : ℕ) : List ℕ :=
  BoundedSet.add fdSetsize set socket

/-- The constructor. -/
def ofSockets (vect : List (ℕ × String)) : List ℕ :=
  vect.foldl (fun set pair => addSocket set pair.1) []

/-- The set holds the first clients, as many as there is room for. -/
theorem ofSockets_eq (vect : List (ℕ × String)) :
    ofSockets vect = BoundedSet.ofList fdSetsize (vect.map Prod.fst) := by
  rw [BoundedSet.ofList, List.foldl_map]
  rfl

end FdSet

/-- A connection, from the side of the kernel. -/
structure Channel (β : Type u) where
  /-- The socket on which it was accepted. -/
  index : ℕ := 0
  /-- All the bytes that have arrived. -/
  arrived : List β := []
  unread : List β := []
  finished : Bool := false

/-- `select` reports it. -/
def Channel.live (channel : Channel β) : Bool :=
  !channel.unread.isEmpty || channel.finished

/-- A call of `dispatchData`, and the connection that was read. -/
structure SelectDispatch (β : Type u) where
  data : List β
  socketName : String
  fd : ℕ
  connection : ℕ

/-- Where the receiver is in `loop`. -/
inductive SelectPlace where
  | start
  | collecting (index : ℕ)
  | collected
  | reading (rest : List (ℕ × String))

/-- The sockets, the connections behind the descriptors, and where the thread is in its loop. -/
structure SelectReceiver (β : Type u) where
  sockets : List IpcSocket
  /-- How many connections have been accepted. -/
  count : ℕ := 0
  connections : ℕ → Channel β := fun _ => {}
  handle : ℕ → Option ℕ := fun _ => none
  allSockets : List (ℕ × String) := []
  place : SelectPlace := .start
  dispatched : List (SelectDispatch β) := []

namespace SelectReceiver

/-- The name of the socket at a place. -/
def nameAt (r : SelectReceiver β) (index : ℕ) : String :=
  (r.sockets.map IpcSocket.socketName).getD index ""

/-- The descriptor is open, and there is something to read or the peer has hung up. -/
def live (r : SelectReceiver β) (fd : ℕ) : Bool :=
  match r.handle fd with
  | none => false
  | some id => (r.connections id).live

/-! ## The others -/

/-- The connector accepts a client and lists it. -/
def accept (index fd : ℕ) (bytes : List β) (finished : Bool) (r : SelectReceiver β) :
    SelectReceiver β :=
  { r with
    sockets := r.sockets.modify index (IpcSocket.addClientDecriptor fd)
    count := r.count + 1
    connections := Function.update r.connections r.count
      { index := index, arrived := bytes, unread := bytes, finished := finished }
    handle := Function.update r.handle fd (some r.count) }

/-- The transmitter takes a client off its socket. -/
def unlist (index fd : ℕ) (r : SelectReceiver β) : SelectReceiver β :=
  { r with sockets := r.sockets.modify index (IpcSocket.removeClientDescriptor fd) }

/-- The descriptor is closed. -/
def close (fd : ℕ) (r : SelectReceiver β) : SelectReceiver β :=
  { r with handle := Function.update r.handle fd none }

/-- Bytes of the peer reach the connection. -/
def arrive (id : ℕ) (bytes : List β) (r : SelectReceiver β) : SelectReceiver β :=
  let channel := r.connections id
  { r with
    connections := Function.update r.connections id
      { channel with
        arrived := channel.arrived ++ bytes
        unread := channel.unread ++ bytes } }

/-- The peer sends nothing more. -/
def finish (id : ℕ) (r : SelectReceiver β) : SelectReceiver β :=
  { r with
    connections := Function.update r.connections id { r.connections id with finished := true } }

/-! ## The receiver -/

/-- `allSockets.clear()`. -/
def clear (r : SelectReceiver β) : SelectReceiver β :=
  { r with allSockets := [], place := .collecting 0 }

/-- What `collectSockets` copies of a socket. -/
def copy (r : SelectReceiver β) (index : ℕ) : List (ℕ × String) :=
  (clients r.sockets index).map fun fd => (fd, r.nameAt index)

/-- The thread copies the clients of one socket. -/
def collect (index : ℕ) (r : SelectReceiver β) : SelectReceiver β :=
  { r with
    allSockets := r.allSockets ++ r.copy index
    place := .collecting (index + 1) }

/-- The set, after `collectSockets`. -/
def endCollect (r : SelectReceiver β) : SelectReceiver β :=
  { r with place := if r.allSockets.isEmpty then .start else .collected }

/-- The elements of the set that `select` leaves in it. -/
def ready (r : SelectReceiver β) : List ℕ :=
  (FdSet.ofSockets r.allSockets).filter r.live

/-- What the callback keeps of `allSockets`, in some order. -/
def matching (r : SelectReceiver β) : List (ℕ × String) :=
  r.allSockets.filter fun pair => pair.1 ∈ r.ready

/-- The thread goes on with the clients that are reported. -/
def select (kept : List (ℕ × String)) (r : SelectReceiver β) : SelectReceiver β :=
  { r with allSockets := kept, place := .reading kept }

/-- What fits into the buffer is taken off a connection and dispatched. -/
def deliver (capacity : ℕ) (pair : ℕ × String) (id : ℕ) (r : SelectReceiver β) :
    SelectReceiver β :=
  let channel := r.connections id
  { r with
    connections := Function.update r.connections id
      { channel with unread := channel.unread.drop capacity }
    dispatched := r.dispatched ++ [⟨channel.unread.take capacity, pair.2, pair.1, id⟩] }

/-- `recv` and `dispatchData` for an element of `allSockets`. -/
def readFrom (capacity : ℕ) (pair : ℕ × String) (r : SelectReceiver β) : SelectReceiver β :=
  match r.handle pair.1 with
  | none => r
  | some id =>
      let readBytes := (r.connections id).unread.take capacity
      if readBytes.isEmpty then r else r.deliver capacity pair id

/-- A receiver that has just been constructed, for sockets with URIs and names. -/
def new (created : List (String × String)) : SelectReceiver β :=
  { sockets := Sockets.create created }

/-- **One step** of a peer, of the connector, of the transmitter or of the receiver. -/
inductive Step (capacity : ℕ) : SelectReceiver β → SelectReceiver β → Prop
  | accept {r : SelectReceiver β} (index fd : ℕ) (bytes : List β) (finished : Bool)
      (socket : index < r.sockets.length) (unused : r.handle fd = none) :
      Step capacity r (r.accept index fd bytes finished)
  | unlist {r : SelectReceiver β} (index fd : ℕ) (listed : fd ∈ clients r.sockets index) :
      Step capacity r (r.unlist index fd)
  | close {r : SelectReceiver β} (fd : ℕ) (unlisted : ¬Listed r.sockets fd) :
      Step capacity r (r.close fd)
  | arrive {r : SelectReceiver β} (id : ℕ) (bytes : List β) (accepted : id < r.count)
      (connected : (r.connections id).finished = false) : Step capacity r (r.arrive id bytes)
  | finish {r : SelectReceiver β} (id : ℕ) (accepted : id < r.count) :
      Step capacity r (r.finish id)
  | clear {r : SelectReceiver β} (start : r.place = .start) : Step capacity r r.clear
  | collect {r : SelectReceiver β} (index : ℕ) (collecting : r.place = .collecting index)
      (socket : index < r.sockets.length) : Step capacity r (r.collect index)
  | endCollect {r : SelectReceiver β} (index : ℕ) (collecting : r.place = .collecting index)
      (last : r.sockets.length ≤ index) : Step capacity r r.endCollect
  | select {r : SelectReceiver β} (kept : List (ℕ × String)) (collected : r.place = .collected)
      (opened : ∀ fd ∈ FdSet.ofSockets r.allSockets, r.handle fd ≠ none)
      (some_ready : r.ready ≠ []) (order : kept.Perm r.matching) :
      Step capacity r (r.select kept)
  | selectNone {r : SelectReceiver β} (collected : r.place = .collected) :
      Step capacity r { r with place := .start }
  | read {r : SelectReceiver β} (pair : ℕ × String) (rest : List (ℕ × String))
      (reading : r.place = .reading (pair :: rest)) :
      Step capacity r { r.readFrom capacity pair with place := .reading rest }
  | readFails {r : SelectReceiver β} (pair : ℕ × String) (rest : List (ℕ × String))
      (reading : r.place = .reading (pair :: rest)) :
      Step capacity r { r with place := .reading rest }
  | endRead {r : SelectReceiver β} (reading : r.place = .reading []) :
      Step capacity r { r with place := .start }

/-- The bytes of a connection that have been dispatched. -/
def dispatchedOf (r : SelectReceiver β) (id : ℕ) : List β :=
  (r.dispatched.filter fun delivery => delivery.connection = id).flatMap SelectDispatch.data

/-! ## Open descriptors -/

section

variable (r : SelectReceiver β)

@[simp] theorem connections_accept (index fd : ℕ) (bytes : List β) (finished : Bool) :
    (r.accept index fd bytes finished).connections =
      Function.update r.connections r.count ⟨index, bytes, bytes, finished⟩ := rfl

@[simp] theorem handle_accept (index fd : ℕ) (bytes : List β) (finished : Bool) :
    (r.accept index fd bytes finished).handle =
      Function.update r.handle fd (some r.count) := rfl

@[simp] theorem handle_close (fd : ℕ) :
    (r.close fd).handle = Function.update r.handle fd none := rfl

@[simp] theorem connections_arrive (id : ℕ) (bytes : List β) :
    (r.arrive id bytes).connections = Function.update r.connections id
      ⟨(r.connections id).index, (r.connections id).arrived ++ bytes,
        (r.connections id).unread ++ bytes, (r.connections id).finished⟩ := rfl

@[simp] theorem connections_finish (id : ℕ) :
    (r.finish id).connections = Function.update r.connections id
      ⟨(r.connections id).index, (r.connections id).arrived, (r.connections id).unread, true⟩ :=
  rfl

@[simp] theorem connections_deliver (capacity : ℕ) (pair : ℕ × String) (id : ℕ) :
    (r.deliver capacity pair id).connections = Function.update r.connections id
      ⟨(r.connections id).index, (r.connections id).arrived,
        (r.connections id).unread.drop capacity, (r.connections id).finished⟩ := rfl

end

/-- A read that finds bytes delivers them. -/
theorem readFrom_cases (capacity : ℕ) (pair : ℕ × String) (r : SelectReceiver β) :
    r.readFrom capacity pair = r ∨
      ∃ id, r.handle pair.1 = some id ∧ r.readFrom capacity pair = r.deliver capacity pair id := by
  rw [readFrom]
  cases hhandle : r.handle pair.1 with
  | none => exact Or.inl rfl
  | some id =>
      dsimp only
      split
      · exact Or.inl rfl
      · exact Or.inr ⟨id, rfl, rfl⟩

/-- What is open after a `close` was open before it. -/
theorem handle_of_close {r : SelectReceiver β} {fd other id : ℕ}
    (h : (r.close fd).handle other = some id) : r.handle other = some id := by
  rw [handle_close] at h
  by_cases heq : other = fd
  · subst heq
    rw [Function.update_self] at h
    cases h
  · rwa [Function.update_of_ne heq] at h

/-- A listed descriptor is open, and its connection was accepted on the socket that lists it. -/
structure Opened (r : SelectReceiver β) : Prop where
  handle_lt : ∀ fd id, r.handle fd = some id → id < r.count
  handle_inj : ∀ fd fd' id, r.handle fd = some id → r.handle fd' = some id → fd = fd'
  listed : ∀ index, ∀ fd ∈ clients r.sockets index,
    ∃ id, r.handle fd = some id ∧ (r.connections id).index = index

/-- A change that leaves the descriptors and where connections were accepted. -/
theorem Opened.congr {r r' : SelectReceiver β} (h : Opened r) (hsockets : r'.sockets = r.sockets)
    (hcount : r'.count = r.count) (hhandle : r'.handle = r.handle)
    (hindex : ∀ id, (r'.connections id).index = (r.connections id).index) : Opened r' where
  handle_lt := by
    rw [hhandle, hcount]
    exact h.handle_lt
  handle_inj := by
    rw [hhandle]
    exact h.handle_inj
  listed := by
    simp only [hsockets, hhandle, hindex]
    exact h.listed

theorem index_update {connections : ℕ → Channel β} {id : ℕ} {channel : Channel β}
    (h : channel.index = (connections id).index) (other : ℕ) :
    (Function.update connections id channel other).index = (connections other).index := by
  by_cases heq : other = id
  · subst heq
    rw [Function.update_self, h]
  · rw [Function.update_of_ne heq]

/-- A read changes no connection's socket. -/
theorem index_readFrom (capacity : ℕ) (pair : ℕ × String) (r : SelectReceiver β) (id : ℕ) :
    ((r.readFrom capacity pair).connections id).index = (r.connections id).index := by
  rcases readFrom_cases capacity pair r with heq | ⟨other, -, heq⟩
  · rw [heq]
  · rw [heq, connections_deliver]
    exact index_update (by rfl) id

/-- A read leaves everything but the bytes. -/
theorem readFrom_frame (capacity : ℕ) (pair : ℕ × String) (r : SelectReceiver β) :
    (r.readFrom capacity pair).sockets = r.sockets ∧
      (r.readFrom capacity pair).count = r.count ∧
      (r.readFrom capacity pair).handle = r.handle := by
  rcases readFrom_cases capacity pair r with heq | ⟨id, -, heq⟩
  · rw [heq]
    exact ⟨rfl, rfl, rfl⟩
  · rw [heq]
    exact ⟨rfl, rfl, rfl⟩

/-- Every step keeps that. -/
theorem Opened.step {capacity : ℕ} {r r' : SelectReceiver β} (h : Opened r)
    (hstep : Step capacity r r') : Opened r' := by
  cases hstep with
  | accept index fd bytes finished _ hunused =>
      have hne {other id : ℕ} (hid : r.handle other = some id) : other ≠ fd := by
        rintro rfl
        rw [hunused] at hid
        cases hid
      refine ⟨fun other id hid => ?_, fun other other' id hid hid' => ?_, fun at_ other hmem => ?_⟩
      · rw [handle_accept] at hid
        by_cases heq : other = fd
        · subst heq
          rw [Function.update_self, Option.some_inj] at hid
          exact hid ▸ Nat.lt_succ_self r.count
        · rw [Function.update_of_ne heq] at hid
          exact Nat.lt_succ_of_lt (h.handle_lt other id hid)
      · rw [handle_accept] at hid hid'
        by_cases heq : other = fd <;> by_cases heq' : other' = fd
        · exact heq.trans heq'.symm
        · subst heq
          rw [Function.update_self, Option.some_inj] at hid
          rw [Function.update_of_ne heq'] at hid'
          exact absurd (h.handle_lt _ _ hid') (hid ▸ lt_irrefl r.count)
        · subst heq'
          rw [Function.update_self, Option.some_inj] at hid'
          rw [Function.update_of_ne heq] at hid
          exact absurd (h.handle_lt _ _ hid) (hid' ▸ lt_irrefl r.count)
        · rw [Function.update_of_ne heq] at hid
          rw [Function.update_of_ne heq'] at hid'
          exact h.handle_inj other other' id hid hid'
      · rw [handle_accept, connections_accept]
        rcases (Sockets.mem_clients_add r.sockets index at_ fd other).1 hmem with
          hold | ⟨rfl, -, rfl⟩
        · obtain ⟨id, hid, hindex⟩ := h.listed at_ other hold
          refine ⟨id, by rw [Function.update_of_ne (hne hid), hid], ?_⟩
          rw [Function.update_of_ne (h.handle_lt other id hid).ne, hindex]
        · exact ⟨r.count, Function.update_self .., by rw [Function.update_self]⟩
  | unlist index fd _ =>
      refine ⟨h.handle_lt, h.handle_inj, fun at_ other hmem => ?_⟩
      exact h.listed at_ other ((Sockets.mem_clients_remove r.sockets index at_ fd other).1 hmem).1
  | close fd hunlisted =>
      refine ⟨fun other id hid => h.handle_lt other id (handle_of_close hid),
        fun other other' id hid hid' =>
          h.handle_inj other other' id (handle_of_close hid) (handle_of_close hid'),
        fun at_ other hmem => ?_⟩
      obtain ⟨id, hid, hindex⟩ := h.listed at_ other hmem
      have hne : other ≠ fd := by
        rintro rfl
        exact hunlisted ⟨at_, hmem⟩
      exact ⟨id, by rw [handle_close, Function.update_of_ne hne, hid], hindex⟩
  | arrive id _ _ _ => exact h.congr rfl rfl rfl (index_update rfl)
  | finish id _ => exact h.congr rfl rfl rfl (index_update rfl)
  | read pair rest _ =>
      have hframe := readFrom_frame capacity pair r
      exact h.congr hframe.1 hframe.2.1 hframe.2.2 (index_readFrom capacity pair r)
  | clear | collect | endCollect | select | selectNone | readFails | endRead =>
      exact h.congr rfl rfl rfl fun _ => rfl

theorem opened_new (created : List (String × String)) :
    Opened (new created : SelectReceiver β) where
  handle_lt := fun _ _ h => by cases h
  handle_inj := fun _ _ _ h => by cases h
  listed := fun index fd h => by
    rw [new, Sockets.clients_create] at h
    cases h

/-! ## Every byte once and in order -/

/-- A delivery is to one connection. -/
theorem dispatchedOf_deliver (capacity : ℕ) (pair : ℕ × String) (id : ℕ)
    (r : SelectReceiver β) (other : ℕ) :
    (r.deliver capacity pair id).dispatchedOf other =
      r.dispatchedOf other ++
        if id = other then (r.connections id).unread.take capacity else [] := by
  simp only [dispatchedOf, deliver, List.filter_append, List.flatMap_append]
  by_cases h : id = other <;> simp [h]

/-- What the receiver has done to the bytes. -/
structure Counted (r : SelectReceiver β) : Prop where
  bytes : ∀ id, r.dispatchedOf id ++ (r.connections id).unread = (r.connections id).arrived
  later : ∀ id, r.count ≤ id → r.dispatchedOf id = []

/-- What a read takes is what it dispatches. -/
theorem Counted.readFrom {capacity : ℕ} {pair : ℕ × String} {r : SelectReceiver β}
    (hopened : Opened r) (h : Counted r) : Counted (r.readFrom capacity pair) := by
  rcases readFrom_cases capacity pair r with heq | ⟨id, hhandle, heq⟩
  · rw [heq]
    exact h
  · rw [heq]
    refine ⟨fun other => ?_, fun other hother => ?_⟩
    · rw [dispatchedOf_deliver, connections_deliver]
      by_cases hid : id = other
      · subst hid
        rw [if_pos rfl, Function.update_self, List.append_assoc, List.take_append_drop]
        exact h.bytes id
      · rw [if_neg hid, Function.update_of_ne (Ne.symm hid), List.append_nil]
        exact h.bytes other
    · have hid : id ≠ other := (Nat.lt_of_lt_of_le (hopened.handle_lt _ _ hhandle) hother).ne
      rw [dispatchedOf_deliver, if_neg hid, List.append_nil]
      exact h.later other hother

/-- Every step keeps the count. -/
theorem Counted.step {capacity : ℕ} {r r' : SelectReceiver β} (hopened : Opened r)
    (h : Counted r) (hstep : Step capacity r r') : Counted r' := by
  cases hstep with
  | accept index fd bytes finished _ _ =>
      refine ⟨fun id => ?_, fun id hid => ?_⟩
      · rw [connections_accept]
        by_cases heq : id = r.count
        · subst heq
          rw [Function.update_self]
          change r.dispatchedOf r.count ++ bytes = bytes
          rw [h.later r.count le_rfl, List.nil_append]
        · rw [Function.update_of_ne heq]
          exact h.bytes id
      · exact h.later id (Nat.le_of_succ_le hid)
  | arrive id bytes _ _ =>
      refine ⟨fun other => ?_, h.later⟩
      rw [connections_arrive]
      by_cases heq : other = id
      · subst heq
        rw [Function.update_self]
        change r.dispatchedOf other ++ ((r.connections other).unread ++ bytes) = _ ++ bytes
        rw [← List.append_assoc, h.bytes]
      · rw [Function.update_of_ne heq]
        exact h.bytes other
  | finish id _ =>
      refine ⟨fun other => ?_, h.later⟩
      rw [connections_finish]
      by_cases heq : other = id
      · subst heq
        rw [Function.update_self]
        exact h.bytes other
      · rw [Function.update_of_ne heq]
        exact h.bytes other
  | read pair rest _ =>
      have hread : Counted (r.readFrom capacity pair) := h.readFrom hopened
      exact ⟨hread.bytes, hread.later⟩
  | unlist | close | clear | collect | endCollect | select | selectNone | readFails | endRead =>
      exact ⟨h.bytes, h.later⟩

theorem counted_new (created : List (String × String)) :
    Counted (new created : SelectReceiver β) where
  bytes := fun _ => rfl
  later := fun _ _ => rfl

/-- **No byte is dispatched twice, out of order, or for another connection**, and none that
has been read is lost, whatever descriptors are used again. -/
theorem dispatchedOf_append_unread {created : List (String × String)} {capacity : ℕ}
    {r : SelectReceiver β} (hrun : Relation.ReflTransGen (Step capacity) (new created) r)
    (id : ℕ) :
    r.dispatchedOf id ++ (r.connections id).unread = (r.connections id).arrived := by
  have hinv : Opened r ∧ Counted r :=
    Transition.invariant_of_run (I := fun r => Opened r ∧ Counted r)
      (fun h hstep => ⟨h.1.step hstep, h.2.step h.1 hstep⟩)
      ⟨opened_new created, counted_new created⟩ hrun
  exact hinv.2.bytes id

/-- A client that has sent three bytes. -/
def oneClient : SelectReceiver ℕ :=
  (new [("tcp://localhost:4242", "name")]).accept 0 7 [1, 2, 3] false

/-- One client has connected and sent three bytes. -/
theorem oneClient_run :
    Relation.ReflTransGen (Step 2) (new [("tcp://localhost:4242", "name")]) oneClient :=
  Relation.ReflTransGen.single (Step.accept 0 7 [1, 2, 3] false Nat.one_pos rfl)

/-- The client is read. -/
def oneRead : SelectReceiver ℕ :=
  { (((oneClient.clear.collect 0).endCollect.select [(7, "name")]).readFrom 2 (7, "name")) with
    place := .reading [] }

/-- Two of them were read. -/
theorem oneRead_run :
    Relation.ReflTransGen (Step 2) (new [("tcp://localhost:4242", "name")]) oneRead := by
  have hclear := oneClient_run.tail (Step.clear rfl)
  have hcollect := hclear.tail (Step.collect 0 rfl Nat.one_pos)
  have hend := hcollect.tail (Step.endCollect 1 rfl le_rfl)
  have hselect := hend.tail
    (Step.select [(7, "name")] rfl (by decide) (by decide) (List.Perm.refl _))
  exact hselect.tail (Step.read (7, "name") [] rfl)

/-- Two of three bytes have been dispatched, and the third waits. -/
theorem dispatchedOf_append_unread_oneClient :
    (oneRead.dispatchedOf 0 = [1, 2] ∧ (oneRead.connections 0).unread = [3]) ∧
      oneRead.dispatchedOf 0 ++ (oneRead.connections 0).unread =
        (oneRead.connections 0).arrived :=
  ⟨⟨rfl, rfl⟩, dispatchedOf_append_unread oneRead_run 0⟩

/-! ## The names -/

/-- What the receiver has copied of the sockets and still goes by. -/
def held (r : SelectReceiver β) : List (ℕ × String) :=
  match r.place with
  | .start => []
  | .collecting _ => r.allSockets
  | .collected => r.allSockets
  | .reading rest => rest

/-- The step gives out no descriptor that the receiver goes by.  One that it closes leaves the
receiver with a descriptor of which `recv` fails. -/
def SparesHeld (r r' : SelectReceiver β) : Prop :=
  ∀ pair ∈ r.held, ∀ id, r'.handle pair.1 = some id → r.handle pair.1 = some id

/-- No step renames a socket. -/
theorem nameAt_step {capacity : ℕ} {r r' : SelectReceiver β} (hstep : Step capacity r r')
    (index : ℕ) : r'.nameAt index = r.nameAt index := by
  have hnames : r'.sockets.map IpcSocket.socketName = r.sockets.map IpcSocket.socketName := by
    cases hstep with
    | accept =>
        exact Sockets.map_modify_of_eq (IpcSocket.socketName_addClientDecriptor _) r.sockets _
    | unlist =>
        exact Sockets.map_modify_of_eq (IpcSocket.socketName_removeClientDescriptor _) r.sockets _
    | read pair rest _ => exact congrArg _ (readFrom_frame capacity pair r).1
    | close | arrive | finish | clear | collect | endCollect | select | selectNone | readFails
      | endRead => rfl
  rw [nameAt, nameAt, hnames]

/-- A connection stays with the socket on which it was accepted. -/
theorem index_step {capacity : ℕ} {r r' : SelectReceiver β} (hstep : Step capacity r r')
    {id : ℕ} (hid : id < r.count) :
    id < r'.count ∧ (r'.connections id).index = (r.connections id).index := by
  cases hstep with
  | accept =>
      rw [connections_accept, Function.update_of_ne hid.ne]
      exact ⟨Nat.lt_succ_of_lt hid, rfl⟩
  | arrive other _ _ _ => exact ⟨hid, index_update (by rfl) id⟩
  | finish other _ => exact ⟨hid, index_update (by rfl) id⟩
  | read pair rest _ =>
      exact ⟨(readFrom_frame capacity pair r).2.1.symm ▸ hid, index_readFrom capacity pair r id⟩
  | unlist | close | clear | collect | endCollect | select | selectNone | readFails | endRead =>
      exact ⟨hid, rfl⟩

/-- A step holds on to what it held, or copies the clients of a socket. -/
theorem held_step {capacity : ℕ} {r r' : SelectReceiver β} (hstep : Step capacity r r')
    {pair : ℕ × String} (hpair : pair ∈ r'.held) :
    pair ∈ r.held ∨ r'.handle = r.handle ∧ ∃ index, pair ∈ r.copy index := by
  cases hstep with
  | accept | unlist | close | arrive | finish => exact Or.inl hpair
  | clear => exact absurd hpair List.not_mem_nil
  | collect index hcollecting _ =>
      rw [held, hcollecting]
      rcases List.mem_append.1 hpair with hold | hnew
      · exact Or.inl hold
      · exact Or.inr ⟨rfl, index, hnew⟩
  | endCollect index hcollecting _ =>
      refine Or.inl ?_
      rw [held, endCollect] at hpair
      rw [held, hcollecting]
      split at hpair
      case h_1 => exact absurd hpair List.not_mem_nil
      case h_2 => exact hpair
      case h_3 => exact hpair
      case h_4 hplace =>
        dsimp only at hplace
        split at hplace <;> cases hplace
  | select kept hcollected _ _ horder =>
      refine Or.inl ?_
      rw [held, hcollected]
      exact (List.mem_filter.1 (horder.mem_iff.1 hpair)).1
  | selectNone => exact absurd hpair List.not_mem_nil
  | read first rest hreading =>
      refine Or.inl ?_
      rw [held, hreading]
      exact List.mem_cons_of_mem _ hpair
  | readFails first rest hreading =>
      refine Or.inl ?_
      rw [held, hreading]
      exact List.mem_cons_of_mem _ hpair
  | endRead => exact absurd hpair List.not_mem_nil

/-- What a step dispatches comes off a descriptor that the receiver goes by. -/
theorem dispatched_step {capacity : ℕ} {r r' : SelectReceiver β} (hstep : Step capacity r r')
    {delivery : SelectDispatch β} (hdelivery : delivery ∈ r'.dispatched) :
    delivery ∈ r.dispatched ∨
      ∃ pair ∈ r.held, r.handle pair.1 = some delivery.connection ∧
        delivery.socketName = pair.2 := by
  cases hstep with
  | read pair rest hreading =>
      rcases readFrom_cases capacity pair r with heq | ⟨id, hhandle, heq⟩
      · rw [heq] at hdelivery
        exact Or.inl hdelivery
      · rw [heq, deliver] at hdelivery
        rcases List.mem_append.1 hdelivery with hold | hnew
        · exact Or.inl hold
        · rw [List.mem_singleton] at hnew
          subst hnew
          refine Or.inr ⟨pair, ?_, hhandle, rfl⟩
          rw [held, hreading]
          exact List.mem_cons_self
  | accept | unlist | close | arrive | finish | clear | collect | endCollect | select | selectNone
    | readFails | endRead => exact Or.inl hdelivery

/-- The names that the receiver goes by, where their descriptors are still open, and those it
has dispatched under are those of the sockets on which the connections were accepted. -/
structure Named (r : SelectReceiver β) : Prop where
  held : ∀ pair ∈ r.held, ∀ id, r.handle pair.1 = some id →
    r.nameAt (r.connections id).index = pair.2
  dispatched : ∀ delivery ∈ r.dispatched, delivery.connection < r.count ∧
    r.nameAt (r.connections delivery.connection).index = delivery.socketName

/-- As long as no held descriptor is given out again, the names stay right. -/
theorem Named.step {capacity : ℕ} {r r' : SelectReceiver β} (hopened : Opened r) (h : Named r)
    (hstep : Step capacity r r') (hspares : SparesHeld r r') : Named r' := by
  have hname {id : ℕ} (hid : id < r.count) :
      r'.nameAt (r'.connections id).index = r.nameAt (r.connections id).index := by
    rw [nameAt_step hstep, (index_step hstep hid).2]
  refine ⟨fun pair hpair id hid => ?_, fun delivery hdelivery => ?_⟩
  · rcases held_step hstep hpair with hold | ⟨hhandle, index, hcopy⟩
    · have hid' := hspares pair hold id hid
      exact (hname (hopened.handle_lt _ _ hid')).trans (h.held pair hold id hid')
    · obtain ⟨fd, hfd, rfl⟩ := List.mem_map.1 hcopy
      obtain ⟨listed, hlisted, hindex⟩ := hopened.listed index fd hfd
      obtain rfl : listed = id := Option.some_inj.1 (hlisted.symm.trans (hhandle ▸ hid))
      refine (hname (hopened.handle_lt _ _ hlisted)).trans ?_
      rw [hindex]
  · rcases dispatched_step hstep hdelivery with hold | ⟨pair, hpair, hhandle, hsocket⟩
    · obtain ⟨hlt, hdispatched⟩ := h.dispatched delivery hold
      exact ⟨(index_step hstep hlt).1, (hname hlt).trans hdispatched⟩
    · have hlt := hopened.handle_lt _ _ hhandle
      exact ⟨(index_step hstep hlt).1,
        (hname hlt).trans ((h.held pair hpair _ hhandle).trans hsocket.symm)⟩

/-- **Data is dispatched under the name of the socket that accepted its connection**, as long as
no descriptor is given out again that the receiver has copied and not yet read. -/
theorem socketName_of_run {created : List (String × String)} {capacity : ℕ}
    {r : SelectReceiver β}
    (hrun : Relation.ReflTransGen (fun r r' => Step capacity r r' ∧ SparesHeld r r')
      (new created) r) :
    ∀ delivery ∈ r.dispatched,
      delivery.socketName = r.nameAt (r.connections delivery.connection).index := by
  have hinv : Opened r ∧ Named r :=
    Transition.invariant_of_run (I := fun r => Opened r ∧ Named r)
      (fun h hstep => ⟨h.1.step hstep.1, h.2.step h.1 hstep.1 hstep.2⟩)
      ⟨opened_new created, ⟨fun _ h => absurd h List.not_mem_nil,
        fun _ h => absurd h List.not_mem_nil⟩⟩ hrun
  exact fun delivery hdelivery => (hinv.2.dispatched delivery hdelivery).2.symm

/-- Two clients have been selected; the transmitter cannot send to the second and drops it. -/
def droppedClient : SelectReceiver ℕ :=
  let r := ((oneClient.accept 0 8 [4] false).clear.collect 0).endCollect
  ((r.select [(7, "name"), (8, "name")]).unlist 0 8).close 8

/-- The first is read, and `recv` fails for the second. -/
def droppedRead : SelectReceiver ℕ :=
  { droppedClient.readFrom 2 (7, "name") with place := .reading [] }

/-- A step that leaves the descriptors gives none out. -/
theorem sparesHeld_of_handle_eq {r r' : SelectReceiver β} (h : r'.handle = r.handle) :
    SparesHeld r r' := by
  intro pair _ id hid
  rwa [h] at hid

/-- Two clients, one of which was dropped. -/
theorem socketName_of_run_droppedRead :
    droppedRead.handle 8 = none ∧
      "name" = droppedRead.nameAt (droppedRead.connections 0).index := by
  refine ⟨rfl, @socketName_of_run ℕ [("tcp://localhost:4242", "name")] 2 droppedRead ?_
    ⟨[1, 2], "name", 7, 0⟩ (List.mem_singleton_self _)⟩
  have hfirst := Relation.ReflTransGen.single
    (r := fun r r' : SelectReceiver ℕ => Step 2 r r' ∧ SparesHeld r r')
    (a := new [("tcp://localhost:4242", "name")]) (b := oneClient)
    ⟨Step.accept 0 7 [1, 2, 3] false Nat.one_pos rfl, fun _ h => absurd h List.not_mem_nil⟩
  have hsecond := hfirst.tail
    ⟨Step.accept 0 8 [4] false Nat.one_pos rfl, fun _ h => absurd h List.not_mem_nil⟩
  have hclear := hsecond.tail ⟨Step.clear rfl, sparesHeld_of_handle_eq rfl⟩
  have hcollect := hclear.tail ⟨Step.collect 0 rfl Nat.one_pos, sparesHeld_of_handle_eq rfl⟩
  have hend := hcollect.tail ⟨Step.endCollect 1 rfl le_rfl, sparesHeld_of_handle_eq rfl⟩
  have hselect := hend.tail
    ⟨Step.select [(7, "name"), (8, "name")] rfl (by decide) (by decide) (List.Perm.refl _),
      sparesHeld_of_handle_eq rfl⟩
  have hunlist := hselect.tail ⟨Step.unlist 0 8 (by decide), sparesHeld_of_handle_eq rfl⟩
  have hclose := hunlist.tail
    ⟨Step.close 8 ?_, fun _ _ _ hid => handle_of_close hid⟩
  · have hread := hclose.tail
      ⟨Step.read (7, "name") [(8, "name")] rfl, sparesHeld_of_handle_eq rfl⟩
    exact hread.tail ⟨Step.readFails (8, "name") [] rfl, sparesHeld_of_handle_eq rfl⟩
  · rintro ⟨index, hlisted⟩
    cases index with
    | zero => exact absurd hlisted (by decide)
    | succ index => exact absurd hlisted List.not_mem_nil

end SelectReceiver

end NewCPP.Ipc
