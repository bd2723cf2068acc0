import NewCPP.Library.Buffer
import NewCPP.Ipc.Transmitter

/-!
# Relaying what was received

A listener of the receiver that relays each container that is dispatched to it: for every
socket with clients it hands a copy of the `DataContainer` to the transmitter, which writes
it later, on its own thread.

* `canWrite_outstanding` — what the buffer has for an item may come to be written.
* `relayed_bytes` — where no read changes the bytes of an item that the transmitter has yet
  to write, what is written for an item are the bytes that were received with it; and
  where one does, other bytes may be.

## Design notes

**Containers.**  A `DataContainer` is a pointer and a size, and a copy of it copies no
bytes.  The receiver has one buffer, into which every message is read from the start; a
pointer is a place in it.

**The listener.**  `dispatchData` is a call on the thread of the receiver, so that no
message is read before it has returned.  A `read` that returns nothing dispatches nothing
and is no step.

**Histories.**  A relayed container is kept together with the bytes that were received with
it, and `written` lists what each `write` was given next to them.
-/

namespace NewCPP.Ipc

open Library
open Sockets (clients)

universe u

variable {β : Type u}

/-- A container that owns nothing: an address and a size. -/
structure DataContainer where
  mData : ℕ
  mDataSize : ℕ

/-- The bytes from `GetDataPtr()` on, `GetSize()` of them. -/
def DataContainer.load (buffer : List β) (container : DataContainer) : List β :=
  Buffer.window buffer container.mData container.mDataSize

/-- A container, and the bytes that were received with it. -/
structure Relayed (β : Type u) where
  container : DataContainer
  received : List β

/-- Where the receiver's thread is. -/
inductive ListenerPlace (β : Type u) where
  | reading
  /-- In `dispatchData`, before a socket is looked at. -/
  | dispatching (data : Relayed β) (socket : ℕ)
  /-- In `dispatchData`; the socket has clients. -/
  | relaying (data : Relayed β) (socket : ℕ)

/-- What a `write` was given, and what was received with it. -/
structure Written (β : Type u) where
  bytes : List β
  received : List β

/-- The receiver's buffer and the transmitter whose queue refers to it. -/
structure Relay (β : Type u) where
  /-- The messages that are to be read. -/
  incoming : List (List β)
  buffer : List β
  receiver : ListenerPlace β := .reading
  transmitter : Transmitter (Relayed β)
  written : List (Written β) := []

namespace Relay

/-- A message is read into the buffer and dispatched. -/
def read (message : List β) (rest : List (List β)) (r : Relay β) : Relay β :=
  { r with
    incoming := rest
    buffer := Buffer.blit r.buffer 0 message
    receiver := .dispatching ⟨⟨0, message.length⟩, message⟩ 0 }

/-- What a step of the transmitter writes. -/
def writes (r : Relay β) (label : Option (ℕ × Relayed β)) : List (Written β) :=
  (label.map fun write => ⟨write.2.container.load r.buffer, write.2.received⟩).toList

/-- The transmitter makes a step. -/
def transmit (label : Option (ℕ × Relayed β)) (transmitter : Transmitter (Relayed β))
    (r : Relay β) : Relay β :=
  { r with transmitter := transmitter, written := r.written ++ r.writes label }

/-- A client is added to a socket, or removed. -/
def changeClients (change : IpcSocket → IpcSocket) (index : ℕ) (r : Relay β) : Relay β :=
  { r with transmitter := { r.transmitter with
      sockets := r.transmitter.sockets.modify index change } }

/-- **One step** of the receiver with its listener, of the transmitter, or of others that
add and remove clients. -/
inductive Step : Relay β → Relay β → Prop
  | read {r : Relay β} (message : List β) (rest : List (List β)) (reading : r.receiver = .reading)
      (incoming : r.incoming = message :: rest) (some_bytes : message ≠ [])
      (fits : message.length ≤ r.buffer.length) :
      Step r (r.read message rest)
  | check {r : Relay β} (data : Relayed β) (socket : ℕ)
      (dispatching : r.receiver = .dispatching data socket)
      (connected : clients r.transmitter.sockets socket ≠ []) :
      Step r { r with receiver := .relaying data socket }
  | skip {r : Relay β} (data : Relayed β) (socket : ℕ)
      (dispatching : r.receiver = .dispatching data socket)
      (exists_socket : socket < r.transmitter.sockets.length)
      (unconnected : clients r.transmitter.sockets socket = []) :
      Step r { r with receiver := .dispatching data (socket + 1) }
  | sendData {r : Relay β} (data : Relayed β) (socket : ℕ) (ipcSocket : IpcSocket)
      (relaying : r.receiver = .relaying data socket)
      (exists_socket : r.transmitter.sockets[socket]? = some ipcSocket) :
      Step r { r with
        receiver := .dispatching data (socket + 1)
        transmitter := r.transmitter.sendData ipcSocket.socketUri data }
  | dispatched {r : Relay β} (data : Relayed β) (socket : ℕ)
      (dispatching : r.receiver = .dispatching data socket)
      (last : r.transmitter.sockets.length ≤ socket) : Step r { r with receiver := .reading }
  | transmit {r : Relay β} (label : Option (ℕ × Relayed β)) (transmitter : Transmitter (Relayed β))
      (steps : Transmitter.LoopStep label r.transmitter transmitter) :
      Step r (r.transmit label transmitter)
  | add {r : Relay β} (index fd : ℕ) :
      Step r (r.changeClients (IpcSocket.addClientDecriptor fd) index)
  | remove {r : Relay β} (index fd : ℕ) :
      Step r (r.changeClients (IpcSocket.removeClientDescriptor fd) index)

/-- Before the first message. -/
def new (sockets : List IpcSocket) (buffer : List β) (messages : List (List β)) : Relay β :=
  { incoming := messages, buffer := buffer, transmitter := .new sockets }

/-- The item in hand, if a client is left to write it to. -/
def inHand : TransmitterPlace (Relayed β) → List (Relayed β)
  | .head => []
  | .taken _ data => [data]
  | .sending _ data rest => if rest = [] then [] else [data]
  | .failed _ data _ rest => if rest = [] then [] else [data]

/-- The items that the transmitter has yet to write. -/
def outstanding (t : Transmitter (Relayed β)) : List (Relayed β) :=
  inHand t.place ++ t.listOfDataToSend.map Prod.snd

/-- The step is a read. -/
def Reads (r r' : Relay β) : Prop :=
  ∃ message rest, r.receiver = .reading ∧ r' = r.read message rest

/-- The next read changes no byte of an item that the transmitter has yet to write. -/
def Undisturbed (r : Relay β) : Prop :=
  ∀ message rest, r.receiver = .reading → r.incoming = message :: rest →
    message.length ≤ r.buffer.length → ∀ data ∈ outstanding r.transmitter,
      data.container.load (Buffer.blit r.buffer 0 message) = data.container.load r.buffer

/-! ## Items that the transmitter has yet to write -/

/-- **What a step of the transmitter takes up** it had yet to write, and so for what it
writes. -/
theorem outstanding_loopStep {label : Option (ℕ × Relayed β)} {t t' : Transmitter (Relayed β)}
    (hloop : Transmitter.LoopStep label t t') :
    outstanding t' ⊆ outstanding t ∧
      ∀ fd data, label = some (fd, data) → data ∈ outstanding t := by
  cases hloop with
  | getHead socket data rest hplace hqueue =>
      refine ⟨?_, by rintro fd data ⟨⟩⟩
      simp [outstanding, inHand, hplace, hqueue]
  | copy socket data hplace =>
      refine ⟨?_, by rintro fd data ⟨⟩⟩
      simp only [outstanding, inHand, hplace]
      split
      · exact List.subset_append_right _ _
      · exact List.Subset.refl _
  | write socket data fd rest hplace =>
      constructor
      · simp only [outstanding, inHand, hplace]
        split
        · simp
        · simp
      · rintro fd' data' ⟨⟩
        simp [outstanding, inHand, hplace]
  | fail socket data fd rest hplace =>
      refine ⟨?_, by rintro fd data ⟨⟩⟩
      simp only [outstanding, inHand, hplace]
      split
      · simp
      · simp
  | remove socket data fd rest hplace =>
      refine ⟨?_, by rintro fd data ⟨⟩⟩
      simp [outstanding, inHand, hplace]
  | done socket data hplace =>
      refine ⟨?_, by rintro fd data ⟨⟩⟩
      simp [outstanding, inHand]

/-- A call adds its own payload at most. -/
theorem outstanding_sendData (socketUri : String) (data : Relayed β)
    (t : Transmitter (Relayed β)) :
    ∀ item ∈ outstanding (t.sendData socketUri data), item ∈ outstanding t ∨ item = data := by
  intro item hitem
  dsimp only [Transmitter.sendData] at hitem
  split at hitem
  · exact Or.inl hitem
  · simpa [outstanding, or_assoc] using hitem

/-! ## The bytes of the items -/

/-- The buffer still has the bytes that were received with the container. -/
def Intact (buffer : List β) (data : Relayed β) : Prop :=
  data.container.load buffer = data.received

/-- What holds as long as no read disturbs an item. -/
structure Kept (r : Relay β) : Prop where
  outstanding : ∀ data ∈ outstanding r.transmitter, Intact r.buffer data
  dispatching : ∀ data socket, r.receiver = .dispatching data socket ∨
    r.receiver = .relaying data socket → Intact r.buffer data
  written : ∀ write ∈ r.written, write.bytes = write.received

/-- **Every step**, where the read disturbs no item. -/
theorem kept_step {r r' : Relay β} (hkept : r.Kept) (hundisturbed : Reads r r' → r.Undisturbed)
    (hstep : Step r r') : r'.Kept := by
  obtain ⟨houtstanding, hdispatching, hwritten⟩ := hkept
  cases hstep with
  | read message rest hreading hincoming _ hfits =>
      refine ⟨fun data hdata => ?_, ?_, hwritten⟩
      · show data.container.load (Buffer.blit r.buffer 0 message) = data.received
        rw [hundisturbed ⟨message, rest, hreading, rfl⟩ message rest hreading hincoming hfits data
          hdata]
        exact houtstanding data hdata
      · rintro data socket (⟨⟨⟩⟩ | ⟨⟨⟩⟩)
        exact Buffer.window_blit_self (by simpa using hfits)
  | check data socket hplace _ =>
      refine ⟨houtstanding, ?_, hwritten⟩
      rintro data' socket' (⟨⟨⟩⟩ | ⟨⟨⟩⟩)
      exact hdispatching data socket (Or.inl hplace)
  | skip data socket hplace _ _ =>
      refine ⟨houtstanding, ?_, hwritten⟩
      rintro data' socket' (⟨⟨⟩⟩ | ⟨⟨⟩⟩)
      exact hdispatching data socket (Or.inl hplace)
  | sendData data socket ipcSocket hplace _ =>
      have hintact := hdispatching data socket (Or.inr hplace)
      refine ⟨fun item hitem => ?_, ?_, hwritten⟩
      · rcases outstanding_sendData _ _ _ item hitem with hitem | rfl
        · exact houtstanding item hitem
        · exact hintact
      · rintro data' socket' (⟨⟨⟩⟩ | ⟨⟨⟩⟩)
        exact hintact
  | dispatched data socket _ _ =>
      refine ⟨houtstanding, ?_, hwritten⟩
      rintro data' socket' (⟨⟨⟩⟩ | ⟨⟨⟩⟩)
  | transmit label transmitter hloop =>
      obtain ⟨hsubset, hlabel⟩ := outstanding_loopStep hloop
      refine ⟨fun data hdata => houtstanding data (hsubset hdata), hdispatching, ?_⟩
      intro write hwrite
      rcases List.mem_append.1 hwrite with hwrite | hwrite
      · exact hwritten write hwrite
      · cases label with
        | none => cases hwrite
        | some written =>
            obtain rfl := List.mem_singleton.1 hwrite
            exact houtstanding written.2 (hlabel written.1 written.2 rfl)
  | add index fd => exact ⟨houtstanding, hdispatching, hwritten⟩
  | remove index fd => exact ⟨houtstanding, hdispatching, hwritten⟩

/-! ## What is outstanding may be written -/

/-- Every item that was queued or taken up is for a socket that there is. -/
structure Destined (t : Transmitter (Relayed β)) : Prop where
  queued : ∀ item ∈ t.listOfDataToSend, item.1 < t.sockets.length
  taken : ∀ socket data, t.place = .taken socket data → socket < t.sockets.length

/-- Every step keeps that. -/
theorem destined_step {r r' : Relay β} (hdestined : Destined r.transmitter)
    (hstep : Step r r') : Destined r'.transmitter := by
  obtain ⟨hqueued, htaken⟩ := hdestined
  cases hstep with
  | sendData data socket ipcSocket _ _ =>
      dsimp only [Transmitter.sendData]
      split
      · exact ⟨hqueued, htaken⟩
      · rename_i destination hresolve
        refine ⟨fun item hitem => ?_, htaken⟩
        rcases List.mem_append.1 hitem with hitem | hitem
        · exact hqueued item hitem
        · rw [List.mem_singleton.1 hitem]
          exact (List.findIdx?_eq_some_iff_getElem.1 hresolve).1
  | transmit label transmitter hloop =>
      cases hloop with
      | getHead socket data rest _ hqueue =>
          rw [hqueue] at hqueued
          refine ⟨fun item hitem => hqueued item (List.mem_cons_of_mem _ hitem), ?_⟩
          rintro socket' data' ⟨⟩
          exact hqueued _ (List.mem_cons_self ..)
      | remove socket data fd rest _ =>
          exact ⟨by simpa [transmit] using hqueued, by rintro socket' data' ⟨⟩⟩
      | _ => exact ⟨hqueued, by rintro socket' data' ⟨⟩⟩
  | add index fd =>
      exact ⟨by simpa [changeClients] using hqueued, by simpa [changeClients] using htaken⟩
  | remove index fd =>
      exact ⟨by simpa [changeClients] using hqueued, by simpa [changeClients] using htaken⟩
  | _ => exact ⟨hqueued, htaken⟩

/-- The bytes that the buffer has for an item can come to be written. -/
def CanWrite (data : Relayed β) (r : Relay β) : Prop :=
  ∃ r', Relation.ReflTransGen Step r r' ∧
    ⟨data.container.load r.buffer, data.received⟩ ∈ r'.written

/-- What can come to be written after a step of the transmitter can be before it. -/
theorem canWrite_of_transmit {data : Relayed β} {r : Relay β} {label : Option (ℕ × Relayed β)}
    {t : Transmitter (Relayed β)} (hloop : Transmitter.LoopStep label r.transmitter t)
    (hcan : (r.transmit label t).CanWrite data) : r.CanWrite data := by
  obtain ⟨r', hrun, hwritten⟩ := hcan
  exact ⟨r', .head (Step.transmit label t hloop) hrun, hwritten⟩

/-- What is written next. -/
theorem canWrite_sending {data : Relayed β} {r : Relay β} {socket fd : ℕ} {rest : List ℕ}
    (hplace : r.transmitter.place = .sending socket data (fd :: rest)) : r.CanWrite data := by
  refine ⟨_, .single (Step.transmit _ _ (.write socket data fd rest hplace)), ?_⟩
  simp [transmit, writes]

/-- A client may come before the clients are copied. -/
theorem canWrite_taken {data : Relayed β} {r : Relay β} {socket : ℕ}
    (hplace : r.transmitter.place = .taken socket data)
    (hsocket : socket < r.transmitter.sockets.length) : r.CanWrite data := by
  obtain ⟨r', hrun, hwritten⟩ : (r.changeClients (IpcSocket.addClientDecriptor 0)
      socket).CanWrite data := by
    refine canWrite_of_transmit (.copy socket data hplace) ?_
    have hclient : 0 ∈ clients (r.changeClients (IpcSocket.addClientDecriptor 0)
        socket).transmitter.sockets socket :=
      (Sockets.mem_clients_add _ _ _ _ _).2 (Or.inr ⟨rfl, hsocket, rfl⟩)
    cases hclients : clients (r.changeClients (IpcSocket.addClientDecriptor 0)
        socket).transmitter.sockets socket with
    | nil =>
        rw [hclients] at hclient
        cases hclient
    | cons fd rest => exact canWrite_sending rfl
  exact ⟨r', .head (Step.add socket 0) hrun, hwritten⟩

/-- The transmitter can finish with the item in hand. -/
theorem canWrite_of_finished {data : Relayed β} (rest : List ℕ) :
    ∀ {r : Relay β} {socket : ℕ} {other : Relayed β},
      r.transmitter.place = .sending socket other rest →
        (∀ r' : Relay β, r'.buffer = r.buffer →
          r'.transmitter.listOfDataToSend = r.transmitter.listOfDataToSend →
          r'.transmitter.sockets = r.transmitter.sockets →
          r'.transmitter.place = .head → r'.CanWrite data) → r.CanWrite data := by
  induction rest with
  | nil =>
      intro r socket other hplace hthen
      exact canWrite_of_transmit (.done socket other hplace) (hthen _ rfl rfl rfl rfl)
  | cons fd rest ih =>
      intro r socket other hplace hthen
      refine canWrite_of_transmit (.write socket other fd rest hplace) (ih rfl ?_)
      exact fun r' hbuffer hqueue hsockets hhead => hthen r' hbuffer hqueue hsockets hhead

/-- The items before it can be finished. -/
theorem canWrite_queued {data : Relayed β} {socket : ℕ} (queue : List (ℕ × Relayed β)) :
    ∀ {r : Relay β}, r.transmitter.place = .head → r.transmitter.listOfDataToSend = queue →
      (∀ item ∈ queue, item.1 < r.transmitter.sockets.length) → (socket, data) ∈ queue →
        r.CanWrite data := by
  induction queue with
  | nil =>
      rintro r _ _ _ ⟨⟩
  | cons item queue ih =>
      intro r hhead hqueue hsockets hmem
      refine canWrite_of_transmit (.getHead item.1 item.2 queue hhead hqueue) ?_
      rcases List.mem_cons.1 hmem with rfl | hmem
      · exact canWrite_taken rfl (hsockets _ (List.mem_cons_self ..))
      · refine canWrite_of_transmit (.copy item.1 item.2 rfl) (canWrite_of_finished _ rfl ?_)
        intro r' _ hqueue' hsockets' hhead'
        refine ih hhead' hqueue' (fun other hother => ?_) hmem
        rw [hsockets']
        exact hsockets other (List.mem_cons_of_mem _ hother)

/-- While a payload is being sent, the others are still to come. -/
theorem canWrite_outstanding_sending {data : Relayed β} {r : Relay β} {socket : ℕ}
    {other : Relayed β} {rest : List ℕ} (hplace : r.transmitter.place = .sending socket other rest)
    (hdestined : Destined r.transmitter) (hdata : data ∈ outstanding r.transmitter) :
    r.CanWrite data := by
  rw [outstanding, hplace, List.mem_append] at hdata
  rcases hdata with hdata | hdata
  · cases rest with
    | nil => cases hdata
    | cons fd rest =>
        obtain rfl := List.mem_singleton.1 hdata
        exact canWrite_sending hplace
  · obtain ⟨item, hitem, rfl⟩ := List.mem_map.1 hdata
    refine canWrite_of_finished rest hplace fun r' _ hqueue hsockets hhead => ?_
    refine canWrite_queued _ hhead hqueue (fun other hother => ?_) hitem
    rw [hsockets]
    exact hdestined.queued other hother

/-- **What the transmitter has yet to write may be written** before anything else is
read. -/
theorem canWrite_outstanding {data : Relayed β} {r : Relay β}
    (hdestined : Destined r.transmitter) (hdata : data ∈ outstanding r.transmitter) :
    r.CanWrite data := by
  cases hplace : r.transmitter.place with
  | head =>
      rw [outstanding, hplace] at hdata
      obtain ⟨item, hitem, rfl⟩ := List.mem_map.1 hdata
      exact canWrite_queued _ hplace rfl hdestined.queued hitem
  | taken socket other =>
      rw [outstanding, hplace, List.mem_append] at hdata
      rcases hdata with hdata | hdata
      · obtain rfl := List.mem_singleton.1 hdata
        exact canWrite_taken hplace (hdestined.taken socket data hplace)
      · have hcopy := Transmitter.LoopStep.copy socket other hplace
        refine canWrite_of_transmit hcopy (canWrite_outstanding_sending rfl ?_ ?_)
        · exact destined_step hdestined (Step.transmit none _ hcopy)
        · exact List.mem_append_right _ hdata
  | sending socket other rest => exact canWrite_outstanding_sending hplace hdestined hdata
  | failed socket other fd rest =>
      have hremove := Transmitter.LoopStep.remove socket other fd rest hplace
      refine canWrite_of_transmit hremove (canWrite_outstanding_sending rfl ?_ ?_)
      · exact destined_step hdestined (Step.transmit none _ hremove)
      · rw [outstanding, hplace] at hdata
        exact hdata

/-- **Relayed payloads keep their bytes** in a run in which no read changes a byte of an
item that the transmitter has yet to write: each `write` is given the bytes that were
received with its item.  Where the next read does change one, other bytes may be written. -/
theorem relayed_bytes (sockets : List IpcSocket) (buffer : List β) (messages : List (List β))
    {r : Relay β} (hrun : Relation.ReflTransGen (Transition.restrictAt Step Reads Undisturbed)
      (new sockets buffer messages) r) :
    (∀ write ∈ r.written, write.bytes = write.received) ∧
      (¬r.Undisturbed → ∃ r', Relation.ReflTransGen Step r r' ∧
        ∃ write ∈ r'.written, write.bytes ≠ write.received) := by
  have hnew : (new sockets buffer messages).Kept := by
    refine ⟨by rintro data ⟨⟩, ?_, by rintro write ⟨⟩⟩
    rintro data socket (⟨⟨⟩⟩ | ⟨⟨⟩⟩)
  have hkept : r.Kept :=
    Transition.invariant_of_run_restrictAt (I := Kept) kept_step hnew hrun
  have hdestined : Destined r.transmitter :=
    Transition.invariant_of_run_restrictAt (I := fun r => Destined r.transmitter)
      (fun h _ hstep => destined_step h hstep)
      ⟨by rintro item ⟨⟩, by rintro socket data ⟨⟩⟩ hrun
  refine ⟨hkept.written, fun hdisturbed => ?_⟩
  simp only [Undisturbed, not_forall] at hdisturbed
  obtain ⟨message, rest, hreading, hincoming, hfits, data, hdata, hbytes⟩ := hdisturbed
  rw [hkept.outstanding data hdata] at hbytes
  have hmessage : message ≠ [] := by
    rintro rfl
    rw [Buffer.blit_nil] at hbytes
    exact hbytes (hkept.outstanding data hdata)
  have hread := Step.read message rest hreading hincoming hmessage hfits
  obtain ⟨r', hrun', hwritten⟩ :=
    canWrite_outstanding (r := r.read message rest) hdestined hdata
  exact ⟨r', .head hread hrun', _, hwritten, hbytes⟩

/-- A socket with one client. -/
def oneClient : List IpcSocket :=
  [{ socketUri := "unix:/a", socketName := "a", clientsDescriptor := [5] }]

/-- After one item was relayed and written. -/
def relayedOnce (incoming : List (List ℕ)) (buffer : List ℕ) (receiver : ListenerPlace ℕ)
    (data : Relayed ℕ) : Relay ℕ :=
  { incoming := incoming
    buffer := buffer
    receiver := receiver
    transmitter :=
      { sockets := oneClient
        place := .sending 0 data []
        calls := [("unix:/a", data)]
        dequeued := [(0, data)]
        written := Function.update (fun _ => []) 5 [data] }
    written := [⟨data.container.load buffer, data.received⟩] }

/-- A message that is relayed and written before the next one is read. -/
theorem message_relayed :
    let r := relayedOnce [[2]] [1] (.dispatching ⟨⟨0, 1⟩, [1]⟩ 1) ⟨⟨0, 1⟩, [1]⟩
    r.written.map Written.bytes = [[1]] ∧ ∀ write ∈ r.written, write.bytes = write.received := by
  intro r
  refine ⟨rfl, (relayed_bytes oneClient [0] [[1], [2]] (r := r) ?_).1⟩
  refine .head ⟨Step.read [1] [[2]] rfl rfl (by decide) (by decide), ?_⟩ ?_
  · rintro - message rest _ _ _ item ⟨⟩
  refine .head ⟨Step.check ⟨⟨0, 1⟩, [1]⟩ 0 rfl (by decide), ?_⟩ ?_
  · rintro ⟨_, _, ⟨⟩, _⟩
  refine .head ⟨Step.sendData ⟨⟨0, 1⟩, [1]⟩ 0 _ rfl rfl, ?_⟩ ?_
  · rintro ⟨_, _, ⟨⟩, _⟩
  refine .head ⟨Step.transmit _ _ (.getHead 0 ⟨⟨0, 1⟩, [1]⟩ [] rfl rfl), ?_⟩ ?_
  · rintro ⟨_, _, ⟨⟩, _⟩
  refine .head ⟨Step.transmit _ _ (.copy 0 ⟨⟨0, 1⟩, [1]⟩ rfl), ?_⟩ ?_
  · rintro ⟨_, _, ⟨⟩, _⟩
  refine .head ⟨Step.transmit _ _ (.write 0 ⟨⟨0, 1⟩, [1]⟩ 5 [] rfl), ?_⟩ .refl
  rintro ⟨_, _, ⟨⟩, _⟩

/-- A second message is read before the first is written, and written in its place. -/
theorem message_overwritten :
    let r := relayedOnce [] [2] (.dispatching ⟨⟨0, 1⟩, [2]⟩ 0) ⟨⟨0, 1⟩, [1]⟩
    Relation.ReflTransGen Step (new oneClient [0] [[1], [2]]) r ∧
      r.written.map Written.bytes = [[2]] ∧ r.written.map Written.received = [[1]] := by
  intro r
  refine ⟨?_, rfl, rfl⟩
  refine .head (Step.read [1] [[2]] rfl rfl (by decide) (by decide)) ?_
  refine .head (Step.check ⟨⟨0, 1⟩, [1]⟩ 0 rfl (by decide)) ?_
  refine .head (Step.sendData ⟨⟨0, 1⟩, [1]⟩ 0 _ rfl rfl) ?_
  refine .head (Step.dispatched ⟨⟨0, 1⟩, [1]⟩ 1 rfl (by decide)) ?_
  refine .head (Step.read [2] [] rfl rfl (by decide) (by decide)) ?_
  refine .head (Step.transmit _ _ (.getHead 0 ⟨⟨0, 1⟩, [1]⟩ [] rfl rfl)) ?_
  refine .head (Step.transmit _ _ (.copy 0 ⟨⟨0, 1⟩, [1]⟩ rfl)) ?_
  exact .head (Step.transmit _ _ (.write 0 ⟨⟨0, 1⟩, [1]⟩ 5 [] rfl)) .refl

end Relay

end NewCPP.Ipc
