import Mathlib.Data.List.Nodup
import Mathlib.Data.List.Basic
import Mathlib.Tactic.Common

/-!
# Sockets of the interprocess communication

`IpcGenericSocket` and `IIpcSocket`: a socket has a URI, a name and the list of the
descriptors of its clients, which the connector, the receiver and the transmitter share.

* `mem_clients_add`, `mem_clients_remove`, `mem_clients_clear` — the three operations on the
  list of one socket, as they are seen through `clients`.

## Design notes

**Descriptors.**  A descriptor that `accept` returns is a natural number.

**Sets of descriptors.**  The set that `collectDescriptors` builds is a list: its order is
the order in which new descriptors are registered, on which nothing depends.

**The vector of sockets.**  All threads hold the same sockets, so that a socket is given
by its place in the list; each call on the list of clients takes `clientsMutex` and is one
step.

**Names and URIs.**  They are given when a socket is made, and nothing changes them.  Two
sockets may have one name; a client is told apart by its descriptor and by the place of its
socket.

**Distinct clients.**  That no client is listed twice is a field of `IpcSocket`:
`addClientDecriptor` looks for the descriptor first, as the source does, and the other
operations only take clients out.
-/

namespace NewCPP.Ipc

/-- A socket and its clients.  No client is listed twice. -/
structure IpcSocket where
  socketUri : String
  socketName : String
  clientsDescriptor : List ℕ := []
  nodup : clientsDescriptor.Nodup := by simp

namespace IpcSocket

/-- A client that is not listed is put behind the others. -/
def addClientDecriptor (clientDescriptor : ℕ) (socket : IpcSocket) : IpcSocket :=
  if h : clientDescriptor ∈ socket.clientsDescriptor then socket
  else { socket with
    clientsDescriptor := socket.clientsDescriptor ++ [clientDescriptor]
    nodup := socket.nodup.append (List.nodup_singleton _) (by simpa using h) }

/-- The client is no longer listed. -/
def removeClientDescriptor (clientDescriptor : ℕ) (socket : IpcSocket) : IpcSocket :=
  { socket with
    clientsDescriptor := socket.clientsDescriptor.erase clientDescriptor
    nodup := socket.nodup.erase _ }

/-- No client is listed. -/
def clearClientsDescriptor (socket : IpcSocket) : IpcSocket :=
  { socket with clientsDescriptor := [], nodup := List.nodup_nil }

/-- The client is listed, with all who were. -/
theorem mem_addClientDecriptor (fd other : ℕ) (socket : IpcSocket) :
    other ∈ (socket.addClientDecriptor fd).clientsDescriptor ↔
      other ∈ socket.clientsDescriptor ∨ other = fd := by
  rw [addClientDecriptor]
  split
  · rename_i h
    constructor
    · exact Or.inl
    · rintro (hother | rfl)
      · exact hother
      · exact h
  · simp

/-- All others stay listed. -/
theorem mem_removeClientDescriptor (fd other : ℕ) (socket : IpcSocket) :
    other ∈ (socket.removeClientDescriptor fd).clientsDescriptor ↔
      other ≠ fd ∧ other ∈ socket.clientsDescriptor :=
  socket.nodup.mem_erase_iff

/-- The socket stays the same otherwise. -/
@[simp] theorem socketUri_addClientDecriptor (fd : ℕ) (socket : IpcSocket) :
    (socket.addClientDecriptor fd).socketUri = socket.socketUri := by
  rw [addClientDecriptor]
  split <;> rfl

@[simp] theorem socketUri_removeClientDescriptor (fd : ℕ) (socket : IpcSocket) :
    (socket.removeClientDescriptor fd).socketUri = socket.socketUri := rfl

/-- So does its name. -/
@[simp] theorem socketName_addClientDecriptor (fd : ℕ) (socket : IpcSocket) :
    (socket.addClientDecriptor fd).socketName = socket.socketName := by
  rw [addClientDecriptor]
  split <;> rfl

@[simp] theorem socketName_removeClientDescriptor (fd : ℕ) (socket : IpcSocket) :
    (socket.removeClientDescriptor fd).socketName = socket.socketName := rfl

@[simp] theorem socketName_clearClientsDescriptor (socket : IpcSocket) :
    socket.clearClientsDescriptor.socketName = socket.socketName := rfl

end IpcSocket

/-! ## The sockets -/

namespace Sockets

/-- Sockets that have just been created, with these URIs and names. -/
def create (created : List (String × String)) : List IpcSocket :=
  created.map fun socket => { socketUri := socket.1, socketName := socket.2 }

/-- `getCopyOfClientsDescriptor` of the socket at a place. -/
def clients (sockets : List IpcSocket) (index : ℕ) : List ℕ :=
  (sockets[index]?.map IpcSocket.clientsDescriptor).getD []

/-- Some socket lists the client. -/
def Listed (sockets : List IpcSocket) (fd : ℕ) : Prop :=
  ∃ index, fd ∈ clients sockets index

/-- At first no socket has clients. -/
theorem clients_create (created : List (String × String)) (index : ℕ) :
    clients (create created) index = [] := by
  simp only [clients, create, List.getElem?_map, Option.map_map]
  cases created[index]? <;> rfl

/-- No client is listed twice. -/
theorem nodup_clients (sockets : List IpcSocket) (index : ℕ) : (clients sockets index).Nodup := by
  rw [clients]
  cases sockets[index]? with
  | none => exact List.nodup_nil
  | some socket => exact socket.nodup

/-- A change at one place leaves the clients at the others. -/
theorem clients_modify_ne (f : IpcSocket → IpcSocket) (sockets : List IpcSocket) {i j : ℕ}
    (h : i ≠ j) : clients (sockets.modify i f) j = clients sockets j := by
  rw [clients, clients, List.getElem?_modify_ne f sockets h]

theorem lt_length_of_mem_clients {sockets : List IpcSocket} {index fd : ℕ}
    (h : fd ∈ clients sockets index) : index < sockets.length := by
  by_contra hlength
  rw [clients, List.getElem?_eq_none (Nat.le_of_not_lt hlength)] at h
  cases h

/-- One socket lists one client more. -/
theorem mem_clients_add (sockets : List IpcSocket) (i j fd other : ℕ) :
    other ∈ clients (sockets.modify i (IpcSocket.addClientDecriptor fd)) j ↔
      other ∈ clients sockets j ∨ i = j ∧ i < sockets.length ∧ other = fd := by
  by_cases h : i = j
  · subst h
    by_cases hlength : i < sockets.length
    · simp [clients, hlength, IpcSocket.mem_addClientDecriptor]
    · simp [clients, hlength]
  · rw [clients_modify_ne _ _ h]
    simp [h]

/-- One socket lists one client less. -/
theorem mem_clients_remove (sockets : List IpcSocket) (i j fd other : ℕ) :
    other ∈ clients (sockets.modify i (IpcSocket.removeClientDescriptor fd)) j ↔
      other ∈ clients sockets j ∧ ¬(i = j ∧ other = fd) := by
  by_cases h : i = j
  · subst h
    by_cases hlength : i < sockets.length
    · simp [clients, hlength, IpcSocket.mem_removeClientDescriptor, and_comm]
    · simp [clients, List.getElem?_eq_none (Nat.le_of_not_lt hlength)]
  · rw [clients_modify_ne _ _ h]
    simp [h]

/-- The place of the first socket with a URI. -/
def resolve (sockets : List IpcSocket) (socketUri : String) : Option ℕ :=
  sockets.findIdx? fun socket => socket.socketUri = socketUri

/-- What leaves the URIs leaves the sockets to which they resolve. -/
theorem resolve_congr {sockets sockets' : List IpcSocket}
    (h : sockets'.map IpcSocket.socketUri = sockets.map IpcSocket.socketUri) (uri : String) :
    resolve sockets' uri = resolve sockets uri := by
  have hmap (sockets : List IpcSocket) : resolve sockets uri =
      (sockets.map IpcSocket.socketUri).findIdx? (· = uri) := by
    rw [List.findIdx?_map]
    rfl
  rw [hmap, hmap, h]

/-- A change that leaves a field of every socket. -/
theorem map_modify_of_eq {field : IpcSocket → String} {f : IpcSocket → IpcSocket}
    (h : ∀ socket, field (f socket) = field socket) (sockets : List IpcSocket) (index : ℕ) :
    (sockets.modify index f).map field = sockets.map field := by
  ext1 i
  rw [List.getElem?_map, List.getElem?_map, List.getElem?_modify]
  cases sockets[i]? with
  | none => rfl
  | some socket =>
      by_cases hi : index = i <;> simp [hi, h]

/-- One socket lists none any more. -/
theorem mem_clients_clear (sockets : List IpcSocket) (i j fd : ℕ) :
    fd ∈ clients (sockets.modify i IpcSocket.clearClientsDescriptor) j ↔
      i ≠ j ∧ fd ∈ clients sockets j := by
  by_cases h : i = j
  · subst h
    simp only [clients, List.getElem?_modify_eq]
    cases sockets[i]? <;> simp [IpcSocket.clearClientsDescriptor]
  · rw [clients_modify_ne _ _ h]
    simp [h]

/-- `findParent` of the receiver. -/
def findParent (sockets : List IpcSocket) (socketDescriptor : ℕ) : Option ℕ :=
  sockets.findIdx? fun socket => socketDescriptor ∈ socket.clientsDescriptor

/-- `collectDescriptors` of the receiver: the clients with the names of their sockets. -/
def collectDescriptors (sockets : List IpcSocket) : List (ℕ × String) :=
  sockets.flatMap fun socket => socket.clientsDescriptor.map fun fd => (fd, socket.socketName)

/-- The descriptors of the pairs in one set and not in the other (`std::set_difference`). -/
def difference (pairs others : List (ℕ × String)) : List ℕ :=
  (pairs.filter (· ∉ others)).map Prod.fst

/-- The descriptors of pairs that only the first list has. -/
theorem mem_difference (pairs others : List (ℕ × String)) (fd : ℕ) :
    fd ∈ difference pairs others ↔ ∃ name, (fd, name) ∈ pairs ∧ (fd, name) ∉ others := by
  simp [difference]

/-- Each client with the name of its socket. -/
theorem mem_collectDescriptors_pair (sockets : List IpcSocket) (fd : ℕ) (name : String) :
    (fd, name) ∈ collectDescriptors sockets ↔
      ∃ index, (sockets.map IpcSocket.socketName)[index]? = some name ∧
        fd ∈ clients sockets index := by
  rw [collectDescriptors, List.mem_flatMap]
  constructor
  · rintro ⟨socket, hsocket, hmem⟩
    obtain ⟨index, hindex⟩ := List.mem_iff_getElem?.1 hsocket
    have hfd : fd ∈ socket.clientsDescriptor ∧ socket.socketName = name := by
      simpa using hmem
    refine ⟨index, ?_, ?_⟩
    · rw [List.getElem?_map, hindex, Option.map_some, hfd.2]
    · simpa [clients, hindex] using hfd.1
  · rintro ⟨index, hname, h⟩
    have hlength := lt_length_of_mem_clients h
    rw [List.getElem?_map, List.getElem?_eq_getElem hlength, Option.map_some,
      Option.some_inj] at hname
    refine ⟨sockets[index], List.getElem_mem hlength, ?_⟩
    simpa [clients, hlength, hname] using h

/-- All clients, whatever their sockets are called. -/
theorem mem_collectDescriptors (sockets : List IpcSocket) (fd : ℕ) :
    (∃ name, (fd, name) ∈ collectDescriptors sockets) ↔ Listed sockets fd := by
  constructor
  · rintro ⟨name, h⟩
    obtain ⟨index, -, hindex⟩ := (mem_collectDescriptors_pair sockets fd name).1 h
    exact ⟨index, hindex⟩
  · rintro ⟨index, h⟩
    have hlength := lt_length_of_mem_clients h
    refine ⟨sockets[index].socketName, (mem_collectDescriptors_pair _ _ _).2 ⟨index, ?_, h⟩⟩
    rw [List.getElem?_map, List.getElem?_eq_getElem hlength, Option.map_some]

end Sockets

end NewCPP.Ipc
