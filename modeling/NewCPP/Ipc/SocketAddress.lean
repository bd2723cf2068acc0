import Mathlib.Data.Int.Notation
import Mathlib.Data.List.TakeDrop
import NewCPP.Ipc.ConnectorStart
import NewCPP.Library.Buffer
import NewCPP.Network.NaiveURIParser

/-!
# The address of a listening socket

`IpcConnectorUnix::bindSocket` copies the path of the socket into the 108 cells of
`sun_path`, as far as it fits, and binds that; the other calls get the whole path.

* `addresses_iff` — for which paths the addresses differ when the paths do, and the path that
  is unlinked and given away is the one that was bound: those with 107 characters at most.

## Design notes

**Strings.**  `data` gives a terminated string, of which each call reads what is in front of
the first null character.

**System calls.**  `SystemCall` are the calls with the arguments that matter here, and
`SystemCalls` is what they return.

**Truncation.**  `sun_path` has 108 cells and is zeroed before `strncpy`, which copies 107
characters at most.  A longer path is therefore bound under its first 107 characters, while
`unlink`, `chown` and `chmod` go to the whole path.

**Two sockets.**  `addresses_iff` is about any two sockets that were bound, with whatever the
other calls returned.
-/

namespace NewCPP.Ipc

open Library Library.CharString NewCPP.Network

/-- The system calls of `bindSocket`, in the order in which they are made. -/
inductive SystemCall where
  | socket
  | unlink (path : List Char)
  | bind (sunPath : List Char)
  | listen (backlog : ℕ)
  | chmod (path : List Char) (mode : ℕ)
  | getgrnam (group : List Char)
  | chown (path : List Char) (uid gid : ℕ)
  deriving DecidableEq

/-- What the system calls return; `none` and `false` stand for an error. -/
structure SystemCalls where
  socket : Option ℕ := some 3
  bind : Bool := true
  listen : Bool := true
  chmod : Bool := true
  uid : ℕ := 0
  getgrnam : Option ℕ := some 0

/-- The members of the class. -/
structure IpcSocketUnix where
  socketUri : List Char
  socketName : List Char
  socketPath : List Char := []
  socketDescriptor : ℤ := 0
  deriving DecidableEq

/-- The constructor; an exception comes as its text. -/
def IpcSocketUnix.new (uri name : List Char) : Except (List Char) IpcSocketUnix :=
  let parsedUri := NaiveURIParser.parse uri
  if !parsedUri.valid then .error ("Malformed Endpoint Uri=".toList ++ uri)
  else if parsedUri.protocol ≠ "unix".toList then
    .error "Only UnixSocket is supported as IPC".toList
  else if parsedUri.path = [] then .error "Path component of URI can't be empty".toList
  else .ok { socketUri := uri, socketName := name, socketPath := parsedUri.path }

namespace IpcConnectorUnix

/-- The size of `sun_path`. -/
def sunPathSize : ℕ := 108

/-- What a system call reads of the data of a string. -/
def data (str : List Char) : List Char :=
  cString '\x00' str

/-- `strncpy`: text, and null characters up to the length that is asked for. -/
def strncpy (dest src : List Char) (length : ℕ) : List Char :=
  let text := (data src).take length
  Buffer.blit dest 0 (text ++ List.replicate (length - text.length) '\x00')

/-- `sun_path` as it is passed to `bind`. -/
def sunPath (socketPath : List Char) : List Char :=
  let addressLength := min socketPath.length (sunPathSize - 1)
  strncpy (List.replicate sunPathSize '\x00') socketPath addressLength

/-- The calls of `applyPermissions`, for the group `userGroup`. -/
def applyPermissions (returns : SystemCalls) (userGroup address : List Char) :
    List SystemCall :=
  .chmod (data address) 0o770 ::
    if !returns.chmod then []
    else
      .getgrnam (data userGroup) ::
        match returns.getgrnam with
        | none => []
        | some gid => [.chown (data address) returns.uid gid]

/-- The result of `bindSocket`, the socket after it and the calls that it makes. -/
def bindSocket (returns : SystemCalls) (userGroup : List Char) (socket : IpcSocketUnix) :
    Bool × IpcSocketUnix × List SystemCall :=
  if socket.socketPath = [] then (false, socket, [])
  else
    match returns.socket with
    | none => (false, socket, [.socket])
    | some socketDescriptor =>
        let socket := { socket with socketDescriptor := socketDescriptor }
        let calls : List SystemCall :=
          [.socket, .unlink (data socket.socketPath), .bind (sunPath socket.socketPath)]
        if !returns.bind then (false, socket, calls)
        else if !returns.listen then (false, socket, calls ++ [.listen 5])
        else
          (true, socket,
            calls ++ .listen 5 :: applyPermissions returns userGroup socket.socketPath)

/-! ## The copied path -/

theorem length_data_le (str : List Char) : (data str).length ≤ str.length :=
  length_cString_le _ str

/-- A cleared field holds what is copied into it, and null characters. -/
theorem strncpy_replicate (src : List Char) {size length : ℕ} (h : length ≤ size) :
    strncpy (List.replicate size '\x00') src length =
      (data src).take length ++
        List.replicate (size - ((data src).take length).length) '\x00' := by
  have hle : ((data src).take length).length ≤ length := List.length_take_le _ _
  unfold strncpy
  rw [Buffer.blit, List.take_zero, List.nil_append, Nat.zero_add, List.length_append,
    List.length_replicate, List.drop_replicate, List.append_assoc, ← List.replicate_add]
  congr 2
  omega

/-- As much of the path as fits. -/
theorem sunPath_eq (socketPath : List Char) : sunPath socketPath =
    (data socketPath).take 107 ++
      List.replicate (108 - ((data socketPath).take 107).length) '\x00' := by
  have hle := length_data_le socketPath
  have htext : (data socketPath).take (min socketPath.length 107) =
      (data socketPath).take 107 := by
    rw [Nat.min_comm, ← List.take_take, List.take_of_length_le hle]
  unfold sunPath sunPathSize
  rw [strncpy_replicate socketPath (by omega), htext]

/-- What is bound is the front of the path. -/
theorem data_sunPath (socketPath : List Char) :
    data (sunPath socketPath) = (data socketPath).take 107 := by
  rw [sunPath_eq]
  refine cString_append_replicate (fun hmem => ?_) _
  exact not_mem_cString _ socketPath (List.mem_of_mem_take hmem)

/-- The address is the path as long as the path fits. -/
theorem data_sunPath_eq_iff (socketPath : List Char) :
    data (sunPath socketPath) = data socketPath ↔ (data socketPath).length ≤ 107 := by
  rw [data_sunPath, List.take_eq_self_iff]

/-- Paths that fit have addresses of their own. -/
theorem sunPath_eq_iff {socketPath socketPath' : List Char}
    (h : (data socketPath).length ≤ 107) (h' : (data socketPath').length ≤ 107) :
    sunPath socketPath = sunPath socketPath' ↔ data socketPath = data socketPath' := by
  constructor
  · intro heq
    rw [← (data_sunPath_eq_iff socketPath).2 h, ← (data_sunPath_eq_iff socketPath').2 h', heq]
  · intro heq
    rw [sunPath_eq, sunPath_eq, heq]

/-! ## The calls -/

/-- The addresses that are bound. -/
def bound (calls : List SystemCall) : List (List Char) :=
  calls.filterMap fun
    | .bind sunPath => some sunPath
    | _ => none

/-- The paths that are unlinked, and those whose mode or owner is changed. -/
def touched (calls : List SystemCall) : List (List Char) :=
  calls.filterMap fun
    | .unlink path | .chmod path _ | .chown path _ _ => some path
    | _ => none

/-- Permissions touch the path and bind nothing. -/
theorem calls_applyPermissions (returns : SystemCalls) (userGroup address : List Char) :
    bound (applyPermissions returns userGroup address) = [] ∧
      ∀ path ∈ touched (applyPermissions returns userGroup address), path = data address := by
  unfold applyPermissions
  split
  · simp [bound, touched]
  · split <;> simp [bound, touched]

/-- **The calls for a socket that is bound.** -/
theorem bindSocket_of_bound {returns : SystemCalls} {userGroup : List Char}
    {socket : IpcSocketUnix} (h : (bindSocket returns userGroup socket).1 = true) :
    (bindSocket returns userGroup socket).2.2 =
      .socket :: .unlink (data socket.socketPath) :: .bind (sunPath socket.socketPath) ::
        .listen 5 :: applyPermissions returns userGroup socket.socketPath := by
  unfold bindSocket at h ⊢
  split at h
  · cases h
  · rename_i hpath
    rw [if_neg hpath]
    split at h
    · cases h
    · dsimp only at h ⊢
      split at h
      · cases h
      · rename_i hbind
        rw [if_neg hbind]
        split at h
        · cases h
        · rename_i hlisten
          rw [if_neg hlisten]
          rfl

/-- What a successful `bindSocket` binds and touches. -/
theorem calls_bindSocket {returns : SystemCalls} {userGroup : List Char}
    {socket : IpcSocketUnix} (h : (bindSocket returns userGroup socket).1 = true) :
    bound (bindSocket returns userGroup socket).2.2 = [sunPath socket.socketPath] ∧
      data socket.socketPath ∈ touched (bindSocket returns userGroup socket).2.2 ∧
      ∀ path ∈ touched (bindSocket returns userGroup socket).2.2,
        path = data socket.socketPath := by
  obtain ⟨hnone, hpaths⟩ := calls_applyPermissions returns userGroup socket.socketPath
  rw [bindSocket_of_bound h]
  refine ⟨congrArg (sunPath socket.socketPath :: ·) hnone, List.mem_cons_self, ?_⟩
  exact List.forall_mem_cons.2 ⟨rfl, hpaths⟩

/-- Paths that differ are bound to addresses that differ. -/
def Apart (first second : IpcSocketUnix) (calls calls' : List SystemCall) : Prop :=
  first.socketPath ≠ second.socketPath →
    ∀ address ∈ bound calls, ∀ address' ∈ bound calls', address ≠ address'

/-- The other calls are about the address that is bound. -/
def Addressed (calls : List SystemCall) : Prop :=
  ∀ address ∈ bound calls, ∀ path ∈ touched calls, path = data address

/-- All calls are about one path exactly if it fits. -/
theorem addressed_iff {returns : SystemCalls} {userGroup : List Char} {socket : IpcSocketUnix}
    (h : (bindSocket returns userGroup socket).1 = true) :
    Addressed (bindSocket returns userGroup socket).2.2 ↔
      (data socket.socketPath).length ≤ 107 := by
  obtain ⟨hbound, hmem, hpaths⟩ := calls_bindSocket h
  rw [← data_sunPath_eq_iff, Addressed, hbound]
  simp only [List.forall_mem_singleton]
  constructor
  · exact fun hall => (hall _ hmem).symm
  · intro heq path hpath
    rw [hpaths path hpath, heq]

/-- **When two sockets are bound to addresses of their own.**  Both paths, up to a null
character, have at most 107 characters, and if they differ they do so in front of it. -/
theorem addresses_iff (returns returns' : SystemCalls) (userGroup userGroup' : List Char)
    (first second : IpcSocketUnix) (h : (bindSocket returns userGroup first).1 = true)
    (h' : (bindSocket returns' userGroup' second).1 = true) :
    (Apart first second (bindSocket returns userGroup first).2.2
          (bindSocket returns' userGroup' second).2.2 ∧
        Addressed (bindSocket returns userGroup first).2.2 ∧
        Addressed (bindSocket returns' userGroup' second).2.2) ↔
      (first.socketPath ≠ second.socketPath →
          data first.socketPath ≠ data second.socketPath) ∧
        (data first.socketPath).length ≤ 107 ∧ (data second.socketPath).length ≤ 107 := by
  rw [addressed_iff h, addressed_iff h']
  refine and_congr_left fun hlengths => imp_congr_right fun _ => ?_
  rw [(calls_bindSocket h).1, (calls_bindSocket h').1]
  simp only [List.forall_mem_singleton, Ne, sunPath_eq_iff hlengths.1 hlengths.2]

/-- Two sockets in a folder. -/
theorem addresses_tmp :
    (bindSocket {} "ml".toList ⟨[], [], "/tmp/a".toList, 0⟩).1 = true ∧
      Apart ⟨[], [], "/tmp/a".toList, 0⟩ ⟨[], [], "/tmp/b".toList, 0⟩
        (bindSocket {} "ml".toList ⟨[], [], "/tmp/a".toList, 0⟩).2.2
        (bindSocket {} "ml".toList ⟨[], [], "/tmp/b".toList, 0⟩).2.2 :=
  ⟨rfl, ((addresses_iff {} {} "ml".toList "ml".toList ⟨[], [], "/tmp/a".toList, 0⟩
    ⟨[], [], "/tmp/b".toList, 0⟩ rfl rfl).2
      ⟨fun _ => by decide, by decide, by decide⟩).1⟩

/-- The path of a URI is what stands behind `unix:/`. -/
theorem new_of_path {rest : List Char} (h : rest.head? ≠ some '/') (name : List Char) :
    IpcSocketUnix.new ("unix:/".toList ++ rest) name =
      .ok
        { socketUri := "unix:/".toList ++ rest
          socketName := name
          socketPath := '/' :: rest } := by
  let uri : PathUri := ⟨"unix".toList, rest, by decide, h⟩
  have hparse : NaiveURIParser.parse ("unix:/".toList ++ rest) = uri.parsed :=
    NaiveURIParser.parse_pathUri uri
  have hprotocol : uri.parsed.protocol = "unix".toList := rfl
  rw [IpcSocketUnix.new, hparse, hprotocol]
  rfl

/-- What fits into `sun_path`. -/
def longFront : List Char :=
  "tmp/".toList ++ List.replicate 102 'x'

/-- One character more than fits. -/
def longRest (last : Char) : List Char :=
  longFront ++ [last]

/-- The last character of a long path is cut off. -/
theorem sunPath_longRest {last : Char} (h : last ≠ '\x00') :
    sunPath ('/' :: longRest last) = '/' :: longFront ++ ['\x00'] := by
  have hfront : ('/' :: longFront).length = 107 := rfl
  have hdata : data ('/' :: longRest last) = '/' :: longFront ++ [last] := by
    refine cString_of_not_mem ?_
    simp [longRest, longFront, h.symm]
  rw [sunPath_eq, hdata, List.take_left' hfront, hfront]
  rfl

/-- Two endpoints whose paths differ in their last character only. -/
theorem not_addresses_longRest : ¬∀ (uri uri' name name' : List Char)
    (first second : IpcSocketUnix) (returns returns' : SystemCalls) (userGroup : List Char),
    IpcSocketUnix.new uri name = .ok first → IpcSocketUnix.new uri' name' = .ok second →
      (bindSocket returns userGroup first).1 = true →
      (bindSocket returns' userGroup second).1 = true →
      Apart first second (bindSocket returns userGroup first).2.2
          (bindSocket returns' userGroup second).2.2 ∧
        Addressed (bindSocket returns userGroup first).2.2 ∧
        Addressed (bindSocket returns' userGroup second).2.2 := by
  intro h
  have hone := new_of_path (show (longRest '1').head? ≠ some '/' by decide) []
  have htwo := new_of_path (show (longRest '2').head? ≠ some '/' by decide) []
  have happart := (h _ _ [] [] _ _ {} {} [] hone htwo rfl rfl).1
  rw [Apart, (calls_bindSocket rfl).1, (calls_bindSocket rfl).1] at happart
  simp only [List.forall_mem_singleton] at happart
  refine happart ?_ ?_
  · intro heq
    cases List.append_cancel_left (List.cons.inj heq).2
  · rw [sunPath_longRest (by decide), sunPath_longRest (by decide)]

end IpcConnectorUnix

end NewCPP.Ipc
