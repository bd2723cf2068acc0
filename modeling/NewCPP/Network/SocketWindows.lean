import NewCPP.Library.Ownership

/-!
# Socket objects on Windows

The class `Socket` on Windows: an object holds the descriptor of a connection, copies hold the
same one, and `close`, which every destructor calls, gives it back with `closesocket`.

* `sockets_refine` — as long as no valid socket is copied, an object is what its calls have made
  of it: it holds the connection that it opened or accepted, and every open connection is held.
* `owned_iff_careful` — no longer: any such copy, unless it is of a socket onto itself, leaves
  two objects with one descriptor, or a connection without an object.
* `steals` — what comes of it: the other one of two copies gets at the connection of a third
  object, and takes it away from that one.

## Design notes

**Objects.**  An object is a number; `objects` has `none` where no object lives and `some none`
where one holds `INVALID_SOCKET`.

**The kernel.**  Connections are numbered in the order in which they are opened.  `socket` and
`accept` return a descriptor that is not open, also one that was, or fail.  `closesocket` of a
descriptor that is not open fails.

**Returned sockets.**  `waitForNewConnection` returns a local object.  If its copy is not
elided, the local one lives elsewhere and is destroyed.
-/

namespace NewCPP.Network

open Library

/-- The descriptors in use and the objects that hold them, where descriptors are used again. -/
structure WinSockets where
  /-- The connection of a descriptor that is open. -/
  handles : ℕ → Option ℕ := fun _ => none
  objects : ℕ → Option (Option ℕ) := fun _ => none
  opened : ℕ := 0

namespace WinSockets

/-! ## The members of the class -/

/-- The member of an object is assigned. -/
def setDescriptor (s : WinSockets) (object : ℕ) (fd : Option ℕ) : WinSockets :=
  { s with objects := Function.update s.objects object (some fd) }

/-- The descriptor of a valid socket. -/
def descriptor (s : WinSockets) (object : ℕ) : Option ℕ :=
  (s.objects object).join

/-- The object gets what `socket` or `accept` returns. -/
def obtain (s : WinSockets) (object : ℕ) : Option ℕ → WinSockets
  | some fd =>
      { s with
        handles := Function.update s.handles fd (some s.opened)
        opened := s.opened + 1 }.setDescriptor object (some fd)
  | none => s.setDescriptor object none

/-- The object gives its descriptor up, and the connection ends. -/
def close (s : WinSockets) (object : ℕ) : WinSockets :=
  match s.descriptor object with
  | some fd => { s with handles := Function.update s.handles fd none }.setDescriptor object none
  | none => s

/-- An object without a connection. -/
def construct (s : WinSockets) (object : ℕ) : WinSockets :=
  s.setDescriptor object none

/-- Copy construction and assignment. -/
def copy (s : WinSockets) (object other : ℕ) : WinSockets :=
  s.setDescriptor object (s.descriptor other)

/-- The destructor closes. -/
def destroy (s : WinSockets) (object : ℕ) : WinSockets :=
  let s := s.close object
  { s with objects := Function.update s.objects object none }

/-- What was held is closed first; then a socket is obtained and connected. -/
def connectToHost (s : WinSockets) (object : ℕ) (socket : Option ℕ) (connected : Bool) :
    Bool × WinSockets :=
  let s := (s.close object).obtain object socket
  if socket = none then (false, s) else (connected, s)

/-- What was held is closed first; then a socket is obtained, bound and made to listen. -/
def listen (s : WinSockets) (object : ℕ) (socket : Option ℕ) (bound listening : Bool) :
    Bool × WinSockets :=
  let s := (s.close object).obtain object socket
  if socket = none then (false, s)
  else if !bound then (false, s)
  else if !listening then (false, s)
  else (true, s)

/-- The object `result` is the one that is returned. -/
def waitForNewConnection (s : WinSockets) (object result : ℕ) (accept : Option ℕ) : WinSockets :=
  let constructed := s.construct result
  if (s.descriptor object).isSome then constructed.obtain result accept else constructed

/-- What a program does with its objects. -/
inductive Action where
  | construct (object : ℕ)
  | copy (object other : ℕ)
  | assign (object other : ℕ)
  | connectToHost (object : ℕ) (socket : Option ℕ) (connected : Bool)
  | listen (object : ℕ) (socket : Option ℕ) (bound listening : Bool)
  /-- With `temporary` the returned object is a copy of a local one there. -/
  | waitForNewConnection (object result : ℕ) (accept temporary : Option ℕ)
  | close (object : ℕ)
  | destroy (object : ℕ)

/-- What one of these actions does. -/
def perform (s : WinSockets) : Action → WinSockets
  | .construct object => s.construct object
  | .copy object other => s.copy object other
  | .assign object other => s.copy object other
  | .connectToHost object socket connected => (s.connectToHost object socket connected).2
  | .listen object socket bound listening => (s.listen object socket bound listening).2
  | .waitForNewConnection object result accept none => s.waitForNewConnection object result accept
  | .waitForNewConnection object result accept (some temporary) =>
      ((s.waitForNewConnection object temporary accept).copy result temporary).destroy temporary
  | .close object => s.close object
  | .destroy object => s.destroy object

/-- What a list of actions does. -/
def run (s : WinSockets) (actions : List Action) : WinSockets :=
  actions.foldl perform s

/-- The kernel has no such descriptor open. -/
def Fresh (s : WinSockets) (result : Option ℕ) : Prop :=
  ∀ fd ∈ result, s.handles fd = none

/-- The action is one of live objects, new objects take free places, and the kernel returns
descriptors that are not open. -/
def Enabled (s : WinSockets) : Action → Prop
  | .construct object => s.objects object = none
  | .copy object other => s.objects object = none ∧ (s.objects other).isSome
  | .assign object other => (s.objects object).isSome ∧ (s.objects other).isSome
  | .connectToHost object socket _ =>
      (s.objects object).isSome ∧ (s.close object).Fresh socket
  | .listen object socket _ _ => (s.objects object).isSome ∧ (s.close object).Fresh socket
  | .waitForNewConnection object result accept temporary =>
      (s.objects object).isSome ∧ s.objects result = none ∧ s.Fresh accept ∧
        ∀ place ∈ temporary, place ≠ result ∧ s.objects place = none
  | .close object => (s.objects object).isSome
  | .destroy object => (s.objects object).isSome

/-- Every action of the run finds the objects it is about. -/
def EnabledRun : WinSockets → List Action → Prop
  | _, [] => True
  | s, action :: actions => s.Enabled action ∧ EnabledRun (s.perform action) actions

/-- The action copies no valid socket, and copies onto no valid one. -/
def Careful (s : WinSockets) : Action → Prop
  | .copy _ other => s.descriptor other = none
  | .assign object other =>
      object = other ∨ s.descriptor object = none ∧ s.descriptor other = none
  | .waitForNewConnection object _ accept temporary =>
      s.descriptor object = none ∨ accept = none ∨ temporary = none
  | _ => True

/-- Every action of the run is careful. -/
def CarefulRun : WinSockets → List Action → Prop
  | _, [] => True
  | s, action :: actions => s.Careful action ∧ CarefulRun (s.perform action) actions

/-- Every valid socket has a connection of its own, and every connection a socket. -/
def Sound (s : WinSockets) : Prop :=
  Owned s.handles s.descriptor

/-- Every state of the run is sound. -/
def SoundRun : WinSockets → List Action → Prop
  | s, [] => s.Sound
  | s, action :: actions => s.Sound ∧ SoundRun (s.perform action) actions

/-! ## The abstract sockets -/

/-- What the objects are to a user: no object, an invalid one, or one with a connection. -/
structure Connections where
  values : ℕ → Option (Option ℕ) := fun _ => none
  opened : ℕ := 0

namespace Connections

/-- An object gets a value, or none when it is destroyed. -/
def set (c : Connections) (object : ℕ) (value : Option (Option ℕ)) : Connections :=
  { c with values := Function.update c.values object value }

/-- The object gets a new connection, or none. -/
def obtain (c : Connections) (object : ℕ) (result : Option ℕ) : Connections :=
  if result.isSome then { c with opened := c.opened + 1 }.set object (some (some c.opened))
  else c.set object (some none)

/-- What a call means. -/
def perform (c : Connections) : Action → Connections
  | .construct object => c.set object (some none)
  | .copy object other => c.set object (c.values other)
  | .assign object other => c.set object (c.values other)
  | .connectToHost object socket _ => c.obtain object socket
  | .listen object socket _ _ => c.obtain object socket
  | .waitForNewConnection object result accept _ =>
      if (c.values object).join.isSome then c.obtain result accept else c.set result (some none)
  | .close object => c.set object (some none)
  | .destroy object => c.set object none

/-- What the actions do to objects that own their connections. -/
def run (c : Connections) (actions : List Action) : Connections :=
  actions.foldl perform c

end Connections

/-- What an object is: the connection to which its calls go. -/
def connections (s : WinSockets) : Connections where
  values := fun object => (s.objects object).map fun fd => fd.bind s.handles
  opened := s.opened

/-! ## What the members do -/

section

variable {s : WinSockets} {object : ℕ}

theorem descriptor_update (handles : ℕ → Option ℕ) (objects : ℕ → Option (Option ℕ))
    (opened object : ℕ) (value : Option (Option ℕ)) :
    descriptor ⟨handles, Function.update objects object value, opened⟩ =
      Function.update (descriptor ⟨handles, objects, opened⟩) object value.join := by
  funext other
  change (Function.update objects object value other).join = _
  by_cases heq : other = object
  · rw [heq, Function.update_self, Function.update_self]
  · rw [Function.update_of_ne heq, Function.update_of_ne heq]
    rfl

theorem descriptor_setDescriptor (s : WinSockets) (object : ℕ) (fd : Option ℕ) :
    (s.setDescriptor object fd).descriptor = Function.update s.descriptor object fd :=
  descriptor_update ..

/-- An object that holds no descriptor gets none. -/
theorem Sound.setInvalid (h : s.Sound) (hinvalid : s.descriptor object = none)
    {value : Option (Option ℕ)} (hvalue : value.join = none) :
    Sound { s with objects := Function.update s.objects object value } := by
  rw [Sound, descriptor_update, hvalue, ← hinvalid, Function.update_eq_self]
  exact h

theorem connections_objects (handles : ℕ → Option ℕ) (objects : ℕ → Option (Option ℕ))
    (opened object : ℕ) (value : Option (Option ℕ)) :
    connections ⟨handles, Function.update objects object value, opened⟩ =
      (connections ⟨handles, objects, opened⟩).set object
        (value.map fun fd => fd.bind handles) := by
  rw [Connections.set, connections, connections, Connections.mk.injEq]
  refine ⟨funext fun other => ?_, rfl⟩
  dsimp only
  by_cases heq : other = object
  · rw [heq, Function.update_self, Function.update_self]
  · rw [Function.update_of_ne heq, Function.update_of_ne heq]

/-- A descriptor that nobody holds is opened or closed. -/
theorem connections_handles {fd : ℕ} (hother : ∀ other, s.descriptor other ≠ some fd)
    (connection : Option ℕ) (opened : ℕ) :
    connections ⟨Function.update s.handles fd connection, s.objects, opened⟩ =
      { s.connections with opened := opened } := by
  rw [connections, connections, Connections.mk.injEq]
  refine ⟨funext fun other => ?_, rfl⟩
  dsimp only
  cases hobject : s.objects other with
  | none => rfl
  | some held =>
      cases held with
      | none => rfl
      | some fd' =>
          have hne : fd' ≠ fd := by
            rintro rfl
            exact hother other (by rw [descriptor, hobject]; rfl)
          change some (Function.update s.handles fd connection fd') = some (s.handles fd')
          rw [Function.update_of_ne hne]

theorem Sound.close (h : s.Sound) (object : ℕ) : (s.close object).Sound := by
  rw [WinSockets.close]
  cases hheld : s.descriptor object with
  | none => exact h
  | some fd =>
      dsimp only
      rw [Sound, descriptor_setDescriptor]
      exact h.free hheld

theorem descriptor_close (s : WinSockets) (object : ℕ) :
    (s.close object).descriptor object = none := by
  rw [WinSockets.close]
  cases hheld : s.descriptor object with
  | none => exact hheld
  | some fd =>
      dsimp only
      rw [descriptor_setDescriptor, Function.update_self]

theorem connections_close (h : s.Sound) (hobject : (s.objects object).isSome) :
    (s.close object).connections = s.connections.set object (some none) := by
  obtain ⟨held, hobject⟩ := Option.isSome_iff_exists.1 hobject
  rw [WinSockets.close]
  cases hheld : s.descriptor object with
  | none =>
      have hnone : held = none := by
        rw [descriptor, hobject] at hheld
        exact hheld
      have hvalue : s.connections.values object = some none := by
        change (s.objects object).map _ = _
        rw [hobject, hnone]
        rfl
      rw [Connections.set, ← hvalue, Function.update_eq_self]
  | some fd =>
      -- nobody else holds the descriptor
      have hother (other : ℕ) : (s.setDescriptor object none).descriptor other ≠ some fd := by
        rw [descriptor_setDescriptor]
        by_cases heq : other = object
        · rw [heq, Function.update_self]
          rintro ⟨⟩
        · rw [Function.update_of_ne heq]
          exact fun hfd => heq (h.unique other object fd hfd hheld)
      exact (connections_handles hother none s.opened).trans (connections_objects ..)

/-- A descriptor that is not open is held by nobody. -/
theorem Sound.descriptor_ne (h : s.Sound) {fd : ℕ} (hfresh : s.handles fd = none)
    (other : ℕ) : s.descriptor other ≠ some fd := by
  intro hfd
  have hlive := h.live other fd hfd
  rw [hfresh] at hlive
  cases hlive

/-- An invalid object gets what the kernel returns. -/
theorem Sound.obtain (h : s.Sound) (hinvalid : s.descriptor object = none) {result : Option ℕ}
    (hfresh : s.Fresh result) :
    (s.obtain object result).Sound ∧
      (s.obtain object result).connections = s.connections.obtain object result := by
  cases result with
  | none => exact ⟨h.setInvalid hinvalid rfl, connections_objects ..⟩
  | some fd =>
      have hclosed := hfresh fd rfl
      refine ⟨?_, ?_⟩
      · rw [Sound, WinSockets.obtain, descriptor_setDescriptor]
        exact h.alloc hinvalid hclosed s.opened
      · refine (connections_objects ..).trans ?_
        rw [connections_handles (h.descriptor_ne hclosed), Option.map_some, Option.bind_some]
        change Connections.set _ object (some (Function.update s.handles fd (some s.opened) fd)) = _
        rw [Function.update_self]
        rfl

end

/-! ## One call -/

section

variable {s : WinSockets} {object other : ℕ}

@[simp] theorem Connections.set_set (c : Connections) (object : ℕ)
    (value value' : Option (Option ℕ)) :
    (c.set object value).set object value' = c.set object value' := by
  rw [set, set, set, Function.update_idem]

@[simp] theorem Connections.set_obtain (c : Connections) (object : ℕ)
    (value : Option (Option ℕ)) (result : Option ℕ) :
    (c.set object value).obtain object result = c.obtain object result := by
  rw [obtain, obtain, set_set]
  split
  · rw [set, set, set, Function.update_idem]
  · rfl

theorem descriptor_of_dead (h : s.objects object = none) : s.descriptor object = none := by
  rw [descriptor, h]
  rfl

/-- A live object that holds no descriptor. -/
theorem objects_of_invalid (hlives : (s.objects object).isSome)
    (hinvalid : s.descriptor object = none) : s.objects object = some none := by
  obtain ⟨held, hobject⟩ := Option.isSome_iff_exists.1 hlives
  rw [descriptor, hobject] at hinvalid
  rw [hobject]
  exact congrArg some hinvalid

theorem values_of_invalid (hlives : (s.objects object).isSome)
    (hinvalid : s.descriptor object = none) : s.connections.values object = some none := by
  change (s.objects object).map _ = _
  rw [objects_of_invalid hlives hinvalid]
  rfl

/-- A valid socket. -/
theorem objects_of_descriptor {fd : ℕ} (hfd : s.descriptor object = some fd) :
    s.objects object = some (some fd) := by
  rw [descriptor] at hfd
  cases hobject : s.objects object with
  | none =>
      rw [hobject] at hfd
      cases hfd
  | some held =>
      rw [hobject] at hfd
      exact congrArg some hfd

theorem values_of_descriptor {fd : ℕ} (hfd : s.descriptor object = some fd) :
    s.connections.values object = some (s.handles fd) := by
  change (s.objects object).map _ = _
  rw [objects_of_descriptor hfd]
  rfl

theorem Sound.isSome_values (h : s.Sound) (object : ℕ) :
    (s.connections.values object).join.isSome = (s.descriptor object).isSome := by
  cases hheld : s.descriptor object with
  | some fd =>
      rw [values_of_descriptor hheld]
      exact h.live object fd hheld
  | none =>
      cases hlives : (s.objects object).isSome with
      | true => rw [values_of_invalid hlives hheld]; rfl
      | false =>
          change ((s.objects object).map _).join.isSome = _
          rw [Option.isNone_iff_eq_none.1 (Option.isSome_eq_false_iff.1 hlives)]
          rfl

theorem connectToHost_snd (s : WinSockets) (object : ℕ) (socket : Option ℕ) (connected : Bool) :
    (s.connectToHost object socket connected).2 = (s.close object).obtain object socket := by
  rw [connectToHost]
  split <;> rfl

theorem listen_snd (s : WinSockets) (object : ℕ) (socket : Option ℕ) (bound listening : Bool) :
    (s.listen object socket bound listening).2 = (s.close object).obtain object socket := by
  rw [listen]
  repeat' split
  all_goals rfl

/-- A new object. -/
theorem Sound.construct (h : s.Sound) (hdead : s.objects object = none) :
    (s.construct object).Sound ∧
      (s.construct object).connections = s.connections.set object (some none) :=
  ⟨h.setInvalid (descriptor_of_dead hdead) rfl, connections_objects ..⟩

/-- A copy of an invalid socket. -/
theorem Sound.copy (h : s.Sound) (hinvalid : s.descriptor object = none)
    (hlives : (s.objects other).isSome) (hother : s.descriptor other = none) :
    (s.copy object other).Sound ∧
      (s.copy object other).connections =
        s.connections.set object (s.connections.values other) := by
  rw [WinSockets.copy, hother, values_of_invalid hlives hother]
  exact ⟨h.setInvalid hinvalid rfl, connections_objects ..⟩

theorem copy_self (hlives : (s.objects object).isSome) : s.copy object object = s := by
  obtain ⟨held, hobject⟩ := Option.isSome_iff_exists.1 hlives
  have hsame : some (s.descriptor object) = s.objects object := by
    rw [descriptor, hobject]
    rfl
  rw [WinSockets.copy, setDescriptor, hsame, Function.update_eq_self]

/-- An object is connected again. -/
theorem Sound.reopen (h : s.Sound) (hlives : (s.objects object).isSome) {socket : Option ℕ}
    (hfresh : (s.close object).Fresh socket) :
    ((s.close object).obtain object socket).Sound ∧
      ((s.close object).obtain object socket).connections =
        s.connections.obtain object socket := by
  have hopened := (h.close object).obtain (descriptor_close s object) hfresh
  rwa [connections_close h hlives, Connections.set_obtain] at hopened

theorem Sound.accept (h : s.Sound) {result : ℕ} (hdead : s.objects result = none)
    {accept : Option ℕ} (hfresh : s.Fresh accept) :
    (s.waitForNewConnection object result accept).Sound ∧
      (s.waitForNewConnection object result accept).connections =
        s.connections.perform (.waitForNewConnection object result accept none) := by
  obtain ⟨hsound, hconnections⟩ := h.construct hdead
  have hinvalid : (s.construct result).descriptor result = none := by
    rw [WinSockets.construct, descriptor_setDescriptor, Function.update_self]
  rw [waitForNewConnection, Connections.perform, h.isSome_values]
  split
  · have hopened := hsound.obtain hinvalid hfresh
    rwa [hconnections, Connections.set_obtain] at hopened
  · exact ⟨hsound, hconnections⟩

/-- What is copied and destroyed here has never been valid. -/
theorem perform_temporary {result temporary : ℕ} {accept : Option ℕ}
    (hcareful : s.descriptor object = none ∨ accept = none) (hne : temporary ≠ result)
    (hdead : s.objects temporary = none) :
    s.perform (.waitForNewConnection object result accept (some temporary)) =
      s.construct result := by
  have hwait : s.waitForNewConnection object temporary accept =
      s.setDescriptor temporary none := by
    rw [waitForNewConnection]
    split
    case isTrue hvalid =>
      have haccept := hcareful.resolve_left fun hnone => by
        rw [hnone] at hvalid
        cases hvalid
      rw [haccept, WinSockets.construct, WinSockets.obtain, setDescriptor, setDescriptor,
        Function.update_idem]
    case isFalse => rfl
  have hcopied : (s.setDescriptor temporary none).copy result temporary =
      (s.setDescriptor temporary none).setDescriptor result none := by
    rw [WinSockets.copy, descriptor_setDescriptor, Function.update_self]
  have hclosed : ((s.setDescriptor temporary none).setDescriptor result none).close temporary =
      (s.setDescriptor temporary none).setDescriptor result none := by
    rw [WinSockets.close, descriptor_setDescriptor, Function.update_of_ne hne,
      descriptor_setDescriptor, Function.update_self]
  rw [perform, hwait, hcopied, destroy, hclosed]
  rw [setDescriptor, setDescriptor, WinSockets.construct, setDescriptor]
  dsimp only
  rw [Function.update_comm hne, Function.update_idem, Function.update_comm hne.symm, ← hdead,
    Function.update_eq_self]

/-- **One call**: it keeps what each object is apart if it copies no valid socket. -/
theorem Sound.perform (h : s.Sound) {action : Action} (henabled : s.Enabled action)
    (hcareful : s.Careful action) :
    (s.perform action).Sound ∧
      (s.perform action).connections = s.connections.perform action := by
  cases action with
  | construct object => exact h.construct henabled
  | copy object other =>
      exact h.copy (descriptor_of_dead henabled.1) henabled.2 hcareful
  | assign object other =>
      rcases hcareful with rfl | ⟨hinvalid, hother⟩
      · rw [WinSockets.perform, copy_self henabled.1, Connections.perform, Connections.set,
          Function.update_eq_self]
        exact ⟨h, rfl⟩
      · exact h.copy hinvalid henabled.2 hother
  | connectToHost object socket connected =>
      rw [WinSockets.perform, connectToHost_snd]
      exact h.reopen henabled.1 henabled.2
  | listen object socket bound listening =>
      rw [WinSockets.perform, listen_snd]
      exact h.reopen henabled.1 henabled.2
  | waitForNewConnection object result accept temporary =>
      obtain ⟨-, hdead, hfresh, hplace⟩ := henabled
      cases temporary with
      | none => exact h.accept hdead hfresh
      | some temporary =>
          obtain ⟨hne, htemporary⟩ := hplace temporary rfl
          have hcareful' : s.descriptor object = none ∨ accept = none :=
            hcareful.imp_right fun h => h.resolve_right (by rintro ⟨⟩)
          rw [perform_temporary hcareful' hne htemporary, Connections.perform, h.isSome_values]
          have hconstructed := h.construct hdead
          rcases hcareful' with hinvalid | rfl
          · rw [hinvalid]
            exact hconstructed
          · have hnone : s.connections.obtain result none =
                s.connections.set result (some none) := rfl
            rw [hnone, ite_self]
            exact hconstructed
  | close object => exact ⟨h.close object, connections_close h henabled⟩
  | destroy object =>
      refine ⟨(h.close object).setInvalid (descriptor_close s object) rfl, ?_⟩
      refine (connections_objects ..).trans ?_
      change (s.close object).connections.set object none = _
      rw [connections_close h henabled, Connections.set_set]
      rfl

/-- The copy of a valid socket onto another object. -/
theorem Sound.eq_of_copy (h : (s.copy object other).Sound) {fd : ℕ}
    (hfd : s.descriptor other = some fd) : other = object := by
  by_contra hne
  refine hne (h.unique other object fd ?_ ?_)
  · rw [WinSockets.copy, descriptor_setDescriptor, Function.update_of_ne hne, hfd]
  · rw [WinSockets.copy, descriptor_setDescriptor, Function.update_self, hfd]

theorem close_of_invalid (hinvalid : s.descriptor object = none) : s.close object = s := by
  rw [WinSockets.close, hinvalid]

/-- A valid socket is closed. -/
theorem close_of_held {fd : ℕ} (hfd : s.descriptor object = some fd) :
    s.close object =
      { s with handles := Function.update s.handles fd none }.setDescriptor object none := by
  rw [WinSockets.close, hfd]

/-- A valid socket is destroyed. -/
theorem destroy_of_held {fd : ℕ} (hfd : s.descriptor object = some fd) :
    (s.destroy object).descriptor = Function.update s.descriptor object none ∧
      (s.destroy object).handles = Function.update s.handles fd none := by
  rw [destroy, close_of_held hfd]
  refine ⟨?_, rfl⟩
  rw [descriptor_update]
  change Function.update (descriptor (WinSockets.setDescriptor _ object none)) object none = _
  rw [descriptor_setDescriptor, Function.update_idem]
  rfl

/-- A call that copies a valid socket, or onto one. -/
theorem not_sound_perform (h : s.Sound) {action : Action} (henabled : s.Enabled action)
    (hcareless : ¬s.Careful action) : ¬(s.perform action).Sound := by
  cases action with
  | copy object other =>
      intro hsound
      obtain ⟨fd, hfd⟩ := Option.ne_none_iff_exists'.1 hcareless
      have hne : other ≠ object := by
        rintro rfl
        rw [descriptor_of_dead henabled.1] at hfd
        cases hfd
      exact hne (hsound.eq_of_copy hfd)
  | assign object other =>
      intro hsound
      obtain ⟨hne, hheld⟩ := not_or.1 hcareless
      cases hother : s.descriptor other with
      | some fd => exact hne (hsound.eq_of_copy hother).symm
      | none =>
          -- nobody holds what the object has held
          obtain ⟨fd, hfd⟩ := Option.ne_none_iff_exists'.1 fun hnone => hheld ⟨hnone, hother⟩
          obtain ⟨third, hthird⟩ := hsound.held fd (h.live object fd hfd)
          rw [WinSockets.perform, WinSockets.copy, hother, descriptor_setDescriptor] at hthird
          by_cases heq : third = object
          · rw [heq, Function.update_self] at hthird
            cases hthird
          · rw [Function.update_of_ne heq] at hthird
            exact heq (h.unique third object fd hthird hfd)
  | waitForNewConnection object result accept temporary =>
      intro hsound
      obtain ⟨hvalid, hrest⟩ := not_or.1 hcareless
      obtain ⟨haccept, htemporary⟩ := not_or.1 hrest
      obtain ⟨fd, rfl⟩ := Option.ne_none_iff_exists'.1 haccept
      obtain ⟨place, rfl⟩ := Option.ne_none_iff_exists'.1 htemporary
      have hne := (henabled.2.2.2 place rfl).1
      have haccepted : (s.waitForNewConnection object place (some fd)).descriptor place =
          some fd := by
        rw [waitForNewConnection, if_pos (Option.isSome_iff_ne_none.2 hvalid),
          WinSockets.obtain, descriptor_setDescriptor, Function.update_self]
      -- the local object takes the descriptor of the returned one with it
      have hcopied : ((s.waitForNewConnection object place (some fd)).copy result
          place).descriptor place = some fd := by
        rw [WinSockets.copy, descriptor_setDescriptor, Function.update_of_ne hne, haccepted]
      obtain ⟨hdescriptor, hhandles⟩ := destroy_of_held hcopied
      have hlive := hsound.live result fd (by
        rw [WinSockets.perform, hdescriptor, Function.update_of_ne hne.symm, WinSockets.copy,
          descriptor_setDescriptor, Function.update_self, haccepted])
      rw [WinSockets.perform, hhandles, Function.update_self] at hlive
      cases hlive
  | _ => exact (hcareless trivial).elim

end

/-! ## Runs -/

theorem sound_empty : ({} : WinSockets).Sound :=
  Owned.empty

theorem Sound.run {s : WinSockets} (h : s.Sound) {actions : List Action}
    (henabled : EnabledRun s actions) (hcareful : CarefulRun s actions) :
    (s.run actions).Sound ∧ (s.run actions).connections = s.connections.run actions := by
  induction actions generalizing s with
  | nil => exact ⟨h, rfl⟩
  | cons action actions ih =>
      obtain ⟨hsound, hconnections⟩ := h.perform henabled.1 hcareful.1
      have hrest := ih hsound henabled.2 hcareful.2
      rwa [hconnections] at hrest

/-- **Sockets are what their calls have made of them**, as long as no valid socket is copied:
each object gets at the connection that it opened or accepted last, and every connection that
is open is held by exactly one object. -/
theorem sockets_refine {actions : List Action} (henabled : EnabledRun {} actions)
    (hcareful : CarefulRun {} actions) :
    (({} : WinSockets).run actions).connections = Connections.run {} actions ∧
      ∀ fd, ((({} : WinSockets).run actions).handles fd).isSome →
        ∃! object, (({} : WinSockets).run actions).descriptor object = some fd := by
  obtain ⟨hsound, hconnections⟩ := sound_empty.run henabled hcareful
  refine ⟨hconnections, fun fd hopen => ?_⟩
  obtain ⟨object, hobject⟩ := hsound.held fd hopen
  exact ⟨object, hobject, fun other hother => hsound.unique other object fd hother hobject⟩

/-- A server and the client that it has accepted. -/
def serving : List Action :=
  [.construct 0, .listen 0 (some 5) true true, .waitForNewConnection 0 1 (some 6) none]

theorem enabledRun_serving : EnabledRun {} serving := by
  refine ⟨rfl, ⟨rfl, ?_⟩, ⟨rfl, rfl, ?_, by rintro _ ⟨⟩⟩, trivial⟩
  · rintro _ ⟨⟩
    rfl
  · rintro _ ⟨⟩
    rfl

theorem sockets_refine_serving :
    (({} : WinSockets).run serving).connections = Connections.run {} serving ∧
      ∀ fd, ((({} : WinSockets).run serving).handles fd).isSome →
        ∃! object, (({} : WinSockets).run serving).descriptor object = some fd :=
  sockets_refine enabledRun_serving ⟨trivial, trivial, Or.inr (Or.inr rfl), trivial⟩

/-- **No longer than that**: the sockets are sound all along exactly in the runs in which no
valid socket is copied, or copied onto. -/
theorem owned_iff_careful {s : WinSockets} (h : s.Sound) {actions : List Action}
    (henabled : EnabledRun s actions) : SoundRun s actions ↔ CarefulRun s actions := by
  induction actions generalizing s with
  | nil => exact iff_of_true h trivial
  | cons action actions ih =>
      constructor
      · rintro ⟨-, hrun⟩
        have hsound : (s.perform action).Sound := by
          cases actions with
          | nil => exact hrun
          | cons _ _ => exact hrun.1
        have hcareful : s.Careful action := by
          by_contra hcareless
          exact not_sound_perform h henabled.1 hcareless hsound
        exact ⟨hcareful, (ih hsound henabled.2).1 hrun⟩
      · rintro ⟨hcareful, hrun⟩
        exact ⟨h, (ih (h.perform henabled.1 hcareful).1 henabled.2).2 hrun⟩

/-- A connected socket is copied. -/
def copying : List Action :=
  [.construct 0, .connectToHost 0 (some 5) true, .copy 1 0]

theorem owned_iff_careful_copying : ¬SoundRun {} copying := by
  have henabled : EnabledRun {} copying := by
    refine ⟨rfl, ⟨rfl, ?_⟩, ⟨rfl, rfl⟩, trivial⟩
    rintro _ ⟨⟩
    rfl
  rw [owned_iff_careful sound_empty henabled]
  rintro ⟨-, -, ⟨⟩, -⟩

/-- A socket is copied and closed, and a third object is connected, whose descriptor is the one
that was closed. -/
def stealing (object copied third fd : ℕ) : List Action :=
  [.copy copied object, .close object, .connectToHost third (some fd) true]

/-- The socket is copied and closed. -/
theorem close_copy {s : WinSockets} {object copied fd : ℕ} (hobject : s.descriptor object = some fd)
    (hne : object ≠ copied) :
    ((s.copy copied object).close object).descriptor =
        Function.update (Function.update s.descriptor copied (some fd)) object none ∧
      ((s.copy copied object).close object).objects =
        Function.update (Function.update s.objects copied (some (some fd))) object (some none) ∧
      ((s.copy copied object).close object).handles = Function.update s.handles fd none ∧
      ((s.copy copied object).close object).opened = s.opened := by
  have hcopy : s.copy copied object = s.setDescriptor copied (some fd) := by
    rw [WinSockets.copy, hobject]
  have hdescriptor : (s.setDescriptor copied (some fd)).descriptor =
      Function.update s.descriptor copied (some fd) := descriptor_setDescriptor ..
  have hheld : (s.setDescriptor copied (some fd)).descriptor object = some fd := by
    rw [hdescriptor, Function.update_of_ne hne, hobject]
  rw [hcopy, close_of_held hheld, descriptor_setDescriptor]
  refine ⟨?_, rfl, rfl, rfl⟩
  rw [← hdescriptor]
  rfl

/-- **A copy that outlives a close** gets at the next connection that is opened: it reads what
is sent to another object, and its destructor closes that connection under the other object,
which stays valid. -/
theorem steals {s : WinSockets} {object copied third fd : ℕ}
    (hobject : s.descriptor object = some fd) (hcopied : s.objects copied = none)
    (hlives : (s.objects third).isSome) (hthird : s.descriptor third = none) :
    EnabledRun s (stealing object copied third fd) ∧
      (s.run (stealing object copied third fd)).connections.values copied =
        some (some s.opened) ∧
      (s.run (stealing object copied third fd)).connections.values third =
        some (some s.opened) ∧
      ((s.run (stealing object copied third fd)).destroy copied).descriptor third = some fd ∧
      ((s.run (stealing object copied third fd)).destroy copied).handles fd = none := by
  have hne : object ≠ copied := by
    rintro rfl
    rw [descriptor_of_dead hcopied] at hobject
    cases hobject
  have hne' : third ≠ object := by
    rintro rfl
    rw [hthird] at hobject
    cases hobject
  have hne'' : third ≠ copied := by
    rintro rfl
    rw [hcopied] at hlives
    cases hlives
  obtain ⟨hdescriptor, hobjects, hhandles, hopened⟩ := close_copy hobject hne
  have hrun : s.run (stealing object copied third fd) =
      (((s.copy copied object).close object).connectToHost third (some fd) true).2 := rfl
  have hinvalid : ((s.copy copied object).close object).descriptor third = none := by
    rw [hdescriptor, Function.update_of_ne hne', Function.update_of_ne hne'', hthird]
  have hsome : (s.objects object).isSome := by
    rw [objects_of_descriptor hobject]
    rfl
  have henabled : EnabledRun s (stealing object copied third fd) := by
    refine ⟨⟨hcopied, hsome⟩, ?_, ⟨?_, ?_⟩, trivial⟩
    · change (Function.update s.objects copied _ object).isSome
      rw [Function.update_of_ne hne]
      exact hsome
    · change (((s.copy copied object).close object).objects third).isSome
      rw [hobjects, Function.update_of_ne hne', Function.update_of_ne hne'']
      exact hlives
    · change (((s.copy copied object).close object).close third).Fresh (some fd)
      rw [close_of_invalid hinvalid]
      rintro _ ⟨⟩
      rw [hhandles, Function.update_self]
  rw [hrun, connectToHost_snd, close_of_invalid hinvalid]
  generalize (s.copy copied object).close object = closed at *
  have hholders : (closed.obtain third (some fd)).descriptor =
      Function.update closed.descriptor third (some fd) := descriptor_setDescriptor ..
  have hconnection : (closed.obtain third (some fd)).handles fd = some s.opened := by
    rw [← hopened]
    exact Function.update_self ..
  have hheld : (closed.obtain third (some fd)).descriptor copied = some fd := by
    rw [hholders, Function.update_of_ne hne''.symm, hdescriptor, Function.update_of_ne hne.symm,
      Function.update_self]
  have hheld' : (closed.obtain third (some fd)).descriptor third = some fd := by
    rw [hholders, Function.update_self]
  obtain ⟨hafter, hclosed⟩ := destroy_of_held hheld
  refine ⟨henabled, ?_, ?_, ?_, ?_⟩
  · rw [values_of_descriptor hheld, hconnection]
  · rw [values_of_descriptor hheld', hconnection]
  · rw [hafter, Function.update_of_ne hne'', hheld']
  · rw [hclosed, Function.update_self]

/-- One socket is connected, and another one waits to be. -/
def waiting : List Action :=
  [.construct 0, .connectToHost 0 (some 5) true, .construct 2]

theorem steals_waiting :
    (((({} : WinSockets).run waiting).run (stealing 0 1 2 5)).destroy 1).descriptor 2 = some 5 ∧
      (((({} : WinSockets).run waiting).run (stealing 0 1 2 5)).destroy 1).handles 5 = none := by
  obtain ⟨-, -, -, hvalid, hclosed⟩ :=
    @steals (({} : WinSockets).run waiting) 0 1 2 5 rfl rfl rfl rfl
  exact ⟨hvalid, hclosed⟩

end WinSockets

end NewCPP.Network
