import Mathlib.Data.List.Count
import Mathlib.Logic.Function.Basic
import Mathlib.Tactic.Common

/-!
# Socket objects

The class `Socket` on Unix: an object holds a descriptor, copies share it, and `close`,
which every destructor calls, shuts the descriptor down.  Nothing ever closes one.

* `Intact` — what holds as long as nothing is shut down and no reference is lost.
* `sound_iff_keeps` — in which runs the descriptors of valid sockets are usable and no
  descriptor leaks: exactly in those in which no socket that holds a descriptor is closed,
  destroyed, connected again or made to listen, and no last reference is overwritten.

## Design notes

**Objects.**  An object is a number.  `descriptor` is `none` where no object lives and
`some none` where one holds `INVALID_SOCKET`.

**The kernel.**  `calls` lists the calls that matter, the latest first.  `socket` and
`accept` return a descriptor that is not open, or fail.

**Returned sockets.**  `waitForNewConnection` returns a local object.  If its copy is not
elided, the local one lives elsewhere and is destroyed.
-/

namespace NewCPP.Network

/-- What is asked of the kernel. -/
inductive SysCall where
  /-- `socket` or `accept` has returned the descriptor. -/
  | opened (fd : ℕ)
  /-- The object has called `shutdown`. -/
  | shutdown (object fd : ℕ)
  | close (fd : ℕ)
  deriving DecidableEq

/-- The descriptor that the call is about. -/
def SysCall.fd : SysCall → ℕ
  | .opened fd | .shutdown _ fd | .close fd => fd

/-- The objects, each with the descriptor it holds or −1, and the calls made so far, the last
one first. -/
structure Sockets where
  descriptor : ℕ → Option (Option ℕ) := fun _ => none
  calls : List SysCall := []

namespace Sockets

/-! ## The members of the class -/

/-- A call of the system is made. -/
def record (sockets : Sockets) (call : SysCall) : Sockets :=
  { sockets with calls := call :: sockets.calls }

/-- The member of an object is assigned. -/
def setDescriptor (sockets : Sockets) (object : ℕ) (fd : Option ℕ) : Sockets :=
  { sockets with descriptor := Function.update sockets.descriptor object (some fd) }

/-- `operator bool` of a live object, with the descriptor. -/
def Holds (sockets : Sockets) (object fd : ℕ) : Prop :=
  sockets.descriptor object = some (some fd)

/-- The object gets what `socket` or `accept` returns. -/
def obtain (sockets : Sockets) (object : ℕ) : Option ℕ → Sockets
  | some fd => (sockets.record (.opened fd)).setDescriptor object (some fd)
  | none => sockets.setDescriptor object none

/-- The object gives its descriptor up: what is called then is `shutdown`. -/
def close (sockets : Sockets) (object : ℕ) : Sockets :=
  match sockets.descriptor object with
  | some (some fd) => (sockets.record (.shutdown object fd)).setDescriptor object none
  | _ => sockets

/-- An object without a connection. -/
def construct (sockets : Sockets) (object : ℕ) : Sockets :=
  sockets.setDescriptor object none

/-- Copy construction and assignment. -/
def copy (sockets : Sockets) (object other : ℕ) : Sockets :=
  match sockets.descriptor other with
  | some fd => sockets.setDescriptor object fd
  | none => sockets

/-- The destructor closes. -/
def destroy (sockets : Sockets) (object : ℕ) : Sockets :=
  let sockets := sockets.close object
  { sockets with descriptor := Function.update sockets.descriptor object none }

/-- What was held is closed first; then a socket is obtained and connected. -/
def connectToHost (sockets : Sockets) (object : ℕ) (socket : Option ℕ) (connected : Bool) :
    Bool × Sockets :=
  let sockets := (sockets.close object).obtain object socket
  if socket = none then (false, sockets.close object) else (connected, sockets)

/-- What was held is closed first; then a socket is obtained, bound and made to listen. -/
def listen (sockets : Sockets) (object : ℕ) (socket : Option ℕ) (bound listening : Bool) :
    Bool × Sockets :=
  let sockets := (sockets.close object).obtain object socket
  if socket = none then (false, sockets.close object)
  else if !bound then (false, sockets.close object)
  else if !listening then (false, sockets.close object)
  else (true, sockets)

/-- The object `result` is the one that is returned. -/
def waitForNewConnection (sockets : Sockets) (object result : ℕ) (accept : Option ℕ) :
    Sockets :=
  let constructed := sockets.construct result
  match sockets.descriptor object with
  | some (some _) => constructed.obtain result accept
  | _ => constructed

/-! ## Runs -/

/-- What a program does with its objects. -/
inductive Action where
  | construct (object : ℕ)
  | copy (object other : ℕ)
  | assign (object other : ℕ)
  | connectToHost (object : ℕ) (socket : Option ℕ) (connected : Bool)
  | listen (object : ℕ) (socket : Option ℕ) (bound listening : Bool)
  /-- With `temporary` the returned object is a copy of a local one there. -/
  | waitForNewConnection (object result : ℕ) (accept temporary : Option ℕ)
  | close (object : ℕ)
  | destroy (object : ℕ)

/-- What one of these actions does. -/
def perform (sockets : Sockets) : Action → Sockets
  | .construct object => sockets.construct object
  | .copy object other => sockets.copy object other
  | .assign object other => sockets.copy object other
  | .connectToHost object socket connected =>
      (sockets.connectToHost object socket connected).2
  | .listen object socket bound listening =>
      (sockets.listen object socket bound listening).2
  | .waitForNewConnection object result accept none =>
      sockets.waitForNewConnection object result accept
  | .waitForNewConnection object result accept (some temporary) =>
      ((sockets.waitForNewConnection object temporary accept).copy result temporary).destroy
        temporary
  | .close object => sockets.close object
  | .destroy object => sockets.destroy object

/-- How often the descriptor was handed out. -/
def opens (calls : List SysCall) (fd : ℕ) : ℕ :=
  calls.count (.opened fd)

/-- How often it was closed. -/
def closes (calls : List SysCall) (fd : ℕ) : ℕ :=
  calls.count (.close fd)

/-- The kernel has no such descriptor open. -/
def Fresh (sockets : Sockets) (result : Option ℕ) : Prop :=
  ∀ fd ∈ result, opens sockets.calls fd = closes sockets.calls fd

/-- The object is constructed and not destroyed. -/
def Lives (sockets : Sockets) (object : ℕ) : Prop :=
  sockets.descriptor object ≠ none

/-- The action is one of live objects, new objects take free places, and the kernel returns
fresh descriptors. -/
def Enabled (sockets : Sockets) : Action → Prop
  | .construct object => ¬sockets.Lives object
  | .copy object other => ¬sockets.Lives object ∧ sockets.Lives other
  | .assign object other => sockets.Lives object ∧ sockets.Lives other
  | .connectToHost object socket _ => sockets.Lives object ∧ sockets.Fresh socket
  | .listen object socket _ _ => sockets.Lives object ∧ sockets.Fresh socket
  | .waitForNewConnection object result accept temporary =>
      sockets.Lives object ∧ ¬sockets.Lives result ∧ sockets.Fresh accept ∧
        ∀ place ∈ temporary, place ≠ result ∧ ¬sockets.Lives place
  | .close object => sockets.Lives object
  | .destroy object => sockets.Lives object

/-- Every action of the run finds the objects it is about. -/
def EnabledRun : Sockets → List Action → Prop
  | _, [] => True
  | sockets, action :: actions =>
      sockets.Enabled action ∧ EnabledRun (sockets.perform action) actions

/-! ## What is claimed of every state -/

/-- The objects through which a descriptor was shut down since it was opened. -/
def shutdownBy (fd : ℕ) : List SysCall → List ℕ
  | [] => []
  | .opened fd' :: calls => if fd' = fd then [] else shutdownBy fd calls
  | .shutdown object fd' :: calls =>
      if fd' = fd then object :: shutdownBy fd calls else shutdownBy fd calls
  | .close _ :: calls => shutdownBy fd calls

/-- No descriptor of a valid socket was shut down through another object; a descriptor is
closed at most as often as it was opened, and as often once no object holds it. -/
structure Sound (sockets : Sockets) : Prop where
  usable : ∀ object fd, sockets.Holds object fd →
    ∀ other ∈ shutdownBy fd sockets.calls, other = object
  closed_le : ∀ fd, closes sockets.calls fd ≤ opens sockets.calls fd
  closed : ∀ fd, (∀ object, ¬sockets.Holds object fd) →
    closes sockets.calls fd = opens sockets.calls fd

/-- The ledger is sound before every action of the run and after the last. -/
def SoundRun : Sockets → List Action → Prop
  | sockets, [] => sockets.Sound
  | sockets, action :: actions => sockets.Sound ∧ SoundRun (sockets.perform action) actions

/-- The object holds no descriptor. -/
def Invalid (sockets : Sockets) (object : ℕ) : Prop :=
  ∀ fd, ¬sockets.Holds object fd

/-- The action neither shuts a descriptor down nor drops the last reference to one. -/
def Keeps (sockets : Sockets) : Action → Prop
  | .construct _ => True
  | .copy _ _ => True
  | .assign object other => ∀ fd, sockets.Holds object fd →
      sockets.Holds other fd ∨ ∃ third, third ≠ object ∧ sockets.Holds third fd
  | .connectToHost object _ _ => sockets.Invalid object
  | .listen object socket bound listening =>
      sockets.Invalid object ∧ (socket ≠ none → bound = true ∧ listening = true)
  | .waitForNewConnection object _ accept temporary =>
      sockets.Invalid object ∨ accept = none ∨ temporary = none
  | .close object => sockets.Invalid object
  | .destroy object => sockets.Invalid object

/-- Every action of the run keeps all descriptors. -/
def KeepsRun : Sockets → List Action → Prop
  | _, [] => True
  | sockets, action :: actions =>
      sockets.Keeps action ∧ KeepsRun (sockets.perform action) actions

/-! ## What holds until the first shutdown -/

/-- Descriptors were opened, and nothing else has happened to them; the open ones are those
that some object holds. -/
structure Intact (sockets : Sockets) : Prop where
  opened : ∀ call ∈ sockets.calls, ∃ fd, call = .opened fd
  held : ∀ fd, (∃ object, sockets.Holds object fd) ↔ 0 < opens sockets.calls fd
  once : ∀ fd, opens sockets.calls fd ≤ 1

theorem closes_eq_zero {calls : List SysCall} (h : ∀ call ∈ calls, ∃ fd, call = .opened fd)
    (fd : ℕ) : closes calls fd = 0 := by
  rw [closes, List.count_eq_zero]
  intro hmem
  obtain ⟨fd', hfd⟩ := h _ hmem
  cases hfd

theorem shutdownBy_eq_nil {calls : List SysCall}
    (h : ∀ call ∈ calls, ∃ fd, call = .opened fd) (fd : ℕ) : shutdownBy fd calls = [] := by
  induction calls with
  | nil => rfl
  | cons call calls ih =>
      obtain ⟨fd', rfl⟩ := h call List.mem_cons_self
      rw [shutdownBy]
      split
      · rfl
      · exact ih fun call hcall => h call (List.mem_cons_of_mem _ hcall)

theorem Intact.sound {sockets : Sockets} (h : sockets.Intact) : sockets.Sound := by
  refine ⟨fun object fd _ other hother => ?_, fun fd => ?_, fun fd hfree => ?_⟩
  · rw [shutdownBy_eq_nil h.opened] at hother
    cases hother
  · rw [closes_eq_zero h.opened]
    exact Nat.zero_le _
  · rw [closes_eq_zero h.opened]
    by_contra hopen
    obtain ⟨object, hobject⟩ := (h.held fd).2 (Nat.pos_of_ne_zero (Ne.symm hopen))
    exact hfree object hobject

@[simp] theorem calls_setDescriptor (sockets : Sockets) (object : ℕ) (fd : Option ℕ) :
    (sockets.setDescriptor object fd).calls = sockets.calls := rfl

@[simp] theorem calls_record (sockets : Sockets) (call : SysCall) :
    (sockets.record call).calls = call :: sockets.calls := rfl

@[simp] theorem holds_record (sockets : Sockets) (call : SysCall) (object fd : ℕ) :
    (sockets.record call).Holds object fd ↔ sockets.Holds object fd := Iff.rfl

theorem holds_setDescriptor_self (sockets : Sockets) (object fd : ℕ) (held : Option ℕ) :
    (sockets.setDescriptor object held).Holds object fd ↔ held = some fd := by
  simp [Holds, setDescriptor]

theorem holds_setDescriptor_of_ne (sockets : Sockets) {object other : ℕ} (h : other ≠ object)
    (held : Option ℕ) (fd : ℕ) :
    (sockets.setDescriptor object held).Holds other fd ↔ sockets.Holds other fd := by
  simp [Holds, setDescriptor, h]

/-- Whether the state is intact depends on which descriptors are held, not by whom. -/
theorem Intact.of_held {sockets sockets' : Sockets} (h : sockets.Intact)
    (hcalls : sockets'.calls = sockets.calls)
    (hheld : ∀ fd, (∃ object, sockets'.Holds object fd) ↔ ∃ object, sockets.Holds object fd) :
    sockets'.Intact := by
  refine ⟨fun call hcall => h.opened call (hcalls ▸ hcall), fun fd => ?_, fun fd => ?_⟩
  · rw [hheld, h.held, hcalls]
  · rw [hcalls]
    exact h.once fd

theorem Invalid.of_not_lives {sockets : Sockets} {object : ℕ} (h : ¬sockets.Lives object) :
    sockets.Invalid object := by
  intro fd hfd
  rw [Holds, not_not.1 h] at hfd
  cases hfd

theorem close_of_invalid {sockets : Sockets} {object : ℕ} (h : sockets.Invalid object) :
    sockets.close object = sockets := by
  rw [close]
  split
  · rename_i fd hfd
    exact absurd hfd (h fd)
  · rfl

theorem close_of_holds {sockets : Sockets} {object fd : ℕ} (h : sockets.Holds object fd) :
    sockets.close object =
      (sockets.record (.shutdown object fd)).setDescriptor object none := by
  rw [Holds] at h
  rw [close, h]

/-- What changes the place of an invalid object leaves all holders as they are. -/
theorem Intact.setInvalid {sockets sockets' : Sockets} (h : sockets.Intact) {object : ℕ}
    (hinvalid : sockets.Invalid object) (hcalls : sockets'.calls = sockets.calls)
    (hobject : sockets'.Invalid object)
    (hother : ∀ other ≠ object, ∀ fd, sockets'.Holds other fd ↔ sockets.Holds other fd) :
    sockets'.Intact := by
  refine h.of_held hcalls fun fd => exists_congr fun other => ?_
  by_cases heq : other = object
  · subst heq
    exact iff_of_false (hobject fd) (hinvalid fd)
  · exact hother other heq fd

theorem Intact.construct {sockets : Sockets} (h : sockets.Intact) {object : ℕ}
    (hinvalid : sockets.Invalid object) : (sockets.construct object).Intact := by
  refine h.setInvalid hinvalid rfl (fun fd hfd => ?_) fun other hne fd =>
    holds_setDescriptor_of_ne sockets hne none fd
  rw [Sockets.construct, holds_setDescriptor_self] at hfd
  cases hfd

/-- An invalid object gets a fresh descriptor, or none. -/
theorem Intact.obtain {sockets : Sockets} (h : sockets.Intact) {object : ℕ}
    (hinvalid : sockets.Invalid object) {result : Option ℕ} (hfresh : sockets.Fresh result) :
    (sockets.obtain object result).Intact := by
  cases result with
  | none => exact h.construct hinvalid
  | some fd =>
      have hnew : opens sockets.calls fd = 0 := by
        rw [hfresh fd rfl, closes_eq_zero h.opened]
      have hopens (fd' : ℕ) : opens (.opened fd :: sockets.calls) fd' =
          opens sockets.calls fd' + if fd = fd' then 1 else 0 := by
        simp [opens, List.count_cons]
      refine ⟨?_, fun fd' => ?_, fun fd' => ?_⟩
      · intro call hcall
        rcases List.mem_cons.1 hcall with rfl | hmem
        · exact ⟨fd, rfl⟩
        · exact h.opened call hmem
      · rw [Sockets.obtain, calls_setDescriptor, calls_record, hopens]
        by_cases heq : fd = fd'
        · subst heq
          simp only [if_true, Nat.add_one_pos, iff_true]
          exact ⟨object, (holds_setDescriptor_self _ _ _ _).2 rfl⟩
        · rw [if_neg heq, Nat.add_zero, ← h.held fd']
          refine exists_congr fun other => ?_
          by_cases hobject : other = object
          · subst hobject
            rw [holds_setDescriptor_self, Option.some_inj]
            exact iff_of_false heq (hinvalid fd')
          · exact holds_setDescriptor_of_ne _ hobject _ _
      · rw [Sockets.obtain, calls_setDescriptor, calls_record, hopens]
        split
        · rename_i heq
          simp [← heq, hnew]
        · exact h.once fd'

theorem Intact.close {sockets : Sockets} (h : sockets.Intact) {object : ℕ}
    (hinvalid : sockets.Invalid object) : (sockets.close object).Intact := by
  rwa [close_of_invalid hinvalid]

theorem Intact.destroy {sockets : Sockets} (h : sockets.Intact) {object : ℕ}
    (hinvalid : sockets.Invalid object) : (sockets.destroy object).Intact := by
  rw [Sockets.destroy, close_of_invalid hinvalid]
  refine h.setInvalid hinvalid rfl (fun fd hfd => ?_) fun other hne fd => ?_
  · simp [Holds] at hfd
  · simp [Holds, hne]

/-- A copy to another place keeps the holders if the last one is not overwritten. -/
theorem Intact.copy {sockets : Sockets} (h : sockets.Intact) {object other : ℕ}
    (hkeeps : ∀ fd, sockets.Holds object fd →
      sockets.Holds other fd ∨ ∃ third, third ≠ object ∧ sockets.Holds third fd) :
    (sockets.copy object other).Intact := by
  rw [Sockets.copy]
  split
  · rename_i held hheld
    refine h.of_held rfl fun fd => ⟨?_, ?_⟩
    · rintro ⟨third, hthird⟩
      by_cases heq : third = object
      · subst heq
        rw [holds_setDescriptor_self] at hthird
        exact ⟨other, by rw [Holds, hheld, hthird]⟩
      · exact ⟨third, (holds_setDescriptor_of_ne _ heq _ _).1 hthird⟩
    · rintro ⟨third, hthird⟩
      by_cases heq : third = object
      · subst heq
        rcases hkeeps fd hthird with hother | ⟨fourth, hne, hfourth⟩
        · rw [Holds, hheld, Option.some_inj] at hother
          exact ⟨third, (holds_setDescriptor_self _ _ _ _).2 hother⟩
        · exact ⟨fourth, (holds_setDescriptor_of_ne _ hne _ _).2 hfourth⟩
      · exact ⟨third, (holds_setDescriptor_of_ne _ heq _ _).2 hthird⟩
  · exact h

/-! ## What breaks -/

/-- An open descriptor that is shut down through an object that does not hold it any more:
some other object holds it, or none does. -/
theorem not_sound_of_shutdown {sockets : Sockets} {object fd : ℕ}
    (hshutdown : object ∈ shutdownBy fd sockets.calls) (hlost : ¬sockets.Holds object fd)
    (hopen : closes sockets.calls fd < opens sockets.calls fd) : ¬sockets.Sound := by
  intro h
  by_cases hheld : ∃ other, sockets.Holds other fd
  · obtain ⟨other, hother⟩ := hheld
    obtain rfl := h.usable other fd hother object hshutdown
    exact hlost hother
  · rw [h.closed fd fun other hother => hheld ⟨other, hother⟩] at hopen
    exact Nat.lt_irrefl _ hopen

/-- Calls about other descriptors. -/
theorem opens_append {later calls : List SysCall} {fd : ℕ}
    (h : ∀ call ∈ later, call.fd ≠ fd) : opens (later ++ calls) fd = opens calls fd := by
  have hlater : later.count (.opened fd) = 0 := by
    rw [List.count_eq_zero]
    exact fun hmem => h _ hmem rfl
  rw [opens, List.count_append, hlater, Nat.zero_add, opens]

theorem closes_append {later calls : List SysCall} {fd : ℕ}
    (h : ∀ call ∈ later, call.fd ≠ fd) : closes (later ++ calls) fd = closes calls fd := by
  have hlater : later.count (.close fd) = 0 := by
    rw [List.count_eq_zero]
    exact fun hmem => h _ hmem rfl
  rw [closes, List.count_append, hlater, Nat.zero_add, closes]

theorem shutdownBy_append {later calls : List SysCall} {fd : ℕ}
    (h : ∀ call ∈ later, call.fd ≠ fd) :
    shutdownBy fd (later ++ calls) = shutdownBy fd calls := by
  induction later with
  | nil => rfl
  | cons call later ih =>
      have hcall := h call List.mem_cons_self
      have hrest := ih fun call hmem => h call (List.mem_cons_of_mem _ hmem)
      cases call with
      | opened fd' => exact (if_neg hcall).trans hrest
      | shutdown object fd' => exact (if_neg hcall).trans hrest
      | close fd' => exact hrest

/-- An object has shut its descriptor down and given it up. -/
theorem Intact.not_sound {sockets sockets' : Sockets} (h : sockets.Intact) {object fd : ℕ}
    (hheld : sockets.Holds object fd) (later : List SysCall)
    (hcalls : sockets'.calls = later ++ .shutdown object fd :: sockets.calls)
    (hlater : ∀ call ∈ later, call.fd ≠ fd) (hlost : ¬sockets'.Holds object fd) :
    ¬sockets'.Sound := by
  refine not_sound_of_shutdown ?_ hlost ?_
  · rw [hcalls, shutdownBy_append hlater, shutdownBy, if_pos rfl]
    exact List.mem_cons_self
  · rw [hcalls, opens_append hlater, closes_append hlater]
    have hopens : opens (.shutdown object fd :: sockets.calls) fd = opens sockets.calls fd :=
      List.count_cons_of_ne (by simp)
    have hcloses : closes (.shutdown object fd :: sockets.calls) fd = closes sockets.calls fd :=
      List.count_cons_of_ne (by simp)
    rw [hopens, hcloses, closes_eq_zero h.opened]
    exact (h.held fd).1 ⟨object, hheld⟩

/-- A fresh descriptor is none that is held. -/
theorem Intact.ne_of_fresh {sockets : Sockets} (h : sockets.Intact) {object fd fd' : ℕ}
    (hheld : sockets.Holds object fd) (hfresh : sockets.Fresh (some fd')) : fd' ≠ fd := by
  rintro rfl
  have hopen := (h.held fd').1 ⟨object, hheld⟩
  rw [hfresh fd' rfl, closes_eq_zero h.opened] at hopen
  exact Nat.lt_irrefl _ hopen

theorem exists_holds_of_not_invalid {sockets : Sockets} {object : ℕ}
    (h : ¬sockets.Invalid object) : ∃ fd, sockets.Holds object fd := by
  simpa [Invalid] using h

/-- Closing and destroying an object that holds a descriptor. -/
theorem Intact.not_sound_close {sockets : Sockets} (h : sockets.Intact) {object : ℕ}
    (hvalid : ¬sockets.Invalid object) : ¬(sockets.close object).Sound := by
  obtain ⟨fd, hfd⟩ := exists_holds_of_not_invalid hvalid
  rw [close_of_holds hfd]
  refine h.not_sound hfd [] rfl (by simp) ?_
  simp [holds_setDescriptor_self]

theorem Intact.not_sound_destroy {sockets : Sockets} (h : sockets.Intact) {object : ℕ}
    (hvalid : ¬sockets.Invalid object) : ¬(sockets.destroy object).Sound := by
  obtain ⟨fd, hfd⟩ := exists_holds_of_not_invalid hvalid
  rw [Sockets.destroy, close_of_holds hfd]
  refine h.not_sound hfd [] rfl (by simp) ?_
  simp [Holds]

/-- An object that holds a descriptor gets what the kernel returns in its place. -/
theorem Intact.not_sound_obtain {sockets : Sockets} (h : sockets.Intact) {object : ℕ}
    (hvalid : ¬sockets.Invalid object) {result : Option ℕ} (hfresh : sockets.Fresh result) :
    ¬((sockets.close object).obtain object result).Sound ∧
      ¬(((sockets.close object).obtain object result).close object).Sound := by
  obtain ⟨fd, hfd⟩ := exists_holds_of_not_invalid hvalid
  rw [close_of_holds hfd]
  cases result with
  | none =>
      have hobject : (((sockets.record (.shutdown object fd)).setDescriptor object
          none).obtain object none).Invalid object := by
        intro fd' hfd'
        rw [Sockets.obtain, holds_setDescriptor_self] at hfd'
        cases hfd'
      rw [close_of_invalid hobject]
      exact ⟨h.not_sound hfd [] rfl (by simp) (hobject fd),
        h.not_sound hfd [] rfl (by simp) (hobject fd)⟩
  | some fd' =>
      have hne := h.ne_of_fresh hfd hfresh
      have hobject : (((sockets.record (.shutdown object fd)).setDescriptor object
          none).obtain object (some fd')).Holds object fd' :=
        (holds_setDescriptor_self _ _ _ _).2 rfl
      rw [close_of_holds hobject]
      constructor
      · refine h.not_sound hfd [.opened fd'] rfl (by simpa [SysCall.fd] using hne) ?_
        rw [Sockets.obtain, holds_setDescriptor_self, Option.some_inj]
        exact hne
      · refine h.not_sound hfd [.shutdown object fd', .opened fd'] rfl
          (by simpa [SysCall.fd] using hne) ?_
        rw [holds_setDescriptor_self]
        exact (Option.some_ne_none fd).symm

/-- `listen` that fails for a fresh descriptor loses it. -/
theorem Intact.not_sound_obtain_close {sockets : Sockets} (h : sockets.Intact) {object fd : ℕ}
    (hinvalid : sockets.Invalid object) (hfresh : sockets.Fresh (some fd)) :
    ¬((sockets.obtain object (some fd)).close object).Sound := by
  have hobject : (sockets.obtain object (some fd)).Holds object fd :=
    (holds_setDescriptor_self _ _ _ _).2 rfl
  exact (h.obtain hinvalid hfresh).not_sound_close fun hfree => hfree fd hobject

/-- A returned socket that was copied: its local original shuts down what both hold. -/
theorem not_sound_returned (sockets : Sockets) {result temporary : ℕ} (fd : ℕ)
    (hne : temporary ≠ result) :
    ¬((((sockets.construct temporary).obtain temporary (some fd)).copy result
      temporary).destroy temporary).Sound := by
  set returned := (sockets.construct temporary).obtain temporary (some fd)
  have htemporary : returned.Holds temporary fd := (holds_setDescriptor_self _ _ _ _).2 rfl
  have hcopy : returned.copy result temporary = returned.setDescriptor result (some fd) := by
    rw [Holds] at htemporary
    rw [Sockets.copy, htemporary]
  have hheld : (returned.copy result temporary).Holds temporary fd := by
    rw [hcopy]
    exact (holds_setDescriptor_of_ne _ hne _ _).2 htemporary
  rw [Sockets.destroy, close_of_holds hheld, hcopy]
  intro hsound
  refine hne (hsound.usable result fd ?_ temporary ?_)
  · simp [Holds, setDescriptor, record, hne.symm]
  · exact List.mem_of_mem_head? (congrArg List.head? (if_pos rfl))

/-! ## Runs -/

theorem invalid_obtain_none (sockets : Sockets) (object : ℕ) :
    (sockets.obtain object none).Invalid object := by
  intro fd hfd
  rw [Sockets.obtain, holds_setDescriptor_self] at hfd
  cases hfd

/-- What `connectToHost` and `listen` do with the object if it held nothing. -/
theorem Intact.obtain_close {sockets : Sockets} (h : sockets.Intact) {object : ℕ}
    (hinvalid : sockets.Invalid object) :
    ((sockets.obtain object none).close object).Intact := by
  rw [close_of_invalid (sockets.invalid_obtain_none object)]
  exact h.construct hinvalid

/-- The local object of `waitForNewConnection`. -/
theorem Intact.waitForNewConnection {sockets : Sockets} (h : sockets.Intact)
    (object : ℕ) {result : ℕ} (hresult : ¬sockets.Lives result) {accept : Option ℕ}
    (hfresh : sockets.Fresh accept) :
    (sockets.waitForNewConnection object result accept).Intact := by
  have hinvalid : (sockets.construct result).Invalid result :=
    sockets.invalid_obtain_none result
  have hconstruct := h.construct (.of_not_lives hresult)
  rw [Sockets.waitForNewConnection]
  split
  · exact hconstruct.obtain hinvalid hfresh
  · exact hconstruct

theorem holds_waitForNewConnection_of_ne {sockets : Sockets} {object result other : ℕ}
    (hne : other ≠ result) (accept : Option ℕ) (fd : ℕ) :
    (sockets.waitForNewConnection object result accept).Holds other fd ↔
      sockets.Holds other fd := by
  have hconstruct : (sockets.construct result).Holds other fd ↔ sockets.Holds other fd :=
    holds_setDescriptor_of_ne _ hne _ _
  rw [Sockets.waitForNewConnection]
  split
  · cases accept with
    | none => rw [Sockets.obtain, holds_setDescriptor_of_ne _ hne, hconstruct]
    | some fd' => rw [Sockets.obtain, holds_setDescriptor_of_ne _ hne, holds_record, hconstruct]
  · exact hconstruct

/-- Without a descriptor it does not matter whether the copy is elided. -/
theorem Intact.returned {sockets : Sockets} (h : sockets.Intact) {object result temporary : ℕ}
    {accept : Option ℕ} (hresult : ¬sockets.Lives result)
    (hfresh : sockets.Fresh accept) (hne : temporary ≠ result)
    (htemporary : ¬sockets.Lives temporary)
    (hnone : sockets.Invalid object ∨ accept = none) :
    (((sockets.waitForNewConnection object temporary accept).copy result
      temporary).destroy temporary).Intact := by
  have hwait := h.waitForNewConnection object htemporary hfresh
  have hinvalid : (sockets.waitForNewConnection object temporary accept).Invalid
      temporary := by
    rw [Sockets.waitForNewConnection]
    split
    · rename_i fd hfd
      rcases hnone with hobject | rfl
      · exact absurd hfd (hobject fd)
      · exact invalid_obtain_none _ _
    · exact sockets.invalid_obtain_none temporary
  have hplace (fd : ℕ) :
      ¬(sockets.waitForNewConnection object temporary accept).Holds result fd := by
    rw [holds_waitForNewConnection_of_ne hne.symm]
    exact Invalid.of_not_lives hresult fd
  refine (hwait.copy fun fd hfd => absurd hfd (hplace fd)).destroy ?_
  intro fd hfd
  rw [Sockets.copy] at hfd
  split at hfd
  · rw [holds_setDescriptor_of_ne _ hne] at hfd
    exact hinvalid fd hfd
  · exact hinvalid fd hfd

/-- What keeps the references leaves the state intact. -/
theorem Intact.perform {sockets : Sockets} (h : sockets.Intact) {action : Action}
    (henabled : sockets.Enabled action) (hkeeps : sockets.Keeps action) :
    (sockets.perform action).Intact := by
  cases action with
  | construct object => exact h.construct (.of_not_lives henabled)
  | copy object other =>
      exact h.copy fun fd hfd => absurd hfd (Invalid.of_not_lives henabled.1 fd)
  | assign object other => exact h.copy hkeeps
  | connectToHost object socket connected =>
      simp only [Sockets.perform, Sockets.connectToHost, close_of_invalid hkeeps]
      split
      · rename_i hnone
        subst hnone
        exact h.obtain_close hkeeps
      · exact h.obtain hkeeps henabled.2
  | listen object socket bound listening =>
      obtain ⟨hinvalid, hsuccess⟩ := hkeeps
      simp only [Sockets.perform, Sockets.listen, close_of_invalid hinvalid]
      cases socket with
      | none => exact h.obtain_close hinvalid
      | some fd =>
          obtain ⟨rfl, rfl⟩ := hsuccess (Option.some_ne_none fd)
          exact h.obtain hinvalid henabled.2
  | waitForNewConnection object result accept temporary =>
      obtain ⟨-, hresult, hfresh, htemporary⟩ := henabled
      cases temporary with
      | none => exact h.waitForNewConnection object hresult hfresh
      | some temporary =>
          obtain ⟨hne, hplace⟩ := htemporary temporary rfl
          refine h.returned hresult hfresh hne hplace (hkeeps.imp id fun haccept => ?_)
          exact haccept.resolve_right (Option.some_ne_none temporary)
  | close object => exact h.close hkeeps
  | destroy object => exact h.destroy hkeeps

/-- An assignment that drops the last reference to a descriptor. -/
theorem Intact.not_sound_copy {sockets : Sockets} (h : sockets.Intact) {object other : ℕ}
    (hlives : sockets.Lives other)
    (hkeeps : ¬∀ fd, sockets.Holds object fd →
      sockets.Holds other fd ∨ ∃ third, third ≠ object ∧ sockets.Holds third fd) :
    ¬(sockets.copy object other).Sound := by
  simp only [not_forall, not_or, not_exists, not_and] at hkeeps
  obtain ⟨fd, hfd, hother, hthird⟩ := hkeeps
  obtain ⟨held, hheld⟩ := Option.ne_none_iff_exists'.1 hlives
  have hlost (third : ℕ) : ¬(sockets.copy object other).Holds third fd := by
    rw [Sockets.copy, hheld]
    by_cases heq : third = object
    · subst heq
      rw [holds_setDescriptor_self]
      rintro rfl
      exact hother hheld
    · rw [holds_setDescriptor_of_ne _ heq]
      exact hthird third heq
  intro hsound
  have hclosed := hsound.closed fd hlost
  have hcalls : (sockets.copy object other).calls = sockets.calls := by
    rw [Sockets.copy, hheld]
    rfl
  have hopen := (h.held fd).1 ⟨object, hfd⟩
  rw [hcalls, closes_eq_zero h.opened] at hclosed
  exact Nat.ne_of_lt hopen hclosed

/-- `listenOnPort` on a valid object, or with a new descriptor that could not be bound or
listened on. -/
theorem Intact.not_sound_listen {sockets : Sockets} (h : sockets.Intact) {object : ℕ}
    {socket : Option ℕ} {bound listening : Bool} (hfresh : sockets.Fresh socket)
    (hkeeps : ¬(sockets.Invalid object ∧
      (socket ≠ none → bound = true ∧ listening = true))) :
    ¬(sockets.listen object socket bound listening).2.Sound := by
  by_cases hinvalid : sockets.Invalid object
  · obtain ⟨hsocket, hfailed⟩ := Classical.not_imp.1 (not_and.1 hkeeps hinvalid)
    obtain ⟨fd, rfl⟩ := Option.ne_none_iff_exists'.1 hsocket
    have hlost := h.not_sound_obtain_close hinvalid hfresh
    simp only [Sockets.listen, close_of_invalid hinvalid]
    cases bound with
    | false => exact hlost
    | true =>
        cases listening with
        | false => exact hlost
        | true => exact absurd ⟨rfl, rfl⟩ hfailed
  · obtain ⟨hobtain, hclose⟩ := h.not_sound_obtain hinvalid hfresh
    simp only [Sockets.listen]
    split_ifs
    · exact hclose
    · exact hclose
    · exact hclose
    · exact hobtain

/-- What does not keep them is seen at once. -/
theorem Intact.not_sound_perform {sockets : Sockets} (h : sockets.Intact) {action : Action}
    (henabled : sockets.Enabled action) (hkeeps : ¬sockets.Keeps action) :
    ¬(sockets.perform action).Sound := by
  cases action with
  | construct object => exact absurd trivial hkeeps
  | copy object other => exact absurd trivial hkeeps
  | assign object other => exact h.not_sound_copy henabled.2 hkeeps
  | connectToHost object socket connected =>
      obtain ⟨hobtain, hclose⟩ := h.not_sound_obtain hkeeps henabled.2
      simp only [Sockets.perform, Sockets.connectToHost]
      split
      · exact hclose
      · exact hobtain
  | listen object socket bound listening => exact h.not_sound_listen henabled.2 hkeeps
  | waitForNewConnection object result accept temporary =>
      simp only [Keeps, not_or] at hkeeps
      obtain ⟨hvalid, haccept, htemporary⟩ := hkeeps
      obtain ⟨fd, rfl⟩ := Option.ne_none_iff_exists'.1 haccept
      obtain ⟨temporary, rfl⟩ := Option.ne_none_iff_exists'.1 htemporary
      obtain ⟨held, hheld⟩ := exists_holds_of_not_invalid hvalid
      have hne := (henabled.2.2.2 temporary rfl).1
      rw [Sockets.perform, Sockets.waitForNewConnection, show _ = _ from hheld]
      exact not_sound_returned sockets fd hne
  | close object => exact h.not_sound_close hkeeps
  | destroy object => exact h.not_sound_destroy hkeeps

theorem soundRun_iff_keepsRun {sockets : Sockets} (h : sockets.Intact) {actions : List Action}
    (henabled : EnabledRun sockets actions) :
    SoundRun sockets actions ↔ KeepsRun sockets actions := by
  induction actions generalizing sockets with
  | nil => exact iff_of_true h.sound trivial
  | cons action actions ih =>
      rw [SoundRun, KeepsRun]
      by_cases hkeeps : sockets.Keeps action
      · rw [ih (h.perform henabled.1 hkeeps) henabled.2]
        exact ⟨fun hrun => ⟨hkeeps, hrun.2⟩, fun hrun => ⟨h.sound, hrun.2⟩⟩
      · refine iff_of_false ?_ fun hrun => hkeeps hrun.1
        rintro ⟨-, hrun⟩
        refine h.not_sound_perform henabled.1 hkeeps ?_
        cases actions with
        | nil => exact hrun
        | cons next actions => exact hrun.1

/-- **Sockets are sound** in every state of a run exactly if no action of it shuts down a
descriptor or drops the last reference to one.  No member of the class closes any. -/
theorem sound_iff_keeps (actions : List Action) (henabled : EnabledRun {} actions) :
    SoundRun {} actions ↔ KeepsRun {} actions := by
  refine soundRun_iff_keepsRun ⟨by simp, fun fd => ?_, fun fd => ?_⟩ henabled
  · simp [Holds, opens]
  · simp [opens]

/-- A socket is connected and copied. -/
def connectedTwice : List Action :=
  [.construct 0, .connectToHost 0 (some 3) true, .copy 1 0]

theorem enabledRun_connectedTwice : EnabledRun {} connectedTwice := by
  simp [EnabledRun, connectedTwice, Enabled, Lives, Fresh, opens, closes, perform, construct,
    connectToHost, close, obtain, setDescriptor, record]

theorem soundRun_connectedTwice : SoundRun {} connectedTwice := by
  refine (sound_iff_keeps connectedTwice enabledRun_connectedTwice).2 ?_
  simp [KeepsRun, connectedTwice, Keeps, Invalid, Holds, perform, construct, setDescriptor]

/-- The copied socket is destroyed: the copy is valid, and its descriptor is shut down. -/
theorem not_soundRun : ¬∀ actions, EnabledRun {} actions → SoundRun {} actions := by
  intro h
  have henabled : EnabledRun {} (connectedTwice ++ [.destroy 0]) := by
    simp [EnabledRun, connectedTwice, Enabled, Lives, Fresh, opens, closes, perform, construct,
      connectToHost, copy, close, obtain, setDescriptor, record]
  obtain ⟨-, -, -, -, hsound⟩ := h _ henabled
  have hcopy := hsound.usable 1 3 (by simp [Holds, perform, construct, connectToHost, copy,
    destroy, close, obtain, setDescriptor, record]) 0
  simp [perform, construct, connectToHost, copy, destroy, close, obtain, setDescriptor, record,
    shutdownBy] at hcopy

end Sockets

end NewCPP.Network
