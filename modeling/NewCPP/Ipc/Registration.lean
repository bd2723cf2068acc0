import NewCPP.Ipc.Connections

/-!
# Registered descriptors

The receiver remembers in `managedDescriptors` which descriptors it has registered, with the
names of their sockets, while the kernel forgets a descriptor as soon as it is closed.

* `Owned` — what holds of the lists of clients and the registered descriptors in every run.
* `registered_exact` — where `accept` returns no descriptor that is still managed under the
  name of the same socket, what is registered after `ValidateEPoll` is what is open and
  listed; and where it does return one, that descriptor stays unregistered.

## Design notes

**The run.**  The steps are those of `Connections`: sockets are accepted and closed, the
receiver calls `ValidateEPoll` whenever it gets there, and the transmitter drops clients.

**Two lists.**  `managedDescriptors` is the receiver's own memory, a set of pairs; the
registrations are the kernel's, a set of descriptors that loses whatever is closed.  `Mirrors`
is the invariant that relates them, and `FreshStep` the step in which `accept` returns no
descriptor that the memory still holds.
-/

namespace NewCPP.Ipc

open Library
open Sockets (clients Listed collectDescriptors difference)

universe u

variable {δ : Type u}

namespace Connections

/-- The names of the sockets. -/
def names (c : Connections δ) : List String :=
  c.sockets.map IpcSocket.socketName

/-- The registered descriptors are the open ones among those listed. -/
def Exact (c : Connections δ) : Prop :=
  ∀ fd, fd ∈ c.registered ↔ (c.opened fd).isSome = true ∧ Listed c.sockets fd

/-- A step in which no descriptor is opened that is still managed under the name of the
socket that opens it. -/
def FreshStep (c c' : Connections δ) : Prop :=
  ∃ removal, Step removal c c' ∧
    ∀ fd socket name, c.opened fd = none → c'.opened fd = some socket →
      c.names[socket]? = some name → (fd, name) ∉ c.managedDescriptors

/-! ## What the steps do -/

/-- The sockets keep their names. -/
theorem names_step {removal : Option (ℕ × ℕ)} {c c' : Connections δ}
    (hstep : Step removal c c') : c'.names = c.names := by
  cases hstep with
  | accept socket fd _ _ _ =>
      exact Sockets.map_modify_of_eq (IpcSocket.socketName_addClientDecriptor fd) _ _
  | stop _ => rw [names, sockets_closeSocket, names]
  | clear socket _ =>
      rw [names, clear, sockets_closeSocket]
      exact Sockets.map_modify_of_eq IpcSocket.socketName_clearClientsDescriptor _ _
  | sendData socketUri data =>
      exact congrArg (List.map IpcSocket.socketName) (sockets_sendData socketUri data _)
  | transmit label transmitter hloop =>
      change transmitter.sockets.map _ = c.transmitter.sockets.map _
      cases hloop with
      | remove destination data other rest _ =>
          exact Sockets.map_modify_of_eq (IpcSocket.socketName_removeClientDescriptor other) _ _
      | _ => rfl
  | findParent clientDescr rest _ =>
      rw [names, findParent]
      split <;> rfl
  | remove parent clientDescr rest _ =>
      exact Sockets.map_modify_of_eq (IpcSocket.socketName_removeClientDescriptor clientDescr) _ _
  | _ => rfl

/-- A client comes onto a list only when it is accepted. -/
theorem mem_clients_step {removal : Option (ℕ × ℕ)} {c c' : Connections δ}
    (hstep : Step removal c c') {socket fd : ℕ} (h : fd ∈ clients c'.sockets socket) :
    fd ∈ clients c.sockets socket ∨
      c.connector = .running ∧ c.opened fd = none ∧ c'.opened fd = some socket := by
  cases hstep with
  | accept other result hrunning _ hfresh =>
      rcases (Sockets.mem_clients_add _ _ _ _ _).1 h with hold | ⟨rfl, -, rfl⟩
      · exact Or.inl hold
      · exact Or.inr ⟨hrunning, hfresh, Function.update_self ..⟩
  | stop _ =>
      rw [sockets_closeSocket] at h
      exact Or.inl h
  | clear other _ =>
      change fd ∈ clients (closeSocket _ _).sockets socket at h
      rw [sockets_closeSocket] at h
      exact Or.inl ((Sockets.mem_clients_clear _ _ _ _).1 h).2
  | sendData socketUri data =>
      change fd ∈ clients (c.transmitter.sendData socketUri data).sockets socket at h
      rw [sockets_sendData] at h
      exact Or.inl h
  | transmit label transmitter hloop =>
      exact Or.inl ((mem_clients_loopStep hloop socket fd).1 h).1
  | findParent clientDescr rest _ =>
      refine Or.inl ?_
      rw [findParent] at h
      split at h <;> exact h
  | remove parent clientDescr rest _ =>
      exact Or.inl ((Sockets.mem_clients_remove _ _ _ _ _).1 h).1
  | _ => exact Or.inl h

/-- What a step that is no `ValidateEPoll` does to the open and the registered descriptors:
one may be opened, or closed and with that taken out. -/
theorem registered_step {removal : Option (ℕ × ℕ)} {c c' : Connections δ}
    (hstep : Step removal c c') :
    c' = c.validateEPoll ∨ c'.managedDescriptors = c.managedDescriptors ∧
      ((c'.opened = c.opened ∧ c'.registered = c.registered) ∨
        (∃ socket fd, c.connector = .running ∧ c.opened fd = none ∧
          c'.opened = Function.update c.opened fd (some socket) ∧
          c'.registered = c.registered) ∨
        ∃ fd, c'.opened = Function.update c.opened fd none ∧
          c'.registered = c.registered.filter (· ≠ fd)) := by
  cases hstep with
  | accept socket fd hrunning _ hfresh =>
      exact Or.inr ⟨rfl, Or.inr (Or.inl ⟨socket, fd, hrunning, hfresh, rfl, rfl⟩)⟩
  | close socket fd rest _ => exact Or.inr ⟨rfl, Or.inr (Or.inr ⟨fd, rfl, rfl⟩)⟩
  | validate _ => exact Or.inl rfl
  | stop _ =>
      rw [closeSocket]
      split <;> exact Or.inr ⟨rfl, Or.inl ⟨rfl, rfl⟩⟩
  | clear socket _ =>
      rw [clear, closeSocket]
      split <;> exact Or.inr ⟨rfl, Or.inl ⟨rfl, rfl⟩⟩
  | findParent clientDescr rest _ =>
      rw [findParent]
      split <;> exact Or.inr ⟨rfl, Or.inl ⟨rfl, rfl⟩⟩
  | _ => exact Or.inr ⟨rfl, Or.inl ⟨rfl, rfl⟩⟩

/-! ## The lists of clients -/

/-- What is listed with a socket is open and was accepted on it, or is being closed. -/
structure Owned (c : Connections δ) : Prop where
  listed : ∀ socket fd, fd ∈ clients c.sockets socket → c.opened fd = some socket ∨
    c.opened fd = none ∧ ∃ rest, c.connector = .closing socket rest
  closing : ∀ socket rest, c.connector = .closing socket rest → ∀ fd ∈ rest, ∀ other,
    fd ∈ clients c.sockets other → other = socket

namespace Owned

variable {c c' : Connections δ}

theorem new (created : List (String × String)) : (new created : Connections δ).Owned := by
  refine ⟨fun socket fd hfd => ?_, by rintro socket rest ⟨⟩⟩
  change fd ∈ clients (Sockets.create created) socket at hfd
  rw [Sockets.clients_create] at hfd
  cases hfd

/-- Nothing is listed twice. -/
theorem unique (h : c.Owned) {fd socket other : ℕ} (hsocket : fd ∈ clients c.sockets socket)
    (hother : fd ∈ clients c.sockets other) : socket = other := by
  rcases h.listed socket fd hsocket with hopened | ⟨hclosed, rest, hplace⟩
  · rcases h.listed other fd hother with hopened' | ⟨hclosed', -⟩
    · exact Option.some.inj (hopened.symm.trans hopened')
    · rw [hopened] at hclosed'
      cases hclosed'
  · rcases h.listed other fd hother with hopened' | ⟨-, rest', hplace'⟩
    · rw [hclosed] at hopened'
      cases hopened'
    · cases hplace.symm.trans hplace'
      rfl

/-- Unless a socket is being closed, what is listed is open. -/
theorem opened (h : c.Owned) (hplace : ∀ socket rest, c.connector ≠ .closing socket rest)
    {socket fd : ℕ} (hfd : fd ∈ clients c.sockets socket) : c.opened fd = some socket := by
  rcases h.listed socket fd hfd with hopened | ⟨-, rest, hclosing⟩
  · exact hopened
  · exact absurd hclosing (hplace socket rest)

/-- A socket's clients leave its list before they are closed. -/
theorem closeSocket (h : ∀ socket fd, fd ∈ clients c.sockets socket → c.opened fd = some socket)
    (socket : ℕ) : (c.closeSocket socket).Owned := by
  refine ⟨fun other fd hfd => ?_, fun other rest hplace fd hfd another hlisted => ?_⟩
  · rw [sockets_closeSocket] at hfd
    rw [opened_closeSocket]
    exact Or.inl (h other fd hfd)
  · rw [sockets_closeSocket] at hlisted
    rw [Connections.closeSocket] at hplace
    split at hplace
    · cases hplace
      exact Option.some.inj ((h another fd hlisted).symm.trans (h _ fd hfd))
    · cases hplace

/-- A step that opens and closes nothing. -/
theorem of_step (h : c.Owned) {removal : Option (ℕ × ℕ)} (hstep : Step removal c c')
    (hopened : c'.opened = c.opened) (hconnector : c'.connector = c.connector) : c'.Owned := by
  have hold : ∀ socket fd, fd ∈ clients c'.sockets socket → fd ∈ clients c.sockets socket := by
    intro socket fd hfd
    rcases mem_clients_step hstep hfd with hfd | ⟨-, hnone, hsome⟩
    · exact hfd
    · rw [hopened, hnone] at hsome
      cases hsome
  constructor
  · intro socket fd hfd
    rw [hopened, hconnector]
    exact h.listed socket fd (hold socket fd hfd)
  · intro socket rest hplace fd hfd other hother
    rw [hconnector] at hplace
    exact h.closing socket rest hplace fd hfd other (hold other fd hother)

/-- One of them is closed. -/
theorem close (h : c.Owned) {socket fd : ℕ} {rest : List ℕ}
    (hplace : c.connector = .closing socket (fd :: rest)) : (c.close socket fd rest).Owned := by
  constructor
  · intro other fd' hfd
    change Function.update c.opened fd none fd' = _ ∨ Function.update c.opened fd none fd' = _ ∧ _
    by_cases heq : fd' = fd
    · subst heq
      rw [Function.update_self, h.closing socket _ hplace fd' List.mem_cons_self other hfd]
      exact Or.inr ⟨rfl, rest, rfl⟩
    · rw [Function.update_of_ne heq]
      refine (h.listed other fd' hfd).imp_right fun hclosed => ⟨hclosed.1, rest, ?_⟩
      obtain ⟨rest', hplace'⟩ := hclosed.2
      cases hplace.symm.trans hplace'
      rfl
  · rintro other rest' ⟨⟩ fd' hfd another hlisted
    exact h.closing socket _ hplace fd' (List.mem_cons_of_mem _ hfd) another hlisted

/-- Every step. -/
theorem step (h : c.Owned) {removal : Option (ℕ × ℕ)} (hstep : Step removal c c') :
    c'.Owned := by
  cases hstep with
  | start hplace =>
      refine ⟨fun socket fd hfd => Or.inl ?_, by rintro socket rest ⟨⟩⟩
      exact h.opened (fun socket rest hclosing => by rw [hplace] at hclosing; cases hclosing) hfd
  | accept socket fd hrunning hlength hfresh =>
      have hopened : ∀ {socket fd}, fd ∈ clients c.sockets socket → c.opened fd = some socket :=
        h.opened fun socket rest hclosing => by rw [hrunning] at hclosing; cases hclosing
      constructor
      · intro other fd' hfd
        refine Or.inl ((opened_accept_iff socket fd c).2 ?_)
        rcases (Sockets.mem_clients_add _ _ _ _ _).1 hfd with hold | ⟨rfl, -, rfl⟩
        · have hne : fd' ≠ fd := by
            rintro rfl
            rw [hopened hold] at hfresh
            cases hfresh
          exact Or.inr ⟨hne, hopened hold⟩
        · exact Or.inl ⟨rfl, rfl⟩
      · intro other rest hplace
        change c.connector = _ at hplace
        rw [hrunning] at hplace
        cases hplace
  | stop hrunning =>
      exact .closeSocket (fun socket fd hfd => h.opened
        (fun socket rest hclosing => by rw [hrunning] at hclosing; cases hclosing) hfd) 0
  | close socket fd rest hplace => exact h.close hplace
  | clear socket hplace =>
      refine .closeSocket (fun other fd hfd => ?_) _
      obtain ⟨hne, hold⟩ := (Sockets.mem_clients_clear _ _ _ _).1 hfd
      rcases h.listed other fd hold with hopened | ⟨-, rest, hclosing⟩
      · exact hopened
      · rw [hplace] at hclosing
        cases hclosing
        exact absurd rfl hne
  | hangUp fd => exact ⟨h.listed, h.closing⟩
  | sendData socketUri data => exact h.of_step (.sendData socketUri data) rfl rfl
  | transmit label transmitter hloop => exact h.of_step (.transmit label transmitter hloop) rfl rfl
  | validate hplace => exact ⟨h.listed, h.closing⟩
  | wait dropDescriptors _ _ _ => exact ⟨h.listed, h.closing⟩
  | findParent clientDescr rest hplace =>
      refine h.of_step (.findParent clientDescr rest hplace) ?_ ?_ <;>
        rw [Connections.findParent] <;> split <;> rfl
  | remove parent clientDescr rest hplace =>
      exact h.of_step (.remove parent clientDescr rest hplace) rfl rfl
  | purged _ => exact ⟨h.listed, h.closing⟩

end Owned

/-! ## The registered descriptors -/

/-- What `ValidateEPoll` registers and what it takes off. -/
theorem mem_registered_validateEPoll (c : Connections δ) (fd : ℕ) :
    fd ∈ c.validateEPoll.registered ↔
      (fd ∈ c.registered ∧ ¬∃ name, (fd, name) ∈ c.managedDescriptors ∧
        (fd, name) ∉ collectDescriptors c.sockets) ∨
      (∃ name, (fd, name) ∈ collectDescriptors c.sockets ∧
        (fd, name) ∉ c.managedDescriptors) ∧ (c.opened fd).isSome = true := by
  rw [validateEPoll, List.mem_append, List.mem_filter, List.mem_filter]
  simp only [decide_eq_true_iff, Sockets.mem_difference]

/-- What holds of the registered descriptors in every run. -/
structure Registered (c : Connections δ) : Prop where
  owned : c.Owned
  opened : ∀ fd ∈ c.registered, (c.opened fd).isSome = true
  managed : ∀ fd ∈ c.registered, ∃ name, (fd, name) ∈ c.managedDescriptors
  once : ∀ fd name name', (fd, name) ∈ c.managedDescriptors →
    (fd, name') ∈ c.managedDescriptors → name = name'

/-- A descriptor is in one list, so it goes by one name. -/
theorem Owned.once {c : Connections δ} (h : c.Owned) {fd : ℕ} {name name' : String}
    (hname : (fd, name) ∈ collectDescriptors c.sockets)
    (hname' : (fd, name') ∈ collectDescriptors c.sockets) : name = name' := by
  obtain ⟨socket, hsocket, hfd⟩ := (Sockets.mem_collectDescriptors_pair _ _ _).1 hname
  obtain ⟨other, hother, hfd'⟩ := (Sockets.mem_collectDescriptors_pair _ _ _).1 hname'
  rw [← h.unique hfd hfd', hsocket, Option.some_inj] at hother
  exact hother

namespace Registered

variable {c c' : Connections δ}

theorem new (created : List (String × String)) : (new created : Connections δ).Registered := by
  refine ⟨.new created, ?_, ?_, ?_⟩
  · intro fd hfd
    cases hfd
  · intro fd hfd
    cases hfd
  · intro fd name name' hname
    cases hname

/-- What is managed is then what is listed. -/
theorem validateEPoll (h : c.Registered) : c.validateEPoll.Registered := by
  refine ⟨⟨h.owned.listed, h.owned.closing⟩, fun fd hfd => ?_, fun fd hfd => ?_,
    fun fd name name' => h.owned.once⟩
  · rcases (mem_registered_validateEPoll c fd).1 hfd with ⟨hold, -⟩ | ⟨-, hopened⟩
    · exact h.opened fd hold
    · exact hopened
  · rcases (mem_registered_validateEPoll c fd).1 hfd with ⟨hold, hkept⟩ | ⟨⟨name, hname, -⟩, -⟩
    · obtain ⟨name, hname⟩ := h.managed fd hold
      exact ⟨name, by_contra fun hgone => hkept ⟨name, hname, hgone⟩⟩
    · exact ⟨name, hname⟩

theorem step (h : c.Registered) {removal : Option (ℕ × ℕ)} (hstep : Step removal c c') :
    c'.Registered := by
  have howned := h.owned.step hstep
  rcases registered_step hstep with rfl | ⟨hmanaged, ⟨hopened, hregistered⟩ |
    ⟨socket, fd, -, hfresh, hopened, hregistered⟩ | ⟨fd, hopened, hregistered⟩⟩
  · exact h.validateEPoll
  · refine ⟨howned, ?_, ?_, hmanaged ▸ h.once⟩
    · rw [hopened, hregistered]
      exact h.opened
    · rw [hmanaged, hregistered]
      exact h.managed
  · refine ⟨howned, ?_, ?_, hmanaged ▸ h.once⟩
    · rw [hopened, hregistered]
      intro other hother
      by_cases heq : other = fd
      · rw [heq, Function.update_self]
        rfl
      · rw [Function.update_of_ne heq]
        exact h.opened other hother
    · rw [hmanaged, hregistered]
      exact h.managed
  · refine ⟨howned, ?_, ?_, hmanaged ▸ h.once⟩
    · rw [hopened, hregistered]
      intro other hother
      rw [List.mem_filter, decide_eq_true_iff] at hother
      rw [Function.update_of_ne hother.2]
      exact h.opened other hother.1
    · rw [hmanaged, hregistered]
      exact fun other hother => h.managed other (List.mem_filter.1 hother).1

end Registered

/-- Of what is managed, that which is still listed and open is registered. -/
def Mirrors (c : Connections δ) : Prop :=
  ∀ fd name, (fd, name) ∈ c.managedDescriptors → (fd, name) ∈ collectDescriptors c.sockets →
    (c.opened fd).isSome = true → fd ∈ c.registered

/-- `ValidateEPoll` registers what is missing, as long as it is not managed. -/
theorem exact_validateEPoll_iff {c : Connections δ} (h : c.Registered) :
    c.validateEPoll.Exact ↔ c.Mirrors := by
  constructor
  · intro hexact fd name hmanaged hcurrent hopened
    have hlisted : Listed c.sockets fd :=
      (Sockets.mem_collectDescriptors _ _).1 ⟨name, hcurrent⟩
    rcases (mem_registered_validateEPoll c fd).1 ((hexact fd).2 ⟨hopened, hlisted⟩) with
      ⟨hold, -⟩ | ⟨⟨name', hname', hnew⟩, -⟩
    · exact hold
    · rw [h.owned.once hname' hcurrent] at hnew
      exact absurd hmanaged hnew
  · intro hmirrors fd
    change fd ∈ c.validateEPoll.registered ↔ (c.opened fd).isSome = true ∧ Listed c.sockets fd
    rw [mem_registered_validateEPoll]
    constructor
    · rintro (⟨hold, hkept⟩ | ⟨⟨name, hname, -⟩, hopened⟩)
      · obtain ⟨name, hname⟩ := h.managed fd hold
        refine ⟨h.opened fd hold, (Sockets.mem_collectDescriptors _ _).1 ⟨name, ?_⟩⟩
        exact by_contra fun hgone => hkept ⟨name, hname, hgone⟩
      · exact ⟨hopened, (Sockets.mem_collectDescriptors _ _).1 ⟨name, hname⟩⟩
    · rintro ⟨hopened, hlisted⟩
      obtain ⟨name, hcurrent⟩ := (Sockets.mem_collectDescriptors _ _).2 hlisted
      -- it was registered before, or is new to the receiver
      by_cases hmanaged : (fd, name) ∈ c.managedDescriptors
      · refine Or.inl ⟨hmirrors fd name hmanaged hcurrent hopened, ?_⟩
        rintro ⟨name', hname', hgone⟩
        rw [h.once fd name' name hname' hmanaged] at hgone
        exact hgone hcurrent
      · exact Or.inr ⟨⟨name, hcurrent, hmanaged⟩, hopened⟩

/-- With fresh descriptors the registrations follow the lists. -/
theorem mirrors_step {c c' : Connections δ} (h : c.Registered) (hmirrors : c.Mirrors)
    (hstep : FreshStep c c') : c'.Mirrors := by
  obtain ⟨removal, hstep, hfresh⟩ := hstep
  rcases registered_step hstep with rfl | ⟨hmanaged, heffect⟩
  · intro fd name _ hcurrent hopened
    exact ((exact_validateEPoll_iff h).2 hmirrors fd).2
      ⟨hopened, (Sockets.mem_collectDescriptors _ _).1 ⟨name, hcurrent⟩⟩
  · intro fd name hname hcurrent hopened'
    rw [hmanaged] at hname
    obtain ⟨socket, hsocket, hfd⟩ := (Sockets.mem_collectDescriptors_pair _ _ _).1 hcurrent
    change c'.names[socket]? = some name at hsocket
    rw [names_step hstep] at hsocket
    -- a descriptor that was accepted just now is not managed under this name
    have hold : fd ∈ clients c.sockets socket := by
      rcases mem_clients_step hstep hfd with hold | ⟨-, hnone, hsome⟩
      · exact hold
      · exact absurd hname (hfresh fd socket name hnone hsome hsocket)
    have hkept := hmirrors fd name hname
      ((Sockets.mem_collectDescriptors_pair _ _ _).2 ⟨socket, hsocket, hold⟩)
    rcases heffect with ⟨hopened, hregistered⟩ | ⟨other, fd', hrunning, hnone, hopened,
      hregistered⟩ | ⟨fd', hopened, hregistered⟩
    · rw [hregistered]
      exact hkept (by rwa [hopened] at hopened')
    · -- what is listed while clients are accepted was open before
      rw [hregistered]
      refine hkept ?_
      rw [h.owned.opened
        (fun socket rest hclosing => by rw [hrunning] at hclosing; cases hclosing) hold]
      rfl
    · -- the kernel takes out what is closed, which is not open any more
      have hne : fd ≠ fd' := by
        rintro rfl
        rw [hopened, Function.update_self] at hopened'
        cases hopened'
      rw [hopened, Function.update_of_ne hne] at hopened'
      rw [hregistered, List.mem_filter, decide_eq_true_iff]
      exact ⟨hkept hopened', hne⟩

theorem lt_length_of_names {c : Connections δ} {socket : ℕ} {name : String}
    (h : c.names[socket]? = some name) : socket < c.sockets.length := by
  by_contra hlength
  rw [names, List.getElem?_eq_none (by simpa using hlength)] at h
  cases h

/-- A descriptor that comes back while it is managed under the same name is not registered. -/
theorem not_mirrors_accept {c : Connections δ} (h : c.Registered) {socket fd : ℕ} {name : String}
    (hname : c.names[socket]? = some name) (hfresh : c.opened fd = none)
    (hmanaged : (fd, name) ∈ c.managedDescriptors) : ¬(c.accept socket fd).Mirrors := by
  intro hmirrors
  have hcurrent : (fd, name) ∈ collectDescriptors (c.accept socket fd).sockets := by
    refine (Sockets.mem_collectDescriptors_pair _ _ _).2 ⟨socket, ?_, ?_⟩
    · rw [← hname]
      exact congrArg (·[socket]?)
        (Sockets.map_modify_of_eq (IpcSocket.socketName_addClientDecriptor fd) _ _)
    · exact (Sockets.mem_clients_add _ _ _ _ _).2 (Or.inr ⟨rfl, lt_length_of_names hname, rfl⟩)
  have hregistered := hmirrors fd name hmanaged hcurrent (by simp [accept])
  have hopened := h.opened fd hregistered
  rw [hfresh] at hopened
  cases hopened

/-- **What is registered** when `ValidateEPoll` returns is what is open and listed, in the
runs in which `accept` returns no descriptor that is still managed under the name of the
socket.  Where it does return one, that is not so after the next `ValidateEPoll`. -/
theorem registered_exact (created : List (String × String)) :
    (∀ c : Connections δ, Relation.ReflTransGen FreshStep (new created) c →
        c.validateEPoll.Exact) ∧
      ∀ c : Connections δ,
        Relation.ReflTransGen (fun c c' => ∃ removal, Step removal c c') (new created) c →
        ∀ socket fd name, c.connector = .running → c.names[socket]? = some name →
          c.opened fd = none → (fd, name) ∈ c.managedDescriptors →
            ¬(c.accept socket fd).validateEPoll.Exact := by
  constructor
  · intro c hrun
    have hkept : c.Registered ∧ c.Mirrors := by
      refine Transition.invariant_of_run (I := fun c : Connections δ => c.Registered ∧ c.Mirrors)
        ?_ ⟨.new created, ?_⟩ hrun
      · rintro c c' ⟨hregistered, hmirrors⟩ hstep
        refine ⟨?_, mirrors_step hregistered hmirrors hstep⟩
        obtain ⟨removal, hstep, -⟩ := hstep
        exact hregistered.step hstep
      · intro fd name hname
        cases hname
    exact (exact_validateEPoll_iff hkept.1).2 hkept.2
  · intro c hrun socket fd name hrunning hname hfresh hmanaged
    have hregistered : c.Registered :=
      Transition.invariant_of_run (I := Registered)
        (fun h hstep => h.step hstep.choose_spec) (.new created) hrun
    have haccept : (c.accept socket fd).Registered :=
      hregistered.step (.accept socket fd hrunning (lt_length_of_names hname) hfresh)
    rw [exact_validateEPoll_iff haccept]
    exact not_mirrors_accept hregistered hname hfresh hmanaged

/-- A client that is accepted, before the receiver has registered it. -/
def accepted : Connections ℕ :=
  { (new [("unix:/a", "a")]).accept 0 5 with connector := .running }

/-- A client that was accepted, after the next call. -/
theorem registered_accepted : accepted.validateEPoll.Exact := by
  refine (registered_exact [("unix:/a", "a")]).1 accepted (.head ⟨none, .start rfl, ?_⟩ ?_)
  · intro fd socket name _ hopened
    cases hopened
  · refine .single ⟨none, .accept 0 5 rfl (by decide) rfl, ?_⟩
    intro fd socket name _ _ _ hmanaged
    cases hmanaged

/-- The connector is stopped and started between two calls of `ValidateEPoll`, and the next
client gets the descriptor of the last one. -/
theorem not_registered_restarted : ¬∀ (created : List (String × String)) (c : Connections ℕ),
    Relation.ReflTransGen (fun c c' => ∃ removal, Step removal c c') (new created) c →
      c.receiver = .start → c.validateEPoll.Exact := by
  intro h
  let registered : Connections ℕ := { accepted.validateEPoll with receiver := .start }
  let stopped := (((registered.closeSocket 0).close 0 5 []).clear 0)
  let again : Connections ℕ := { stopped.accept 0 5 with connector := .running }
  have hrun : Relation.ReflTransGen (fun c c' : Connections ℕ => ∃ removal, Step removal c c')
      (new [("unix:/a", "a")]) again := by
    refine .head ⟨none, Step.start rfl⟩ ?_
    refine .head ⟨none, Step.accept 0 5 rfl (by decide) rfl⟩ ?_
    refine .head ⟨none, Step.validate rfl⟩ ?_
    refine .head ⟨none, Step.wait [] rfl (by decide) (by decide)⟩ ?_
    refine .head ⟨none, Step.purged rfl⟩ ?_
    refine .head ⟨none, Step.stop rfl⟩ ?_
    refine .head ⟨none, Step.close 0 5 [] rfl⟩ ?_
    refine .head ⟨none, Step.clear 0 rfl⟩ ?_
    refine .head ⟨none, Step.start rfl⟩ ?_
    exact .single ⟨none, Step.accept 0 5 rfl (by decide) rfl⟩
  have hexact := (h [("unix:/a", "a")] again hrun rfl 5).2 ⟨rfl, 0, by decide⟩
  revert hexact
  decide

end Connections

end NewCPP.Ipc
