import NewCPP.Ipc.Receiver
import NewCPP.Ipc.Transmitter

/-!
# Accepted connections

The connector, the receiver and the transmitter on their threads, and the descriptors that
`accept` has returned.  The connector lists each with the socket that accepted it, and
`IpcConnector::Stop` closes the descriptors that are listed then; the receiver takes those
off the list whose clients have hung up, the transmitter those to which a `write` failed.

* `no_leak` — where only closed descriptors are taken off a list, every open one is
  listed; one that is taken off while it is open leaks, as neither the receiver nor the
  transmitter closes it.

## Design notes

**Accepting.**  The handler of the connector, `accept` and `addClientDecriptor`, is one
step: nobody else knows the descriptor in between.

**Descriptors.**  `accept` returns a descriptor that is not open, which may have been
returned before and closed.

**The receiver.**  Of its loop only what it does about clients that have hung up is here.
Which of the registered ones `epoll` reports, and when, is left open.  A descriptor that is
closed is no longer registered, and cannot be.

**The transmitter** is the one of its own module; `δ` is what it sends.
-/

namespace NewCPP.Ipc

open Library
open Sockets (clients collectDescriptors difference)

universe u

variable {δ : Type u}

/-- Where the connector is. -/
inductive ConnectorPlace where
  | stopped
  | running
  /-- In `closeSocket`, with the descriptors of the copy that are left to close. -/
  | closing (socket : ℕ) (clientsDescriptor : List ℕ)

/-- Where the receiver is in `loop`. -/
inductive PurgePlace where
  | start
  | validated
  | purging (dropDescriptors : List ℕ)
  /-- Before the first descriptor is removed from the socket that lists it. -/
  | removing (parent : ℕ) (clientDescr : ℕ) (dropDescriptors : List ℕ)

/-- The sockets and the descriptors behind them, and where the receiver's thread is. -/
structure Connections (δ : Type u) where
  /-- The transmitter, with the sockets that all share. -/
  transmitter : Transmitter δ
  /-- The open descriptors, with the sockets that accepted them. -/
  opened : ℕ → Option ℕ := fun _ => none
  hungUp : ℕ → Bool := fun _ => false
  connector : ConnectorPlace := .stopped
  receiver : PurgePlace := .start
  managedDescriptors : List (ℕ × String) := []
  registered : List ℕ := []

/-- What the transmitter's thread is about to remove, and from which socket. -/
def TransmitterPlace.removal : TransmitterPlace δ → Option (ℕ × ℕ)
  | .failed socket _ fd _ => some (socket, fd)
  | _ => none

namespace Connections

/-- The sockets with their client lists. -/
def sockets (c : Connections δ) : List IpcSocket := c.transmitter.sockets

/-- The client lists are replaced. -/
def setSockets (sockets : List IpcSocket) (c : Connections δ) : Connections δ :=
  { c with transmitter := { c.transmitter with sockets := sockets } }

/-- A connection gets a free descriptor, and the client list of its socket has it. -/
def accept (socket fd : ℕ) (c : Connections δ) : Connections δ :=
  { c.setSockets (c.sockets.modify socket (IpcSocket.addClientDecriptor fd)) with
    opened := Function.update c.opened fd (some socket)
    hungUp := Function.update c.hungUp fd false }

/-- `closeSocket` begins with a socket, if there is one. -/
def closeSocket (socket : ℕ) (c : Connections δ) : Connections δ :=
  if socket < c.sockets.length then
    { c with connector := .closing socket (clients c.sockets socket) }
  else { c with connector := .stopped }

/-- The first descriptor of the copy is closed. -/
def close (socket fd : ℕ) (rest : List ℕ) (c : Connections δ) : Connections δ :=
  { c with
    opened := Function.update c.opened fd none
    registered := c.registered.filter (· ≠ fd)
    connector := .closing socket rest }

/-- `closeSocket` ends, and the next socket is closed. -/
def clear (socket : ℕ) (c : Connections δ) : Connections δ :=
  (c.setSockets (c.sockets.modify socket IpcSocket.clearClientsDescriptor)).closeSocket
    (socket + 1)

/-- The registrations are brought in line with the client lists. -/
def validateEPoll (c : Connections δ) : Connections δ :=
  let allCurrent := collectDescriptors c.sockets
  let removed := difference c.managedDescriptors allCurrent
  let added := difference allCurrent c.managedDescriptors
  { c with
    registered := c.registered.filter (· ∉ removed) ++
      added.filter fun fd => (c.opened fd).isSome
    managedDescriptors := allCurrent
    receiver := .validated }

/-- `findParent` for the first descriptor to drop. -/
def findParent (clientDescr : ℕ) (rest : List ℕ) (c : Connections δ) : Connections δ :=
  match Sockets.findParent c.sockets clientDescr with
  | none => { c with receiver := .purging rest }
  | some parent => { c with receiver := .removing parent clientDescr rest }

/-- **One step** of a client, the owner of the connector, or a thread.  The label tells which
descriptor is removed by the receiver or the transmitter, and from which socket. -/
inductive Step : Option (ℕ × ℕ) → Connections δ → Connections δ → Prop
  | start {c : Connections δ} (stopped : c.connector = .stopped) :
      Step none c { c with connector := .running }
  | accept {c : Connections δ} (socket fd : ℕ) (running : c.connector = .running)
      (exists_socket : socket < c.sockets.length) (fresh : c.opened fd = none) :
      Step none c (c.accept socket fd)
  | stop {c : Connections δ} (running : c.connector = .running) :
      Step none c (c.closeSocket 0)
  | close {c : Connections δ} (socket fd : ℕ) (rest : List ℕ)
      (closing : c.connector = .closing socket (fd :: rest)) :
      Step none c (c.close socket fd rest)
  | clear {c : Connections δ} (socket : ℕ) (closed : c.connector = .closing socket []) :
      Step none c (c.clear socket)
  | hangUp {c : Connections δ} (fd : ℕ) :
      Step none c { c with hungUp := Function.update c.hungUp fd true }
  | sendData {c : Connections δ} (socketUri : String) (data : δ) :
      Step none c { c with transmitter := c.transmitter.sendData socketUri data }
  | transmit {c : Connections δ} (label : Option (ℕ × δ)) (transmitter : Transmitter δ)
      (steps : Transmitter.LoopStep label c.transmitter transmitter) :
      Step c.transmitter.place.removal c { c with transmitter := transmitter }
  | validate {c : Connections δ} (start : c.receiver = .start) : Step none c c.validateEPoll
  | wait {c : Connections δ} (dropDescriptors : List ℕ) (validated : c.receiver = .validated)
      (events : ∀ fd ∈ dropDescriptors, fd ∈ c.registered ∧ c.hungUp fd = true)
      (at_most : dropDescriptors.length ≤ Receiver.epoolEvents) :
      Step none c { c with receiver := .purging dropDescriptors }
  | findParent {c : Connections δ} (clientDescr : ℕ) (rest : List ℕ)
      (purging : c.receiver = .purging (clientDescr :: rest)) :
      Step none c (c.findParent clientDescr rest)
  | remove {c : Connections δ} (parent clientDescr : ℕ) (rest : List ℕ)
      (removing : c.receiver = .removing parent clientDescr rest) :
      Step (some (parent, clientDescr)) c
        { c.setSockets (c.sockets.modify parent (IpcSocket.removeClientDescriptor clientDescr))
          with receiver := .purging rest }
  | purged {c : Connections δ} (purging : c.receiver = .purging []) :
      Step none c { c with receiver := .start }

/-- Before the connector is started. -/
def new (created : List (String × String)) : Connections δ :=
  { transmitter := .new (Sockets.create created) }

/-- Every descriptor that `accept` returned and that is open is listed with the socket that
accepted it. -/
def NoLeak (c : Connections δ) : Prop :=
  ∀ fd socket, c.opened fd = some socket → fd ∈ clients c.sockets socket

/-- A step that takes no open descriptor off the list of the socket that accepted it. -/
def CarefulStep (c c' : Connections δ) : Prop :=
  ∃ removal, Step removal c c' ∧
    ∀ socket fd, removal = some (socket, fd) → c.opened fd ≠ some socket

/-! ## What the steps do to the lists -/

/-- **What a step of the transmitter does to the lists**: it removes the client that its
label says, or nothing. -/
theorem mem_clients_loopStep {label : Option (ℕ × δ)} {t t' : Transmitter δ}
    (hloop : Transmitter.LoopStep label t t') (socket fd : ℕ) :
    fd ∈ clients t'.sockets socket ↔
      fd ∈ clients t.sockets socket ∧ t.place.removal ≠ some (socket, fd) := by
  cases hloop with
  | remove destination data other rest hplace =>
      rw [Sockets.mem_clients_remove, hplace]
      simp only [TransmitterPlace.removal, ne_eq, Option.some.injEq, Prod.mk.injEq]
      rw [eq_comm (a := other)]
  | getHead _ _ _ hplace _ => simp [hplace, TransmitterPlace.removal]
  | copy _ _ hplace => simp [hplace, TransmitterPlace.removal]
  | write _ _ _ _ hplace => simp [hplace, TransmitterPlace.removal]
  | fail _ _ _ _ hplace => simp [hplace, TransmitterPlace.removal]
  | done _ _ hplace => simp [hplace, TransmitterPlace.removal]

@[simp] theorem sockets_sendData (socketUri : String) (data : δ) (t : Transmitter δ) :
    (t.sendData socketUri data).sockets = t.sockets := by
  dsimp only [Transmitter.sendData]
  split <;> rfl

@[simp] theorem sockets_closeSocket (socket : ℕ) (c : Connections δ) :
    (c.closeSocket socket).sockets = c.sockets := by
  rw [closeSocket]
  split <;> rfl

@[simp] theorem opened_closeSocket (socket : ℕ) (c : Connections δ) :
    (c.closeSocket socket).opened = c.opened := by
  rw [closeSocket]
  split <;> rfl

theorem opened_accept_iff (socket fd : ℕ) (c : Connections δ) {other socket' : ℕ} :
    (c.accept socket fd).opened other = some socket' ↔
      other = fd ∧ socket = socket' ∨ other ≠ fd ∧ c.opened other = some socket' := by
  show Function.update c.opened fd (some socket) other = some socket' ↔ _
  rw [Function.update_apply]
  split
  · rename_i heq
    simp [heq]
  · rename_i hne
    simp [hne]

/-- One descriptor is closed, the others stay. -/
theorem opened_close_iff (socket fd : ℕ) (rest : List ℕ) (c : Connections δ)
    {other socket' : ℕ} : (c.close socket fd rest).opened other = some socket' ↔
      other ≠ fd ∧ c.opened other = some socket' := by
  show Function.update c.opened fd none other = some socket' ↔ _
  rw [Function.update_apply]
  split
  · rename_i heq
    simp [heq]
  · rename_i hne
    simp [hne]

/-! ## Open descriptors are listed -/

/-- What holds as long as no open descriptor is taken off its list. -/
structure Kept (c : Connections δ) : Prop where
  noLeak : c.NoLeak
  /-- What is still listed with a socket while it is closed will be closed, or has been. -/
  closing : ∀ socket rest, c.connector = .closing socket rest →
    ∀ fd ∈ clients c.sockets socket, fd ∈ rest ∨ c.opened fd ≠ some socket

/-- Taking a whole socket's clients to be closed keeps them accounted for. -/
theorem kept_closeSocket {c : Connections δ} (hnoLeak : c.NoLeak) (socket : ℕ) :
    (c.closeSocket socket).Kept := by
  refine ⟨?_, ?_⟩
  · intro fd other hopened
    rw [sockets_closeSocket]
    exact hnoLeak fd other (by simpa using hopened)
  · rw [closeSocket]
    split
    · rintro other rest ⟨⟩ fd hfd
      exact Or.inl hfd
    · rintro other rest ⟨⟩

/-- A step on the lists only, which takes no open descriptor off its list. -/
theorem kept_of_lists {c c' : Connections δ} (hkept : c.Kept) (hopened : c'.opened = c.opened)
    (hconnector : c'.connector = c.connector)
    (hlists : ∀ socket fd, fd ∈ clients c'.sockets socket → fd ∈ clients c.sockets socket)
    (hopen : ∀ socket fd, c.opened fd = some socket → fd ∈ clients c.sockets socket →
      fd ∈ clients c'.sockets socket) : c'.Kept := by
  refine ⟨fun fd socket h => ?_, fun socket rest hplace fd hfd => ?_⟩
  · rw [hopened] at h
    exact hopen socket fd h (hkept.noLeak fd socket h)
  · rw [hconnector] at hplace
    rw [hopened]
    exact hkept.closing socket rest hplace fd (hlists socket fd hfd)

/-- So does a connection that is accepted while the connector runs. -/
theorem kept_accept {c : Connections δ} (hkept : c.Kept) {socket fd : ℕ}
    (hrunning : c.connector = .running) (hlength : socket < c.sockets.length) :
    (c.accept socket fd).Kept := by
  constructor
  · intro other socket' hopened
    refine (Sockets.mem_clients_add _ _ _ _ _).2 ?_
    rcases (opened_accept_iff socket fd c).1 hopened with ⟨hfd, hsocket⟩ | ⟨-, hold⟩
    · exact Or.inr ⟨hsocket, hlength, hfd⟩
    · exact Or.inl (hkept.noLeak other socket' hold)
  · intro other rest hplace
    change c.connector = _ at hplace
    rw [hrunning] at hplace
    cases hplace

/-- So does closing one of them. -/
theorem kept_close {c : Connections δ} (hkept : c.Kept) {socket fd : ℕ} {rest : List ℕ}
    (hplace : c.connector = .closing socket (fd :: rest)) : (c.close socket fd rest).Kept := by
  constructor
  · intro other socket' hopened
    exact hkept.noLeak other socket' ((opened_close_iff socket fd rest c).1 hopened).2
  · rintro socket' rest' ⟨⟩ other hother
    rw [ne_eq, opened_close_iff, not_and]
    by_cases hfd : other = fd
    · exact Or.inr fun hne => absurd hfd hne
    · rcases hkept.closing _ _ hplace other hother with hmem | hclosed
      · exact Or.inl ((List.mem_cons.1 hmem).resolve_left hfd)
      · exact Or.inr fun _ => hclosed

/-- What is cleared has been closed. -/
theorem kept_clear {c : Connections δ} (hkept : c.Kept) {socket : ℕ}
    (hplace : c.connector = .closing socket []) : (c.clear socket).Kept := by
  refine kept_closeSocket ?_ _
  intro fd socket' hopened
  change c.opened fd = some socket' at hopened
  have hlisted := hkept.noLeak fd socket' hopened
  refine (Sockets.mem_clients_clear _ _ _ _).2 ⟨?_, hlisted⟩
  rintro rfl
  rcases hkept.closing _ _ hplace fd hlisted with hmem | hclosed
  · cases hmem
  · exact hclosed hopened

/-- **Every careful step.** -/
theorem kept_step {c c' : Connections δ} (hkept : c.Kept) (hstep : CarefulStep c c') :
    c'.Kept := by
  obtain ⟨removal, hstep, hcareful⟩ := hstep
  cases hstep with
  | start _ => exact ⟨hkept.noLeak, by rintro socket rest ⟨⟩⟩
  | accept socket fd hrunning hlength _ => exact kept_accept hkept hrunning hlength
  | stop _ => exact kept_closeSocket hkept.noLeak 0
  | close socket fd rest hplace => exact kept_close hkept hplace
  | clear socket hplace => exact kept_clear hkept hplace
  | sendData socketUri data =>
      refine kept_of_lists hkept rfl rfl (fun socket fd h => ?_) fun socket fd _ h => ?_
      · change fd ∈ clients (c.transmitter.sendData socketUri data).sockets socket at h
        rwa [sockets_sendData] at h
      · show fd ∈ clients (c.transmitter.sendData socketUri data).sockets socket
        rwa [sockets_sendData]
  | transmit label transmitter hloop =>
      refine kept_of_lists hkept rfl rfl
        (fun socket fd h => ((mem_clients_loopStep hloop socket fd).1 h).1)
        fun socket fd hopened h => (mem_clients_loopStep hloop socket fd).2 ⟨h, ?_⟩
      exact fun hremoval => hcareful socket fd hremoval hopened
  | findParent clientDescr rest _ =>
      dsimp only [findParent]
      split
      · exact ⟨hkept.noLeak, hkept.closing⟩
      · exact ⟨hkept.noLeak, hkept.closing⟩
  | remove parent clientDescr rest _ =>
      refine kept_of_lists hkept rfl rfl
        (fun socket fd h => ((Sockets.mem_clients_remove _ _ _ _ _).1 h).1)
        fun socket fd hopened h => (Sockets.mem_clients_remove _ _ _ _ _).2 ⟨h, ?_⟩
      rintro ⟨rfl, rfl⟩
      exact hcareful _ _ rfl hopened
  | _ => exact ⟨hkept.noLeak, hkept.closing⟩

/-- A descriptor that is taken off its list while it is open leaks. -/
theorem leaks {c c' : Connections δ} {socket fd : ℕ} (hopened : c.opened fd = some socket)
    (hstep : Step (some (socket, fd)) c c') : ¬c'.NoLeak := by
  intro hnoLeak
  generalize hremoval : some (socket, fd) = removal at hstep
  cases hstep with
  | transmit label transmitter hloop =>
      exact ((mem_clients_loopStep hloop socket fd).1 (hnoLeak fd socket hopened)).2 hremoval.symm
  | remove parent clientDescr rest _ =>
      cases hremoval
      exact ((Sockets.mem_clients_remove _ _ _ _ _).1 (hnoLeak fd socket hopened)).2 ⟨rfl, rfl⟩
  | _ => cases hremoval

theorem kept_new (created : List (String × String)) : (new created : Connections δ).Kept :=
  ⟨by rintro fd socket ⟨⟩, by rintro socket rest ⟨⟩⟩

/-- **No accepted connection leaks** in a run in which the receiver and the transmitter take
no open descriptor off the list of the socket that accepted it.  Where one of them does,
that connection leaks. -/
theorem no_leak (created : List (String × String)) :
    (∀ c : Connections δ, Relation.ReflTransGen CarefulStep (new created) c → c.NoLeak) ∧
      ∀ (c c' : Connections δ) (socket fd : ℕ), c.opened fd = some socket →
        Step (some (socket, fd)) c c' → ¬c'.NoLeak := by
  constructor
  · intro c hrun
    have hkept : c.Kept :=
      Transition.invariant_of_run (I := Kept) kept_step (kept_new created) hrun
    exact hkept.noLeak
  · exact fun c c' socket fd hopened hstep => leaks hopened hstep

/-- A connection that is accepted, and closed when the connector is stopped. -/
theorem connection_closed :
    let accepted : Connections ℕ :=
      { (new [("unix:/a", "a")]).accept 0 5 with connector := .running }
    accepted.NoLeak ∧ ((accepted.closeSocket 0).close 0 5 []).NoLeak := by
  intro accepted
  have hcareful : ∀ {c c' : Connections ℕ}, Step none c c' → CarefulStep c c' :=
    fun hstep => ⟨none, hstep, by rintro socket fd ⟨⟩⟩
  have hrun : Relation.ReflTransGen CarefulStep (new [("unix:/a", "a")]) accepted :=
    .head (hcareful (Step.start rfl)) (.single (hcareful (Step.accept 0 5 rfl (by decide) rfl)))
  refine ⟨(no_leak [("unix:/a", "a")]).1 accepted hrun, (no_leak [("unix:/a", "a")]).1 _ ?_⟩
  refine hrun.trans (.head (hcareful (Step.stop rfl)) (.single (hcareful ?_)))
  exact Step.close 0 5 [] rfl

/-- A client hangs up, and the receiver drops its descriptor without closing it. -/
theorem hang_up_leaks :
    ∃ c : Connections ℕ, Relation.ReflTransGen (fun c c' => ∃ removal, Step removal c c')
      (new [("unix:/a", "a")]) c ∧ ¬c.NoLeak := by
  let accepted : Connections ℕ :=
    { (new [("unix:/a", "a")]).accept 0 5 with connector := .running }
  let hungUp : Connections ℕ :=
    { accepted with hungUp := Function.update accepted.hungUp 5 true }
  let noticed : Connections ℕ := { hungUp.validateEPoll with receiver := .purging [5] }
  let found := noticed.findParent 5 []
  have hremove := Step.remove (c := found) 0 5 [] rfl
  refine ⟨_, ?_, leaks rfl hremove⟩
  refine .head ⟨_, Step.start rfl⟩ ?_
  refine .head ⟨_, Step.accept 0 5 rfl (by decide) rfl⟩ ?_
  refine .head ⟨_, Step.hangUp 5⟩ ?_
  refine .head ⟨_, Step.validate rfl⟩ ?_
  refine .head ⟨_, Step.wait [5] rfl (by decide) (by decide)⟩ ?_
  refine .head ⟨_, Step.findParent 5 [] rfl⟩ ?_
  exact .single ⟨_, hremove⟩

end Connections

end NewCPP.Ipc
