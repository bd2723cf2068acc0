import Mathlib.Data.List.Basic
import Mathlib.Logic.Function.Basic
import Mathlib.Logic.Relation
import Mathlib.Tactic.Common
import NewCPP.Library.Transition

/-!
# Shutting down what is closed

`IpcConnectorUnix::closeSocket` calls `close` and then `shutdown` on the same descriptor.  By then
the number is free, and another thread may have got it for a new connection.

* `shuts_down_others` — a connector never shuts down a connection of its own: every `shutdown` of
  `closeSocket` fails, or breaks a connection of another connector.
* `none_broken` — nothing is broken as long as no descriptor is returned again between the two
  calls; once one is, the connector that has closed it need only go on.

## Design notes

**The process.**  Any number of connectors start, accept and stop, each with a thread and an owner
of its own.  `opened` has the connector that opened a descriptor.  `socket` and `accept` return one
that is not open, also one that was.

**Clients.**  The receiver and the transmitter take clients off a list at any time, also while the
connector is stopped.
-/

namespace NewCPP.Ipc

open Library

/-- A socket that is bound, with its clients. -/
structure BoundSocket where
  socketDescriptor : ℕ
  clientsDescriptor : List ℕ := []

/-- Where the owner of a connector is. -/
inductive ClosePlace where
  | stopped
  | running
  /-- In `closeSocket` of the first socket, with the descriptors that are left of it; `copied`
  once these are the copy of its clients. -/
  | closing (descriptors : List ℕ) (copied : Bool)
  /-- The same, between `close` and `shutdown`. -/
  | closed (fd : ℕ) (descriptors : List ℕ) (copied : Bool)

/-- The members of a connector, as far as `stop` needs them. -/
structure Closer where
  sockets : List BoundSocket := []
  place : ClosePlace := .stopped

/-- The connectors of a process and the descriptors they share. -/
structure Process where
  opened : ℕ → Option ℕ := fun _ => none
  connectors : ℕ → Closer := fun _ => {}
  /-- What `shutdown` has broken: which connector called it, and whose connection it was. -/
  broken : List (ℕ × ℕ) := []

namespace Process

/-- One connector is replaced. -/
def setConnector (p : Process) (i : ℕ) (connector : Closer) : Process :=
  { p with connectors := Function.update p.connectors i connector }

/-- One connector goes on. -/
def setPlace (p : Process) (i : ℕ) (place : ClosePlace) : Process :=
  p.setConnector i { p.connectors i with place := place }

/-- One connector gets other sockets. -/
def setSockets (p : Process) (i : ℕ) (sockets : List BoundSocket) : Process :=
  p.setConnector i { p.connectors i with sockets := sockets }

/-- One descriptor is opened or closed. -/
def setOpened (p : Process) (fd : ℕ) (connector : Option ℕ) : Process :=
  { p with opened := Function.update p.opened fd connector }

/-- The change of the clients of a socket. -/
def setClients (p : Process) (i socket : ℕ) (f : List ℕ → List ℕ) : Process :=
  p.setSockets i ((p.connectors i).sockets.modify socket fun bound =>
    { bound with clientsDescriptor := f bound.clientsDescriptor })

/-- `closeSocket` begins with the first socket, if there is one. -/
def closeSocket : List BoundSocket → ClosePlace
  | [] => .stopped
  | bound :: _ => .closing [bound.socketDescriptor] false

/-- It breaks what has the descriptor. -/
def shutdown (p : Process) (i fd : ℕ) : Process :=
  match p.opened fd with
  | some victim => { p with broken := p.broken ++ [(i, victim)] }
  | none => p

/-- **One step** of the thread or the owner of a connector, or of those who remove clients. -/
inductive Step : Process → Process → Prop
  | bindSocket {p : Process} (i fd : ℕ) (stopped : (p.connectors i).place = .stopped)
      (fresh : p.opened fd = none) :
      Step p ((p.setOpened fd (some i)).setSockets i
        ((p.connectors i).sockets ++ [{ socketDescriptor := fd }]))
  | start {p : Process} (i : ℕ) (stopped : (p.connectors i).place = .stopped) :
      Step p (p.setPlace i .running)
  | accept {p : Process} (i socket fd : ℕ) (running : (p.connectors i).place = .running)
      (exists_socket : socket < (p.connectors i).sockets.length) (fresh : p.opened fd = none) :
      Step p ((p.setOpened fd (some i)).setClients i socket fun clients => clients ++ [fd])
  | removeClientDescriptor {p : Process} (i socket fd : ℕ) :
      Step p (p.setClients i socket fun clients => clients.erase fd)
  | stop {p : Process} (i : ℕ) (running : (p.connectors i).place = .running) :
      Step p (p.setPlace i (closeSocket (p.connectors i).sockets))
  | close {p : Process} (i fd : ℕ) (descriptors : List ℕ) (copied : Bool)
      (closing : (p.connectors i).place = .closing (fd :: descriptors) copied) :
      Step p ((p.setOpened fd none).setPlace i (.closed fd descriptors copied))
  | shutdown {p : Process} (i fd : ℕ) (descriptors : List ℕ) (copied : Bool)
      (closed : (p.connectors i).place = .closed fd descriptors copied) :
      Step p ((p.shutdown i fd).setPlace i (.closing descriptors copied))
  | getCopyOfClientsDescriptor {p : Process} (i : ℕ) (bound : BoundSocket)
      (sockets : List BoundSocket) (listed : (p.connectors i).sockets = bound :: sockets)
      (closing : (p.connectors i).place = .closing [] false) :
      Step p (p.setPlace i (.closing bound.clientsDescriptor true))
  /-- `clearClientsDescriptor`, and on to the next socket. -/
  | next {p : Process} (i : ℕ) (bound : BoundSocket) (sockets : List BoundSocket)
      (listed : (p.connectors i).sockets = bound :: sockets)
      (closing : (p.connectors i).place = .closing [] true) :
      Step p (p.setConnector i { sockets := sockets, place := closeSocket sockets })

/-- A descriptor that a connector has closed and is about to shut down. -/
def Closed (p : Process) (i fd : ℕ) : Prop :=
  ∃ descriptors copied, (p.connectors i).place = .closed fd descriptors copied

/-- No descriptor is opened that a connector is about to shut down. -/
def LateStep (p p' : Process) : Prop :=
  Step p p' ∧ ∀ i fd, p.Closed i fd → p.opened fd = none → p'.opened fd = none

/-! ## What the steps do -/

section

variable {p p' : Process}

/-- Replacing a connector closes at most what its new place says. -/
theorem closed_setConnector {i j fd : ℕ} {connector : Closer}
    (h : (p.setConnector i connector).Closed j fd) :
    p.Closed j fd ∨ ∃ descriptors copied, connector.place = .closed fd descriptors copied := by
  obtain ⟨descriptors, copied, hplace⟩ := h
  by_cases hji : j = i
  · subst hji
    simp only [setConnector, Function.update_self] at hplace
    exact Or.inr ⟨descriptors, copied, hplace⟩
  · simp only [setConnector, Function.update_of_ne hji] at hplace
    exact Or.inl ⟨descriptors, copied, hplace⟩

/-- A step to a place where nothing is about to be shut down. -/
theorem closed_of_setConnector {i j fd : ℕ} {connector : Closer}
    (hplace : ∀ fd descriptors copied, connector.place ≠ .closed fd descriptors copied)
    (h : (p.setConnector i connector).Closed j fd) : p.Closed j fd := by
  rcases closed_setConnector h with hold | ⟨descriptors, copied, heq⟩
  · exact hold
  · exact absurd heq (hplace fd descriptors copied)

theorem closed_setSockets {i j fd : ℕ} {sockets : List BoundSocket} :
    (p.setSockets i sockets).Closed j fd ↔ p.Closed j fd := by
  rw [Closed, Closed, setSockets, setConnector]
  by_cases hji : j = i
  · subst hji
    simp only [Function.update_self]
  · simp only [Function.update_of_ne hji]

/-- The next socket begins with nothing closed. -/
theorem closeSocket_ne_closed (sockets : List BoundSocket) (fd : ℕ) (descriptors : List ℕ)
    (copied : Bool) : closeSocket sockets ≠ .closed fd descriptors copied := by
  cases sockets with
  | nil => exact nofun
  | cons bound sockets => exact nofun

/-- **What a step does** to the descriptors, to what is broken, and to what is about to be shut
down. -/
inductive Effect (p p' : Process) : Prop
  /-- By a connector that is not about to shut anything down. -/
  | opens (i fd : ℕ) (idle : ∀ other, ¬p.Closed i other) (fresh : p.opened fd = none)
      (opened : p'.opened = Function.update p.opened fd (some i)) (broken : p'.broken = p.broken)
      (closed : ∀ j other, p'.Closed j other ↔ p.Closed j other)
  | closes (fd : ℕ) (opened : p'.opened = Function.update p.opened fd none)
      (broken : p'.broken = p.broken)
      (closed : ∀ j other, p'.Closed j other → p.Closed j other ∨ other = fd)
  | shuts (i fd : ℕ) (now : p.Closed i fd) (opened : p'.opened = p.opened)
      (broken : p'.broken = (p.shutdown i fd).broken)
      (closed : ∀ j other, p'.Closed j other → p.Closed j other)
  | nothing (opened : p'.opened = p.opened) (broken : p'.broken = p.broken)
      (closed : ∀ j other, p'.Closed j other → p.Closed j other)

/-- Elsewhere in its loop a connector has closed nothing. -/
theorem not_closed_of_place {i fd : ℕ}
    (h : ∀ fd descriptors copied, (p.connectors i).place ≠ .closed fd descriptors copied) :
    ¬p.Closed i fd := by
  rintro ⟨descriptors, copied, hplace⟩
  exact h fd descriptors copied hplace

theorem opened_shutdown (i fd : ℕ) : (p.shutdown i fd).opened = p.opened := by
  rw [shutdown]
  split
  · rfl
  · rfl

theorem connectors_shutdown (i fd : ℕ) : (p.shutdown i fd).connectors = p.connectors := by
  rw [shutdown]
  split
  · rfl
  · rfl

/-- What a step can do, once for all that follows. -/
theorem Step.effect (hstep : Step p p') : Effect p p' := by
  cases hstep with
  | bindSocket i fd hstopped hfresh =>
      refine .opens i fd (fun other => not_closed_of_place ?_) hfresh rfl rfl fun j other =>
        closed_setSockets
      rw [hstopped]
      exact nofun
  | start i hstopped =>
      exact .nothing rfl rfl fun j other => closed_of_setConnector (fun _ _ _ => nofun)
  | accept i socket fd hrunning _ hfresh =>
      refine .opens i fd (fun other => not_closed_of_place ?_) hfresh rfl rfl fun j other =>
        closed_setSockets
      rw [hrunning]
      exact nofun
  | removeClientDescriptor i socket fd =>
      exact .nothing rfl rfl fun j other => closed_setSockets.1
  | stop i hrunning =>
      exact .nothing rfl rfl fun j other => closed_of_setConnector (closeSocket_ne_closed _)
  | close i fd descriptors copied hclosing =>
      refine .closes fd rfl rfl fun j other hother => ?_
      rcases closed_setConnector hother with hold | ⟨_, _, heq⟩
      · exact Or.inl hold
      · cases heq
        exact Or.inr rfl
  | shutdown i fd descriptors copied hclosed =>
      refine .shuts i fd ⟨descriptors, copied, hclosed⟩ (opened_shutdown i fd) rfl
        fun j other hother => ?_
      have hold : (p.shutdown i fd).Closed j other := by
        refine closed_of_setConnector ?_ hother
        exact fun _ _ _ => nofun
      rw [Closed, connectors_shutdown] at hold
      exact hold
  | getCopyOfClientsDescriptor i bound sockets _ hclosing =>
      exact .nothing rfl rfl fun j other => closed_of_setConnector (fun _ _ _ => nofun)
  | next i bound sockets _ hclosing =>
      exact .nothing rfl rfl fun j other => closed_of_setConnector (closeSocket_ne_closed sockets)

/-- A connector is about to shut down no descriptor that is its own. -/
def Foreign (p : Process) : Prop :=
  (∀ i fd, p.Closed i fd → p.opened fd ≠ some i) ∧ ∀ item ∈ p.broken, item.1 ≠ item.2

/-- A shutdown breaks the connection that has the descriptor now, if there is one. -/
theorem mem_broken_shutdown {i fd : ℕ} {item : ℕ × ℕ}
    (h : item ∈ (p.shutdown i fd).broken) :
    item ∈ p.broken ∨ item.1 = i ∧ p.opened fd = some item.2 := by
  rw [shutdown] at h
  split at h
  · rename_i victim hopened
    rcases List.mem_append.1 h with hold | hnew
    · exact Or.inl hold
    · rw [List.mem_singleton.1 hnew]
      exact Or.inr ⟨rfl, hopened⟩
  · exact Or.inl h

/-- Every step keeps that. -/
theorem Foreign.step (h : p.Foreign) (hstep : Step p p') : p'.Foreign := by
  obtain ⟨hclosed, hbroken⟩ := h
  cases hstep.effect with
  | opens i fd idle fresh opened broken closed =>
      refine ⟨fun j other hother => ?_, broken ▸ hbroken⟩
      have hold := (closed j other).1 hother
      rw [opened]
      by_cases heq : other = fd
      · rw [heq, Function.update_self]
        rintro ⟨⟩
        exact idle other hold
      · rw [Function.update_of_ne heq]
        exact hclosed j other hold
  | closes fd opened broken closed =>
      refine ⟨fun j other hother => ?_, broken ▸ hbroken⟩
      rw [opened]
      by_cases heq : other = fd
      · rw [heq, Function.update_self]
        exact nofun
      · rw [Function.update_of_ne heq]
        exact hclosed j other ((closed j other hother).resolve_right heq)
  | shuts i fd now opened broken closed =>
      refine ⟨fun j other hother => ?_, fun item hitem => ?_⟩
      · rw [opened]
        exact hclosed j other (closed j other hother)
      · rw [broken] at hitem
        rcases mem_broken_shutdown hitem with hold | ⟨hi, hvictim⟩
        · exact hbroken item hold
        · intro heq
          rw [← heq, hi] at hvictim
          exact hclosed i fd now hvictim
  | nothing opened broken closed =>
      refine ⟨fun j other hother => ?_, broken ▸ hbroken⟩
      rw [opened]
      exact hclosed j other (closed j other hother)

/-- What is about to be shut down is not open. -/
def Harmless (p : Process) : Prop :=
  (∀ i fd, p.Closed i fd → p.opened fd = none) ∧ p.broken = []

/-- Every step that opens no such descriptor keeps it harmless. -/
theorem Harmless.step (h : p.Harmless) (hstep : LateStep p p') : p'.Harmless := by
  obtain ⟨hclosed, hbroken⟩ := h
  obtain ⟨hstep, hlate⟩ := hstep
  cases hstep.effect with
  | opens i fd idle fresh opened broken closed =>
      refine ⟨fun j other hother => ?_, broken.trans hbroken⟩
      have hold := (closed j other).1 hother
      exact hlate j other hold (hclosed j other hold)
  | closes fd opened broken closed =>
      refine ⟨fun j other hother => ?_, broken.trans hbroken⟩
      rw [opened]
      by_cases heq : other = fd
      · rw [heq, Function.update_self]
      · rw [Function.update_of_ne heq]
        exact hclosed j other ((closed j other hother).resolve_right heq)
  | shuts i fd now opened broken closed =>
      refine ⟨fun j other hother => ?_, ?_⟩
      · rw [opened]
        exact hclosed j other (closed j other hother)
      · rw [broken, shutdown, hclosed i fd now]
        exact hbroken
  | nothing opened broken closed =>
      refine ⟨fun j other hother => ?_, broken.trans hbroken⟩
      rw [opened]
      exact hclosed j other (closed j other hother)

theorem update_none {opened : ℕ → Option ℕ} (fd : ℕ) {other : ℕ} (h : opened other = none) :
    Function.update opened fd none other = none := by
  by_cases heq : other = fd
  · rw [heq, Function.update_self]
  · rw [Function.update_of_ne heq]
    exact h

/-- A descriptor that is opened before the connector that closed it has shut it down. -/
theorem breaks (hstep : Step p p') {i fd : ℕ} (hclosed : p.Closed i fd)
    (hfresh : p.opened fd = none) (hopened : p'.opened fd ≠ none) :
    ∃ p'', Step p' p'' ∧ p''.broken ≠ [] := by
  have hnot (h : p'.opened fd = p.opened fd) : False := hopened (h.trans hfresh)
  cases hstep.effect with
  | opens j accepted idle fresh opened broken closed =>
      obtain ⟨descriptors, copied, hplace⟩ := (closed i fd).2 hclosed
      obtain ⟨victim, hvictim⟩ := Option.ne_none_iff_exists'.1 hopened
      refine ⟨_, .shutdown i fd descriptors copied hplace, ?_⟩
      show (p'.shutdown i fd).broken ≠ []
      rw [shutdown, hvictim]
      exact List.append_ne_nil_of_right_ne_nil _ (List.cons_ne_nil _ _)
  | closes other opened broken closed =>
      refine absurd ?_ hopened
      rw [opened]
      exact update_none other hfresh
  | shuts j other now opened broken closed => exact (hnot (by rw [opened])).elim
  | nothing opened broken closed => exact (hnot (by rw [opened])).elim

end

/-- Before any connector is started. -/
theorem not_closed_initial (i fd : ℕ) : ¬({} : Process).Closed i fd :=
  not_closed_of_place (fun _ _ _ => nofun)

/-- **A connector shuts down connections of others only.** -/
theorem shuts_down_others {p : Process} (hrun : Relation.ReflTransGen Step {} p) :
    ∀ item ∈ p.broken, item.1 ≠ item.2 :=
  (Transition.invariant_of_run (I := Foreign) (fun h hstep => h.step hstep)
    ⟨fun i fd hclosed => absurd hclosed (not_closed_initial i fd), nofun⟩ hrun).2

/-- Connector 1 gets descriptor 3 when connector 0 has closed it. -/
theorem shuts_down_others_returned :
    ∃ p : Process, p.broken = [(0, 1)] ∧ ∀ item ∈ p.broken, item.1 ≠ item.2 := by
  have hnew : Relation.ReflTransGen Step {} {} := .refl
  have hbind := hnew.tail (.bindSocket 0 3 rfl rfl)
  have hstart := hbind.tail (.start 0 rfl)
  have hbind' := hstart.tail (.bindSocket 1 4 rfl rfl)
  have hstart' := hbind'.tail (.start 1 rfl)
  have hstop := hstart'.tail (.stop 0 rfl)
  have hclose := hstop.tail (.close 0 3 [] false rfl)
  have haccept := hclose.tail (.accept 1 0 3 rfl (by decide) rfl)
  have hshutdown := haccept.tail (.shutdown 0 3 [] false rfl)
  exact ⟨_, rfl, shuts_down_others hshutdown⟩

/-- **When nothing is broken.** -/
theorem none_broken {p : Process} (hrun : Relation.ReflTransGen LateStep {} p) :
    p.broken = [] ∧ ∀ p', Step p p' → ¬LateStep p p' → ∃ p'', Step p' p'' ∧ p''.broken ≠ [] := by
  have hharmless : p.Harmless :=
    Transition.invariant_of_run (I := Harmless) (fun h hstep => h.step hstep)
      ⟨fun i fd hclosed => absurd hclosed (not_closed_initial i fd), rfl⟩ hrun
  refine ⟨hharmless.2, fun p' hstep hlate => ?_⟩
  by_contra hnever
  refine hlate ⟨hstep, fun i fd hclosed hfresh => ?_⟩
  by_contra hopened
  exact hnever (breaks hstep hclosed hfresh hopened)

/-- A step that opens nothing is not too early. -/
theorem lateStep_of_opened {p p' : Process} (hstep : Step p p')
    (hopened : ∀ fd, p.opened fd = none → p'.opened fd = none) : LateStep p p' :=
  ⟨hstep, fun _ fd _ hfresh => hopened fd hfresh⟩

/-- A connector alone. -/
theorem none_broken_alone :
    ∃ p : Process, (p.connectors 0).place = .closing [] false ∧ p.broken = [] ∧
      ∀ p', Step p p' → ¬LateStep p p' → ∃ p'', Step p' p'' ∧ p''.broken ≠ [] := by
  have hnew : Relation.ReflTransGen LateStep {} {} := .refl
  have hbind := hnew.tail ⟨.bindSocket 0 3 rfl rfl, fun i fd hclosed =>
    absurd hclosed (not_closed_initial i fd)⟩
  have hstart := hbind.tail (lateStep_of_opened (.start 0 rfl) fun _ => id)
  have hstop := hstart.tail (lateStep_of_opened (.stop 0 rfl) fun _ => id)
  have hclose := hstop.tail (lateStep_of_opened (.close 0 3 [] false rfl) fun _ => update_none 3)
  have hshutdown := hclose.tail (lateStep_of_opened (.shutdown 0 3 [] false rfl) fun _ => id)
  exact ⟨_, rfl, none_broken hshutdown⟩

end Process

end NewCPP.Ipc
