import Mathlib.Data.List.Basic
import Mathlib.Logic.Function.Basic
import Mathlib.Logic.Relation
import Mathlib.Tactic.Common
import NewCPP.Library.Transition
import NewCPP.Ipc.Socket

/-!
# The transmitter

`IpcTransmitter`: `sendData` queues a payload for the first socket with a URI, and the
thread of the transmitter takes one after the other and writes each to the clients that its
socket has at that time.

* `broadcast_order` — a client that stays with one socket is written exactly the payloads
  for that socket that were taken from the queue, in the order of the calls.

## Design notes

**Payloads.**  Nothing here looks into a payload: `δ` is arbitrary.

**Locks.**  `sendData`, `getHead` and each call on the clients of a socket hold a mutex and
are one step.  A `write` sends its whole payload or fails.

**Histories.**  `calls` lists the calls of `sendData` in the order in which they had
`dataMutex`; `dequeued` and `written` list what was taken from the queue and written.

**`Loop`.**  Waiting for data, and finding none, changes nothing and is no step.
-/

namespace NewCPP.Ipc

open Library
open Sockets (clients resolve)

universe u

variable {δ : Type u}

/-- Where the thread is in `sendToClients`. -/
inductive TransmitterPlace (δ : Type u) where
  | head
  | taken (socket : ℕ) (data : δ)
  /-- With the clients of its copy that are left to write to. -/
  | sending (socket : ℕ) (data : δ) (clientsDescriptor : List ℕ)
  /-- After a `write` that failed, before the client is removed. -/
  | failed (socket : ℕ) (data : δ) (clientDescriptor : ℕ) (clientsDescriptor : List ℕ)

/-- The sockets, the queue, and where the thread is; and what was asked of it and done so
far. -/
structure Transmitter (δ : Type u) where
  sockets : List IpcSocket
  listOfDataToSend : List (ℕ × δ) := []
  place : TransmitterPlace δ := .head
  calls : List (String × δ) := []
  dequeued : List (ℕ × δ) := []
  written : ℕ → List δ := fun _ => []

namespace Transmitter

/-- `sendData`: the socket is looked up by its URI, and a payload for it is queued. -/
def sendData (socketUri : String) (data : δ) (t : Transmitter δ) : Transmitter δ :=
  let called := { t with calls := t.calls ++ [(socketUri, data)] }
  match resolve t.sockets socketUri with
  | none => called
  | some socket => { called with listOfDataToSend := t.listOfDataToSend ++ [(socket, data)] }

/-- One step of the thread; the label tells what is written, and to whom. -/
inductive LoopStep : Option (ℕ × δ) → Transmitter δ → Transmitter δ → Prop
  | getHead {t : Transmitter δ} (socket : ℕ) (data : δ) (rest : List (ℕ × δ))
      (place : t.place = .head) (queue : t.listOfDataToSend = (socket, data) :: rest) :
      LoopStep none t { t with
        listOfDataToSend := rest
        dequeued := t.dequeued ++ [(socket, data)]
        place := .taken socket data }
  | copy {t : Transmitter δ} (socket : ℕ) (data : δ) (place : t.place = .taken socket data) :
      LoopStep none t { t with place := .sending socket data (clients t.sockets socket) }
  | write {t : Transmitter δ} (socket : ℕ) (data : δ) (fd : ℕ) (rest : List ℕ)
      (place : t.place = .sending socket data (fd :: rest)) :
      LoopStep (some (fd, data)) t { t with
        written := Function.update t.written fd (t.written fd ++ [data])
        place := .sending socket data rest }
  | fail {t : Transmitter δ} (socket : ℕ) (data : δ) (fd : ℕ) (rest : List ℕ)
      (place : t.place = .sending socket data (fd :: rest)) :
      LoopStep none t { t with place := .failed socket data fd rest }
  | remove {t : Transmitter δ} (socket : ℕ) (data : δ) (fd : ℕ) (rest : List ℕ)
      (place : t.place = .failed socket data fd rest) :
      LoopStep none t { t with
        sockets := t.sockets.modify socket (IpcSocket.removeClientDescriptor fd)
        place := .sending socket data rest }
  | done {t : Transmitter δ} (socket : ℕ) (data : δ) (place : t.place = .sending socket data []) :
      LoopStep none t { t with place := .head }

/-- **One step**: a call of `sendData`, a step of the thread, or a client that is added or
removed by others. -/
inductive Step : Transmitter δ → Transmitter δ → Prop
  | sendData {t : Transmitter δ} (socketUri : String) (data : δ) :
      Step t (t.sendData socketUri data)
  | loop {t t' : Transmitter δ} (label : Option (ℕ × δ)) (steps : LoopStep label t t') : Step t t'
  | add {t : Transmitter δ} (index fd : ℕ) :
      Step t { t with sockets := t.sockets.modify index (IpcSocket.addClientDecriptor fd) }
  | remove {t : Transmitter δ} (index fd : ℕ) :
      Step t { t with sockets := t.sockets.modify index (IpcSocket.removeClientDescriptor fd) }

/-- A transmitter that has just been constructed. -/
def new (sockets : List IpcSocket) : Transmitter δ := { sockets := sockets }

/-- The client is one of this socket, and of no other. -/
def Stays (socket fd : ℕ) (t : Transmitter δ) : Prop :=
  fd ∈ clients t.sockets socket ∧ ∀ other ≠ socket, fd ∉ clients t.sockets other

/-- The payloads taken from the queue for a socket. -/
def dequeuedFor (t : Transmitter δ) (socket : ℕ) : List δ :=
  (t.dequeued.filter fun item => item.1 = socket).map Prod.snd

/-- What a call of `sendData` puts into the queue. -/
def queued (sockets : List IpcSocket) (call : String × δ) : Option (ℕ × δ) :=
  (resolve sockets call.1).map fun socket => (socket, call.2)

end Transmitter

namespace TransmitterPlace

/-- The clients that are left of the copy. -/
def left : TransmitterPlace δ → List ℕ
  | .head => []
  | .taken _ _ => []
  | .sending _ _ rest => rest
  | .failed _ _ fd rest => fd :: rest

/-- The payload that is being sent and that a client of a socket has yet to be written. -/
def inHand (socket fd : ℕ) : TransmitterPlace δ → List δ
  | .head => []
  | .taken destination data => if destination = socket then [data] else []
  | .sending _ data rest => if fd ∈ rest then [data] else []
  | .failed _ data other rest => if fd ∈ other :: rest then [data] else []

/-- A copy was taken of the clients of one socket. -/
def CopyOf (socket fd : ℕ) : TransmitterPlace δ → Prop
  | .head => True
  | .taken _ _ => True
  | .sending destination _ rest => fd ∈ rest → destination = socket
  | .failed destination _ other rest => fd ∈ other :: rest → destination = socket

end TransmitterPlace

namespace Transmitter

/-! ## Order of the queue -/

/-- What was taken from the queue and what is in it, in the order of the calls. -/
structure Queued (sockets : List IpcSocket) (t : Transmitter δ) : Prop where
  uris : t.sockets.map IpcSocket.socketUri = sockets.map IpcSocket.socketUri
  order : t.dequeued ++ t.listOfDataToSend = t.calls.filterMap (queued sockets)

/-- Every step keeps that. -/
theorem queued_step {sockets : List IpcSocket} {t t' : Transmitter δ}
    (hqueued : t.Queued sockets) (hstep : Step t t') : t'.Queued sockets := by
  obtain ⟨huris, horder⟩ := hqueued
  have hremove (index fd : ℕ) :
      (t.sockets.modify index (IpcSocket.removeClientDescriptor fd)).map IpcSocket.socketUri =
        sockets.map IpcSocket.socketUri := by
    rw [Sockets.map_modify_of_eq (IpcSocket.socketUri_removeClientDescriptor fd), huris]
  cases hstep with
  | sendData socketUri data =>
      have hresolve := Sockets.resolve_congr huris socketUri
      dsimp only [sendData]
      split
      · rename_i hnone
        refine ⟨huris, ?_⟩
        rw [hresolve] at hnone
        simp [horder, queued, hnone]
      · rename_i socket hsome
        refine ⟨huris, ?_⟩
        rw [hresolve] at hsome
        simp [← List.append_assoc, horder, queued, hsome]
  | loop label hloop =>
      cases hloop with
      | getHead socket data rest _ hqueue =>
          refine ⟨huris, ?_⟩
          rw [← horder, hqueue]
          simp
      | remove socket data fd rest _ => exact ⟨hremove socket fd, horder⟩
      | _ => exact ⟨huris, horder⟩
  | add index fd =>
      refine ⟨?_, horder⟩
      show (t.sockets.modify index _).map _ = _
      rw [Sockets.map_modify_of_eq (IpcSocket.socketUri_addClientDecriptor fd), huris]
  | remove index fd => exact ⟨hremove index fd, horder⟩

/-! ## What a client is written -/

/-- What a client of a socket was written, and is about to be, is what was taken from the
queue for that socket. -/
structure Served (socket fd : ℕ) (t : Transmitter δ) : Prop where
  copyOf : t.place.CopyOf socket fd
  nodup : t.place.left.Nodup
  written : t.written fd ++ t.place.inHand socket fd = t.dequeuedFor socket

/-- **Every step of the thread** while the client stays with its socket. -/
theorem served_loopStep {socket fd : ℕ} {label : Option (ℕ × δ)} {t t' : Transmitter δ}
    (hserved : t.Served socket fd) (hstays : t.Stays socket fd) (hstays' : t'.Stays socket fd)
    (hloop : LoopStep label t t') : t'.Served socket fd := by
  obtain ⟨hcopy, hnodup, hwritten⟩ := hserved
  cases hloop with
  | getHead destination data rest hplace hqueue =>
      refine ⟨trivial, List.nodup_nil, ?_⟩
      rw [hplace] at hwritten
      simp only [TransmitterPlace.inHand, List.append_nil] at hwritten
      simp only [TransmitterPlace.inHand, dequeuedFor, List.filter_append, List.map_append]
      rw [hwritten, dequeuedFor]
      by_cases h : destination = socket <;> simp [h]
  | copy destination data hplace =>
      have hmem : fd ∈ clients t.sockets destination ↔ destination = socket := by
        constructor
        · intro hfd
          by_contra hne
          exact hstays.2 destination hne hfd
        · rintro rfl
          exact hstays.1
      refine ⟨hmem.1, Sockets.nodup_clients _ _, ?_⟩
      rw [hplace] at hwritten
      show t.written fd ++ _ = t.dequeuedFor socket
      rw [← hwritten]
      simp [TransmitterPlace.inHand, hmem]
  | write destination data other rest hplace =>
      rw [hplace] at hcopy hnodup hwritten
      obtain ⟨hother, hrest⟩ := List.nodup_cons.1 hnodup
      refine ⟨fun h => hcopy (List.mem_cons_of_mem _ h), hrest, ?_⟩
      show Function.update t.written other _ fd ++ _ = t.dequeuedFor socket
      rw [← hwritten]
      by_cases hfd : fd = other
      · subst hfd
        simp [TransmitterPlace.inHand, hother]
      · simp [TransmitterPlace.inHand, hfd]
  | fail destination data other rest hplace =>
      rw [hplace] at hcopy hnodup hwritten
      exact ⟨hcopy, hnodup, hwritten⟩
  | remove destination data other rest hplace =>
      rw [hplace] at hcopy hnodup hwritten
      -- removed, the client would not stay
      have hfd : fd ≠ other := by
        rintro rfl
        have hdestination : destination = socket := hcopy (List.mem_cons_self ..)
        exact ((Sockets.mem_clients_remove _ _ _ _ _).1 hstays'.1).2 ⟨hdestination, rfl⟩
      refine ⟨fun h => hcopy (List.mem_cons_of_mem _ h), (List.nodup_cons.1 hnodup).2, ?_⟩
      show t.written fd ++ _ = t.dequeuedFor socket
      rw [← hwritten]
      simp [TransmitterPlace.inHand, hfd]
  | done destination data hplace =>
      rw [hplace] at hwritten
      refine ⟨trivial, List.nodup_nil, ?_⟩
      show t.written fd ++ [] = t.dequeuedFor socket
      rw [← hwritten]
      simp [TransmitterPlace.inHand]

/-- **Every step** while the client stays with its socket. -/
theorem served_step {socket fd : ℕ} {t t' : Transmitter δ} (hserved : t.Served socket fd)
    (hstays : t.Stays socket fd) (hstays' : t'.Stays socket fd) (hstep : Step t t') :
    t'.Served socket fd := by
  cases hstep with
  | sendData socketUri data =>
      dsimp only [sendData]
      split
      · exact ⟨hserved.copyOf, hserved.nodup, hserved.written⟩
      · exact ⟨hserved.copyOf, hserved.nodup, hserved.written⟩
  | loop label hloop => exact served_loopStep hserved hstays hstays' hloop
  | add index other => exact ⟨hserved.copyOf, hserved.nodup, hserved.written⟩
  | remove index other => exact ⟨hserved.copyOf, hserved.nodup, hserved.written⟩

/-- While the client stays, it is served like the first. -/
theorem served_run {socket fd : ℕ} {t t' : Transmitter δ} (hserved : t.Served socket fd)
    (hrun : Relation.ReflTransGen (Transition.restrict Step (Stays socket fd)) t t')
    (hstays : t'.Stays socket fd) : t'.Served socket fd := by
  induction hrun with
  | refl => exact hserved
  | tail _ hlast ih => exact served_step (ih hlast.1) hlast.1 hstays hlast.2

/-- **The order of a broadcast.**  The payloads that were taken from the queue, and then
those that are in it, are those of the calls of `sendData` whose URI resolves to a socket,
in the order of the calls.  In a run in which a client stays with one socket, it has been
written exactly the payloads that were taken for that socket, in the same order, less the
one in hand where its turn has not come. -/
theorem broadcast_order (sockets : List IpcSocket) (socket fd : ℕ) {t : Transmitter δ}
    (hrun : Relation.ReflTransGen (Transition.restrict Step (Stays socket fd))
      (new sockets) t) (hstays : t.Stays socket fd) :
    t.dequeued ++ t.listOfDataToSend = t.calls.filterMap (queued sockets) ∧
      t.written fd ++ t.place.inHand socket fd = t.dequeuedFor socket ∧
      (t.place = .head → t.written fd = t.dequeuedFor socket) := by
  have hqueued : t.Queued sockets :=
    Transition.invariant_of_restricted_run (I := Queued sockets)
      (fun h _ hstep => queued_step h hstep) ⟨rfl, rfl⟩ hrun
  have hnew : (new sockets : Transmitter δ).Served socket fd := ⟨trivial, List.nodup_nil, rfl⟩
  have hserved := served_run hnew hrun hstays
  refine ⟨hqueued.order, hserved.written, fun hhead => ?_⟩
  rw [← hserved.written, hhead]
  simp [TransmitterPlace.inHand]

/-- Two sockets with a client each. -/
def twoSockets : List IpcSocket :=
  [{ socketUri := "unix:/a", socketName := "a", clientsDescriptor := [3] },
    { socketUri := "unix:/b", socketName := "b", clientsDescriptor := [4] }]

/-- One of them is sent a payload, in a run in which its client stays. -/
theorem payload_written :
    ∃ t : Transmitter ℕ,
      Relation.ReflTransGen (Transition.restrict Step (Stays 0 3)) (new twoSockets) t ∧
        t.written 3 = [1] ∧ t.written 4 = [] ∧ t.written 3 = t.dequeuedFor 0 := by
  have hstays : 3 ∈ clients twoSockets 0 ∧ ∀ other ≠ 0, 3 ∉ clients twoSockets other := by
    refine ⟨by decide, ?_⟩
    rintro (_ | _ | other) hother
    · exact absurd rfl hother
    · decide
    · simp [clients, twoSockets]
  have hnew : Relation.ReflTransGen (Transition.restrict Step (Stays 0 3))
      (new twoSockets : Transmitter ℕ) (new twoSockets) := .refl
  have hsend := hnew.tail ⟨hstays, Step.sendData "unix:/a" 1⟩
  have hhead := hsend.tail ⟨hstays, Step.loop _ (LoopStep.getHead 0 1 [] rfl rfl)⟩
  have hcopy := hhead.tail ⟨hstays, Step.loop _ (LoopStep.copy 0 1 rfl)⟩
  have hwrite := hcopy.tail ⟨hstays, Step.loop _ (LoopStep.write 0 1 3 [] rfl)⟩
  have hdone := hwrite.tail ⟨hstays, Step.loop _ (LoopStep.done 0 1 rfl)⟩
  exact ⟨_, hdone, rfl, rfl, (broadcast_order twoSockets 0 3 hdone hstays).2.2 rfl⟩

end Transmitter

end NewCPP.Ipc
