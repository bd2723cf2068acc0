import NewCPP.Ipc.Transmitter

/-!
# Writes that are cut short

`IpcTransmitter::innerSendToClients` of Unix, byte by byte.  `write` may accept a part of
what it is given; the loop looks only for errors.

* `whole_payloads_iff` — every client gets whole payloads or is dropped exactly if no
  `write` is cut short
* `innerSendToClients_refines` — without such writes this is the transmitter of
  `Transmitter`, whose writes are atomic

## Design notes

**The kernel.**  Each call of `innerSendToClients` comes with what its calls of `write`
return: the `k`-th result is for the `k`-th client of the copy.

**Others** add and remove clients between two calls of `innerSendToClients`.

**Chunks.**  What a client has received is a list of chunks: how many bytes of which payload.
The stream of the client is what they are put together, and a chunk that is shorter than its
payload followed by another one is a message that the client cannot take apart.

**Independence.**  `innerSendToClients_sameFor` says that of all results a client's own is the
only one that counts for it, so that the condition on the results can be read client by client.
-/

namespace NewCPP.Ipc

open Library
open Sockets (clients)

/-- What `write` returns for so many bytes. -/
inductive WriteResult (size : ℕ) where
  | accepted (count : ℕ) (bounded : count ≤ size)
  | error

/-- Not everything was accepted, and there was no error. -/
def WriteResult.Short {size : ℕ} : WriteResult size → Prop
  | .accepted count _ => count < size
  | .error => False

/-- What a client was sent by one `write`. -/
structure Chunk where
  payload : List UInt8
  count : ℕ

namespace Chunk

/-- What was written of the payload. -/
def bytes (chunk : Chunk) : List UInt8 :=
  chunk.payload.take chunk.count

/-- Something of the payload was left out. -/
def Truncated (chunk : Chunk) : Prop :=
  chunk.count < chunk.payload.length

end Chunk

/-- The sockets and what their clients were sent. -/
structure Delivery where
  sockets : List IpcSocket
  received : ℕ → List Chunk := fun _ => []

namespace Delivery

/-- The bytes a client was sent. -/
def stream (delivery : Delivery) (fd : ℕ) : List UInt8 :=
  (delivery.received fd).flatMap Chunk.bytes

/-- The body of the loop. -/
def sendToClient (socket : ℕ) (data : List UInt8) (clientDescriptor : ℕ)
    (send : WriteResult data.length) (delivery : Delivery) : Delivery :=
  match send with
  | .error =>
      { delivery with
        sockets := delivery.sockets.modify socket
          (IpcSocket.removeClientDescriptor clientDescriptor) }
  | .accepted count _ =>
      { delivery with
        received := Function.update delivery.received clientDescriptor
          (delivery.received clientDescriptor ++ [⟨data, count⟩]) }

/-- The same payload to one client after the other. -/
def sendLoop (socket : ℕ) (data : List UInt8) :
    List ℕ → (ℕ → WriteResult data.length) → Delivery → Delivery
  | [], _, delivery => delivery
  | clientDescriptor :: clientsDescriptor, results, delivery =>
      sendLoop socket data clientsDescriptor (fun k => results (k + 1))
        (sendToClient socket data clientDescriptor (results 0) delivery)

/-- A payload to all clients of a socket, in the order of its list. -/
def innerSendToClients (socket : ℕ) (data : List UInt8)
    (results : ℕ → WriteResult data.length) (delivery : Delivery) : Delivery :=
  sendLoop socket data (clients delivery.sockets socket) results delivery

/-! ## One payload -/

variable {socket : ℕ} {data : List UInt8}

/-- A client has been sent the same, and the socket lists it or not, in both. -/
structure SameFor (socket fd : ℕ) (delivery delivery' : Delivery) : Prop where
  received : delivery'.received fd = delivery.received fd
  listed : fd ∈ clients delivery'.sockets socket ↔ fd ∈ clients delivery.sockets socket

theorem SameFor.refl (socket fd : ℕ) (delivery : Delivery) :
    SameFor socket fd delivery delivery :=
  ⟨rfl, Iff.rfl⟩

theorem SameFor.trans {fd : ℕ} {d d' d'' : Delivery} (h : SameFor socket fd d d')
    (h' : SameFor socket fd d' d'') : SameFor socket fd d d'' :=
  ⟨h'.received.trans h.received, h'.listed.trans h.listed⟩

/-- The same result does the same to both. -/
theorem SameFor.sendToClient {fd : ℕ} {d d' : Delivery} (h : SameFor socket fd d d')
    (send : WriteResult data.length) :
    SameFor socket fd (sendToClient socket data fd send d)
      (sendToClient socket data fd send d') := by
  cases send with
  | accepted count bounded =>
      refine ⟨?_, h.listed⟩
      rw [Delivery.sendToClient, Delivery.sendToClient]
      dsimp only
      rw [Function.update_self, Function.update_self, h.received]
  | error =>
      refine ⟨h.received, ?_⟩
      rw [Delivery.sendToClient, Delivery.sendToClient]
      dsimp only
      rw [Sockets.mem_clients_remove, Sockets.mem_clients_remove, h.listed]

/-- A client that is not written to is left alone. -/
theorem sameFor_sendToClient {fd other : ℕ} (h : fd ≠ other) (send : WriteResult data.length)
    (delivery : Delivery) :
    SameFor socket fd delivery (sendToClient socket data other send delivery) := by
  cases send with
  | accepted count bounded => exact ⟨Function.update_of_ne h _ _, Iff.rfl⟩
  | error =>
      refine ⟨rfl, ?_⟩
      rw [sendToClient]
      dsimp only
      rw [Sockets.mem_clients_remove]
      exact and_iff_left fun heq => h heq.2

/-- Clients that are not served notice nothing. -/
theorem sameFor_sendLoop {fd : ℕ} (fds : List ℕ) :
    ∀ {results : ℕ → WriteResult data.length} {delivery : Delivery}, fd ∉ fds →
      SameFor socket fd delivery (sendLoop socket data fds results delivery) := by
  induction fds with
  | nil => exact fun _ => SameFor.refl _ _ _
  | cons other fds ih =>
      intro results delivery hfd
      have hne : fd ≠ other := fun heq => hfd (heq ▸ List.mem_cons_self)
      exact (sameFor_sendToClient hne (results 0) delivery).trans
        (ih fun hmem => hfd (List.mem_cons_of_mem _ hmem))

/-- **Every client is written to once**, with the result of its turn. -/
theorem sendLoop_sameFor {fd : ℕ} (fds : List ℕ) :
    ∀ (results : ℕ → WriteResult data.length) (delivery : Delivery) {k : ℕ}, fds.Nodup →
      fds[k]? = some fd →
      SameFor socket fd (sendToClient socket data fd (results k) delivery)
        (sendLoop socket data fds results delivery) := by
  induction fds with
  | nil => exact fun _ _ _ _ h => by cases h
  | cons other fds ih =>
      intro results delivery k hnodup hk
      obtain ⟨hother, hfds⟩ := List.nodup_cons.mp hnodup
      cases k with
      | zero =>
          obtain rfl : other = fd := by simpa using hk
          exact sameFor_sendLoop fds hother
      | succ k =>
          have hne : fd ≠ other := fun heq => hother (heq ▸ List.mem_of_getElem? hk)
          have hbefore : SameFor socket fd delivery
              (sendToClient socket data other (results 0) delivery) :=
            sameFor_sendToClient hne (results 0) delivery
          exact (hbefore.sendToClient (results (k + 1))).trans
            (ih (fun k => results (k + 1)) _ hfds hk)

/-- Of all results, a client's own is the only one that counts for it. -/
theorem innerSendToClients_sameFor (results : ℕ → WriteResult data.length)
    (delivery : Delivery) {fd k : ℕ} (hk : (clients delivery.sockets socket)[k]? = some fd) :
    SameFor socket fd (sendToClient socket data fd (results k) delivery)
      (delivery.innerSendToClients socket data results) :=
  sendLoop_sameFor _ results delivery (Sockets.nodup_clients _ _) hk

/-- Every client of the copy has been sent the whole payload or is not listed any more. -/
def WholeOrDropped (socket : ℕ) (data : List UInt8) (results : ℕ → WriteResult data.length)
    (delivery : Delivery) : Prop :=
  ∀ fd ∈ clients delivery.sockets socket,
    (delivery.innerSendToClients socket data results).stream fd = delivery.stream fd ++ data ∨
      fd ∉ clients (delivery.innerSendToClients socket data results).sockets socket

/-- No `write` of the call is cut short. -/
def NoneShort (socket : ℕ) (data : List UInt8) (results : ℕ → WriteResult data.length)
    (delivery : Delivery) : Prop :=
  ∀ k < (clients delivery.sockets socket).length, ¬(results k).Short

/-- What was accepted is at the end of the stream. -/
theorem stream_accepted {fd : ℕ} {count : ℕ} {bounded : count ≤ data.length}
    (delivery : Delivery) :
    (sendToClient socket data fd (.accepted count bounded) delivery).stream fd =
      delivery.stream fd ++ data.take count := by
  rw [stream, sendToClient]
  dsimp only
  rw [Function.update_self, List.flatMap_append, List.flatMap_singleton]
  rfl

/-- **One payload** is sent whole, or the client dropped, exactly if no `write` is cut
short. -/
theorem wholeOrDropped_iff (socket : ℕ) (data : List UInt8)
    (results : ℕ → WriteResult data.length) (delivery : Delivery) :
    delivery.WholeOrDropped socket data results ↔ delivery.NoneShort socket data results := by
  constructor
  · intro h k hk hshort
    have hsame := innerSendToClients_sameFor results delivery (List.getElem?_eq_getElem hk)
    cases hresult : results k with
    | error =>
        rw [hresult] at hshort
        exact hshort
    | accepted count bounded =>
        rw [hresult] at hshort hsame
        rcases h _ (List.getElem_mem hk) with hwhole | hdropped
        · rw [stream, hsame.received, ← stream, stream_accepted] at hwhole
          have hlength := congrArg List.length (List.append_cancel_left hwhole)
          rw [List.length_take, Nat.min_eq_left bounded] at hlength
          exact absurd hlength (Nat.ne_of_lt hshort)
        · exact hdropped (hsame.listed.mpr (List.getElem_mem hk))
  · intro h fd hmem
    obtain ⟨k, hk⟩ := List.mem_iff_getElem?.mp hmem
    have hlt : k < (clients delivery.sockets socket).length :=
      (List.getElem?_eq_some_iff.mp hk).1
    have hsame := innerSendToClients_sameFor results delivery hk
    have hshort := h k hlt
    cases hresult : results k with
    | error =>
        rw [hresult] at hsame
        refine Or.inr fun hlisted => ?_
        have hlisted' := hsame.listed.mp hlisted
        rw [sendToClient] at hlisted'
        exact ((Sockets.mem_clients_remove _ _ _ _ _).mp hlisted').2 ⟨rfl, rfl⟩
    | accepted count bounded =>
        rw [hresult] at hshort hsame
        have hall : data.length ≤ count := Nat.le_of_not_lt hshort
        left
        rw [stream, hsame.received, ← stream, stream_accepted,
          List.take_of_length_le hall]

/-! ## Payload after payload -/

/-- What happens: a round of `sendToClients`, or others change the list of clients. -/
inductive Move where
  | pack (socket : ℕ) (data : List UInt8) (results : ℕ → WriteResult data.length)
  | add (socket fd : ℕ)
  | remove (socket fd : ℕ)

/-- What one of these moves does. -/
def move (delivery : Delivery) : Move → Delivery
  | .pack socket data results => delivery.innerSendToClients socket data results
  | .add socket fd =>
      { delivery with
        sockets := delivery.sockets.modify socket (IpcSocket.addClientDecriptor fd) }
  | .remove socket fd =>
      { delivery with
        sockets := delivery.sockets.modify socket (IpcSocket.removeClientDescriptor fd) }

/-- Moves from sockets whose clients have not been sent anything. -/
def moves (sockets : List IpcSocket) (made : List Move) : Delivery :=
  made.foldl move { sockets := sockets }

/-- A truncated payload, followed by the next one. -/
def Garbled (received : List Chunk) : Prop :=
  ∃ before chunk next rest, received = before ++ chunk :: next :: rest ∧ chunk.Truncated

/-- Nothing truncated has been sent. -/
def Clean (delivery : Delivery) : Prop :=
  ∀ fd, ∀ chunk ∈ delivery.received fd, ¬chunk.Truncated

/-- A result that is not short leaves no message torn. -/
theorem Clean.sendToClient {delivery : Delivery} (h : delivery.Clean) (fd : ℕ)
    {send : WriteResult data.length} (hsend : ¬send.Short) :
    (sendToClient socket data fd send delivery).Clean := by
  cases send with
  | error => exact h
  | accepted count bounded =>
      intro other chunk hmem
      rw [Delivery.sendToClient] at hmem
      dsimp only at hmem
      by_cases hother : other = fd
      · subst hother
        rw [Function.update_self] at hmem
        rcases List.mem_append.mp hmem with hmem | hmem
        · exact h other chunk hmem
        · rw [List.mem_singleton.mp hmem]
          exact hsend
      · rw [Function.update_of_ne hother] at hmem
        exact h other chunk hmem

/-- Nor do several. -/
theorem Clean.sendLoop (fds : List ℕ) :
    ∀ {results : ℕ → WriteResult data.length} {delivery : Delivery}, delivery.Clean →
      (∀ k < fds.length, ¬(results k).Short) →
      (sendLoop socket data fds results delivery).Clean := by
  induction fds with
  | nil => exact fun h _ => h
  | cons fd fds ih =>
      intro results delivery h hresults
      exact ih (h.sendToClient fd (hresults 0 (Nat.succ_pos _)))
        fun k hk => hresults (k + 1) (Nat.succ_lt_succ hk)

/-- **A client gets whole payloads or is dropped, exactly if no `write` is cut short**: over
any moves, from any sockets. -/
theorem whole_payloads_iff (sockets : List IpcSocket) (made : List Move) :
    ((∀ before socket data results rest, made = before ++ .pack socket data results :: rest →
        (moves sockets before).WholeOrDropped socket data results) ∧
      ∀ fd, ¬Garbled ((moves sockets made).received fd)) ↔
    ∀ before socket data results rest, made = before ++ .pack socket data results :: rest →
      (moves sockets before).NoneShort socket data results := by
  constructor
  · intro h before socket data results rest hmade
    exact (wholeOrDropped_iff _ _ _ _).mp (h.1 before socket data results rest hmade)
  · intro h
    refine ⟨fun before socket data results rest hmade =>
      (wholeOrDropped_iff _ _ _ _).mpr (h before socket data results rest hmade), ?_⟩
    have hclean : (moves sockets made).Clean := by
      induction made using List.reverseRecOn with
      | nil => exact fun fd chunk hmem => absurd hmem List.not_mem_nil
      | append_singleton made last ih =>
          have hbefore := ih fun before socket data results rest hmade =>
            h before socket data results (rest ++ [last]) (by rw [hmade]; simp)
          rw [moves, List.foldl_append]
          cases last with
          | add socket fd => exact hbefore
          | remove socket fd => exact hbefore
          | pack socket data results =>
              exact hbefore.sendLoop _ (h made socket data results [] rfl)
    rintro fd ⟨before, chunk, next, rest, hreceived, htruncated⟩
    refine hclean fd chunk ?_ htruncated
    rw [hreceived]
    exact List.mem_append_right _ List.mem_cons_self

/-- A client that was sent one byte of two, and then the next payload. -/
theorem not_whole_payloads :
    ¬∀ (sockets : List IpcSocket) (made : List Move),
      (∀ before socket data results rest, made = before ++ .pack socket data results :: rest →
        (moves sockets before).WholeOrDropped socket data results) ∧
      ∀ fd, ¬Garbled ((moves sockets made).received fd) := by
  intro h
  let sockets : List IpcSocket :=
    [{ socketUri := "unix:/a", socketName := "a", clientsDescriptor := [5] }]
  refine (h sockets [.pack 0 [1, 2] fun _ => .accepted 1 (by decide),
    .pack 0 [3] fun _ => .accepted 1 (by decide)]).2 5 ⟨[], ⟨[1, 2], 1⟩, ⟨[3], 1⟩, [], rfl, ?_⟩
  exact Nat.lt_succ_self 1

/-! ## The transmitter with atomic writes -/

/-- The transmitter has written the payloads whose bytes were sent. -/
structure Refines (delivery : Delivery) (t : Transmitter (List UInt8)) : Prop where
  sockets : t.sockets = delivery.sockets
  written : ∀ fd, delivery.stream fd = (t.written fd).flatten

/-- A step of the thread of the transmitter. -/
def ThreadStep (t t' : Transmitter (List UInt8)) : Prop :=
  ∃ label, Transmitter.LoopStep label t t'

/-- **One client.** -/
theorem Refines.sendToClient {delivery : Delivery} {t : Transmitter (List UInt8)}
    (h : delivery.Refines t) {fd : ℕ} {rest : List ℕ}
    (hplace : t.place = .sending socket data (fd :: rest)) {send : WriteResult data.length}
    (hsend : ¬send.Short) :
    ∃ t', Relation.ReflTransGen ThreadStep t t' ∧ t'.place = .sending socket data rest ∧
      (sendToClient socket data fd send delivery).Refines t' := by
  cases send with
  | error =>
      refine ⟨_, .tail (.single ⟨_, .fail socket data fd rest hplace⟩)
        ⟨_, .remove socket data fd rest rfl⟩, rfl, ⟨?_, h.written⟩⟩
      rw [Delivery.sendToClient]
      dsimp only
      rw [h.sockets]
  | accepted count bounded =>
      refine ⟨_, .single ⟨_, .write socket data fd rest hplace⟩, rfl, ⟨h.sockets, ?_⟩⟩
      have hall : data.length ≤ count := Nat.le_of_not_lt hsend
      intro other
      dsimp only
      by_cases hother : other = fd
      · subst hother
        rw [stream_accepted, h.written, List.take_of_length_le hall, Function.update_self,
          List.flatten_append, List.flatten_singleton]
      · rw [Function.update_of_ne hother, ← h.written, stream,
          (sameFor_sendToClient hother _ delivery).received, ← stream]

/-- **The loop, without writes that are cut short, is that of the transmitter.** -/
theorem sendLoop_refines (fds : List ℕ) :
    ∀ {results : ℕ → WriteResult data.length} {delivery : Delivery}
      {t : Transmitter (List UInt8)}, delivery.Refines t →
      t.place = .sending socket data fds → (∀ k < fds.length, ¬(results k).Short) →
      ∃ t', Relation.ReflTransGen ThreadStep t t' ∧ t'.place = .sending socket data [] ∧
        (sendLoop socket data fds results delivery).Refines t' := by
  induction fds with
  | nil => exact fun h hplace _ => ⟨_, .refl, hplace, h⟩
  | cons fd fds ih =>
      intro results delivery t h hplace hresults
      obtain ⟨t', hrun, hplace', hrefines⟩ :=
        h.sendToClient hplace (hresults 0 (Nat.succ_pos _))
      obtain ⟨t'', hrun', hdone⟩ := ih hrefines hplace'
        fun k hk => hresults (k + 1) (Nat.succ_lt_succ hk)
      exact ⟨t'', hrun.trans hrun', hdone⟩

/-- The whole call, from the payload that was taken to the next head of the queue. -/
theorem innerSendToClients_refines {results : ℕ → WriteResult data.length}
    {delivery : Delivery} {t : Transmitter (List UInt8)} (h : delivery.Refines t)
    (hplace : t.place = .taken socket data) (hresults : delivery.NoneShort socket data results) :
    ∃ t', Relation.ReflTransGen ThreadStep t t' ∧ t'.place = .head ∧
      (delivery.innerSendToClients socket data results).Refines t' := by
  have hcopied : delivery.Refines
      { t with place := .sending socket data (clients t.sockets socket) } :=
    ⟨h.sockets, h.written⟩
  rw [NoneShort, ← h.sockets] at hresults
  obtain ⟨t', hrun, hplace', hrefines⟩ := sendLoop_refines _ hcopied rfl hresults
  have hcopy : ThreadStep t { t with place := .sending socket data (clients t.sockets socket) } :=
    ⟨none, .copy socket data hplace⟩
  refine ⟨{ t' with place := .head }, (hrun.head hcopy).tail ⟨none, .done socket data hplace'⟩,
    rfl, ?_⟩
  rw [innerSendToClients, ← h.sockets]
  exact ⟨hrefines.sockets, hrefines.written⟩

end Delivery

end NewCPP.Ipc
