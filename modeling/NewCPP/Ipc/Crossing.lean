import NewCPP.Ipc.Registration

/-!
# Traffic that crosses

The transmitter writes to a copy of a socket's clients, and the receiver reads the descriptors
of the events that it has fetched.  Both hold descriptors while the connector may close them, and
while `accept` may return them again.

* `traffic_separate` — where `accept` returns no descriptor that the transmitter holds for
  another socket or that the receiver is about to read under another name, every payload goes to
  a client of the socket for which it was queued, and all that is read is dispatched under the
  name of the socket that accepted it.
* `crosses` — and where it does return one, the transmitter alone, or the receiver alone, brings
  a payload or data across.

## Design notes

**Writing.**  A `write` to a descriptor that is closed fails; one to a descriptor that is open
reaches the connection that has it then.

**Reading.**  The receiver reads the descriptors of the events that it has fetched before it
purges any socket.  Whether a `read` finds data is left open.
-/

namespace NewCPP.Ipc

open Library
open Sockets (clients collectDescriptors)

universe u

variable {δ : Type u}

/-- A payload that was written: for which socket it was queued, and a client of which got it. -/
structure Delivered (δ : Type u) where
  destination : ℕ
  client : ℕ
  data : δ

/-- A call of `dispatchData`: which socket had accepted the connection, and under which name
its data were dispatched. -/
structure Received where
  socket : ℕ
  socketName : String

/-- The connections, with what is sent and received over them. -/
structure Traffic (δ : Type u) where
  connections : Connections δ
  /-- The fetched descriptors with data that are left to read. -/
  reading : List ℕ := []
  delivered : List (Delivered δ) := []
  received : List Received := []

/-- The transmitter is about to write to a descriptor, for a client of the socket. -/
def TransmitterPlace.Sends (socket fd : ℕ) : TransmitterPlace δ → Prop
  | .sending destination _ rest => destination = socket ∧ fd ∈ rest
  | .failed destination _ _ rest => destination = socket ∧ fd ∈ rest
  | _ => False

namespace Connections

/-- Who gets what the transmitter writes. -/
def deliver (c : Connections δ) : Option (ℕ × δ) → List (Delivered δ)
  | none => []
  | some (fd, data) =>
      match c.transmitter.place, c.opened fd with
      | .sending destination _ _, some client => [⟨destination, client, data⟩]
      | _, _ => []

/-- The name under which a descriptor is managed. -/
def socketName (c : Connections δ) (fd : ℕ) : Option String :=
  (c.managedDescriptors.find? fun pair => pair.1 = fd).map Prod.snd

/-- What is dispatched of a descriptor, if `read` finds data. -/
def receive (c : Connections δ) (fd : ℕ) (readBytes : Bool) : List Received :=
  match readBytes, c.opened fd, c.socketName fd with
  | true, some socket, some name => [⟨socket, name⟩]
  | _, _, _ => []

end Connections

namespace Traffic

/-- A step of the transmitter's thread. -/
inductive TransmitStep : Traffic δ → Traffic δ → Prop
  | mk {s : Traffic δ} (label : Option (ℕ × δ)) (transmitter : Transmitter δ)
      (steps : Transmitter.LoopStep label s.connections.transmitter transmitter) :
      TransmitStep s { s with
        connections := { s.connections with transmitter := transmitter }
        delivered := s.delivered ++ s.connections.deliver label }

/-- A read of the receiver's thread. -/
inductive ReadStep : Traffic δ → Traffic δ → Prop
  | mk {s : Traffic δ} (fd : ℕ) (rest : List ℕ) (readBytes : Bool)
      (reading : s.reading = fd :: rest) :
      ReadStep s { s with
        reading := rest
        received := s.received ++ s.connections.receive fd readBytes }

/-- **One step** of the transmitter, of the receiver, or of anybody else. -/
inductive Step : Traffic δ → Traffic δ → Prop
  | transmit {s s' : Traffic δ} (steps : TransmitStep s s') : Step s s'
  | waitEPoll {s : Traffic δ} (dropDescriptors reading : List ℕ)
      (validated : s.connections.receiver = .validated)
      (dropped : ∀ fd ∈ dropDescriptors,
        fd ∈ s.connections.registered ∧ s.connections.hungUp fd = true)
      (readable : ∀ fd ∈ reading, fd ∈ s.connections.registered)
      (at_most : dropDescriptors.length ≤ Receiver.epoolEvents)
      (at_most' : reading.length ≤ Receiver.epoolEvents) :
      Step s { s with
        connections := { s.connections with receiver := .purging dropDescriptors }
        reading := reading }
  | read {s s' : Traffic δ} (steps : ReadStep s s') : Step s s'
  /-- The rest of the receiver's loop. -/
  | purge {s : Traffic δ} (removal : Option (ℕ × ℕ)) (connections : Connections δ)
      (steps : Connections.Step removal s.connections connections)
      (receiver : connections.receiver ≠ s.connections.receiver)
      (validated : s.connections.receiver ≠ .validated) (reading : s.reading = []) :
      Step s { s with connections := connections }
  /-- Clients, callers of `sendData` and the connector. -/
  | others {s : Traffic δ} (removal : Option (ℕ × ℕ)) (connections : Connections δ)
      (steps : Connections.Step removal s.connections connections)
      (receiver : connections.receiver = s.connections.receiver)
      (place : connections.transmitter.place = s.connections.transmitter.place) :
      Step s { s with connections := connections }

/-- Before the connector is started. -/
def new (created : List (String × String)) : Traffic δ :=
  { connections := .new created }

/-- Each descriptor that is opened may be: the transmitter does not hold it for another socket,
and the receiver is not about to read it under another name. -/
def MayOpen (s s' : Traffic δ) : Prop :=
  ∀ fd client, s.connections.opened fd = none → s'.connections.opened fd = some client →
    (∀ socket, s.connections.transmitter.place.Sends socket fd → client = socket) ∧
      (fd ∈ s.reading → ∀ name, s.connections.socketName fd = some name →
        s.connections.names[client]? = some name)

/-- A step that opens only descriptors that may be opened. -/
def SeparateStep (s s' : Traffic δ) : Prop :=
  Step s s' ∧ s.MayOpen s'

/-- By steps of the transmitter alone a payload goes to a client of another socket. -/
def Misdelivers (s : Traffic δ) : Prop :=
  ∃ s' items, Relation.ReflTransGen TransmitStep s s' ∧ s'.delivered = s.delivered ++ items ∧
    ∃ item ∈ items, item.client ≠ item.destination

/-- By reads of the receiver alone data are dispatched under the name of another socket. -/
def Misattributes (s : Traffic δ) : Prop :=
  ∃ s' items, Relation.ReflTransGen ReadStep s s' ∧ s'.received = s.received ++ items ∧
    ∃ item ∈ items, s.connections.names[item.socket]? ≠ some item.socketName

/-! ## What the steps do -/

section

variable {c c' : Connections δ} {removal : Option (ℕ × ℕ)}

/-- A step of the receiver opens and closes nothing. -/
theorem of_receiver_ne (hstep : Connections.Step removal c c') (h : c'.receiver ≠ c.receiver) :
    c'.opened = c.opened ∧ c'.transmitter.place = c.transmitter.place := by
  cases hstep with
  | validate _ => exact ⟨rfl, rfl⟩
  | wait _ _ _ _ => exact ⟨rfl, rfl⟩
  | findParent clientDescr rest _ =>
      rw [Connections.findParent]
      split
      · exact ⟨rfl, rfl⟩
      · exact ⟨rfl, rfl⟩
  | remove _ _ _ _ => exact ⟨rfl, rfl⟩
  | purged _ => exact ⟨rfl, rfl⟩
  | stop _ =>
      rw [Connections.closeSocket] at h
      split at h
      · exact absurd rfl h
      · exact absurd rfl h
  | clear socket _ =>
      rw [Connections.clear, Connections.closeSocket] at h
      split at h
      · exact absurd rfl h
      · exact absurd rfl h
  | _ => exact absurd rfl h

/-- Only the receiver's own steps change what it manages. -/
theorem managed_of_receiver_eq (hstep : Connections.Step removal c c')
    (h : c'.receiver = c.receiver) : c'.managedDescriptors = c.managedDescriptors := by
  cases hstep with
  | validate hstart =>
      rw [hstart] at h
      cases h
  | stop _ =>
      rw [Connections.closeSocket]
      split
      · rfl
      · rfl
  | clear socket _ =>
      rw [Connections.clear, Connections.closeSocket]
      split
      · rfl
      · rfl
  | findParent clientDescr rest _ =>
      rw [Connections.findParent]
      split
      · rfl
      · rfl
  | _ => rfl

/-- What is open was open before, with the same socket, or was not open. -/
theorem opened_step (hstep : Connections.Step removal c c') {fd client : ℕ}
    (h : c'.opened fd = some client) : c.opened fd = some client ∨ c.opened fd = none := by
  rcases Connections.registered_step hstep with rfl | ⟨-, ⟨hopened, -⟩ |
    ⟨socket, accepted, -, hfresh, hopened, -⟩ | ⟨closed, hopened, -⟩⟩
  · exact Or.inl h
  · exact Or.inl (hopened ▸ h)
  · rw [hopened] at h
    by_cases heq : fd = accepted
    · subst heq
      exact Or.inr hfresh
    · rw [Function.update_of_ne heq] at h
      exact Or.inl h
  · rw [hopened] at h
    by_cases heq : fd = closed
    · rw [heq, Function.update_self] at h
      cases h
    · rw [Function.update_of_ne heq] at h
      exact Or.inl h

/-- A registered descriptor is managed under the name of the socket that accepted it. -/
def Attributed (c : Connections δ) : Prop :=
  ∀ fd ∈ c.registered, ∀ socket name, c.opened fd = some socket →
    (fd, name) ∈ c.managedDescriptors → c.names[socket]? = some name

/-- The receiver attributes each client as the sockets do. -/
theorem attributed_validateEPoll (h : c.Registered) : Attributed c.validateEPoll := by
  intro fd _ socket name hopened hmanaged
  change c.opened fd = some socket at hopened
  obtain ⟨other, hname, hlisted⟩ := (Sockets.mem_collectDescriptors_pair _ _ _).1 hmanaged
  rcases h.owned.listed other fd hlisted with hother | ⟨hclosed, -⟩
  · rw [hopened] at hother
    cases hother
    exact hname
  · rw [hopened] at hclosed
    cases hclosed

/-- Every step keeps that. -/
theorem Attributed.step (hattributed : Attributed c) (h : c.Registered)
    (hstep : Connections.Step removal c c') : Attributed c' := by
  have hnames := Connections.names_step hstep
  rcases Connections.registered_step hstep with rfl | ⟨hmanaged, hrest⟩
  · exact attributed_validateEPoll h
  · rw [Attributed, hnames, hmanaged]
    intro fd hfd socket name hopened
    have hold := opened_step hstep hopened
    have hregistered : fd ∈ c.registered := by
      rcases hrest with ⟨-, heq⟩ | ⟨_, _, -, -, -, heq⟩ | ⟨closed, -, heq⟩
      · exact heq ▸ hfd
      · exact heq ▸ hfd
      · rw [heq] at hfd
        exact List.mem_of_mem_filter hfd
    refine hattributed fd hregistered socket name (hold.resolve_right fun hnone => ?_)
    have hopen := h.opened fd hregistered
    rw [hnone] at hopen
    cases hopen

theorem mem_of_socketName {fd : ℕ} {name : String} (h : c.socketName fd = some name) :
    (fd, name) ∈ c.managedDescriptors := by
  rw [Connections.socketName, Option.map_eq_some_iff] at h
  obtain ⟨pair, hfind, rfl⟩ := h
  have hpair := List.find?_some hfind
  rw [decide_eq_true_iff] at hpair
  subst hpair
  exact List.mem_of_find?_eq_some hfind

end

/-! ## The invariant -/

/-- Whatever a thread is about to do with a descriptor, it is still the client it was copied
for. -/
structure Separated (s : Traffic δ) : Prop where
  registered : s.connections.Registered
  attributed : Attributed s.connections
  copied : ∀ socket fd client, s.connections.transmitter.place.Sends socket fd →
    s.connections.opened fd = some client → client = socket
  fetched : ∀ fd ∈ s.reading, ∀ socket name, s.connections.opened fd = some socket →
    s.connections.socketName fd = some name → s.connections.names[socket]? = some name
  delivered : ∀ item ∈ s.delivered, item.client = item.destination
  received : ∀ item ∈ s.received, s.connections.names[item.socket]? = some item.socketName

namespace Separated

variable {s : Traffic δ}

theorem new (created : List (String × String)) : (new created : Traffic δ).Separated where
  registered := .new created
  attributed _ hfd := absurd hfd List.not_mem_nil
  copied _ _ _ hsends := hsends.elim
  fetched _ hfd := absurd hfd List.not_mem_nil
  delivered _ hitem := absurd hitem List.not_mem_nil
  received _ hitem := absurd hitem List.not_mem_nil

/-- What the transmitter holds after a step, it has held before or has just copied. -/
theorem sends_loopStep (h : s.Separated) {label : Option (ℕ × δ)} {transmitter : Transmitter δ}
    (hloop : Transmitter.LoopStep label s.connections.transmitter transmitter)
    {socket fd client : ℕ} (hsends : transmitter.place.Sends socket fd)
    (hopened : s.connections.opened fd = some client) : client = socket := by
  cases hloop with
  | getHead destination data rest hplace hqueue => exact hsends.elim
  | copy destination data hplace =>
      obtain ⟨rfl, hlisted⟩ := hsends
      rcases h.registered.owned.listed destination fd hlisted with hsame | ⟨hclosed, -⟩
      · rw [hopened] at hsame
        exact Option.some.inj hsame
      · rw [hopened] at hclosed
        cases hclosed
  | write destination data other rest hplace =>
      refine h.copied socket fd client ?_ hopened
      rw [hplace]
      exact ⟨hsends.1, List.mem_cons_of_mem other hsends.2⟩
  | fail destination data other rest hplace =>
      refine h.copied socket fd client ?_ hopened
      rw [hplace]
      exact ⟨hsends.1, List.mem_cons_of_mem other hsends.2⟩
  | remove destination data other rest hplace =>
      refine h.copied socket fd client ?_ hopened
      rw [hplace]
      exact hsends
  | done destination data hplace => exact hsends.elim

/-- A payload is delivered to a client of the socket for which it was queued. -/
theorem mem_deliver (h : s.Separated) {label : Option (ℕ × δ)} {transmitter : Transmitter δ}
    (hloop : Transmitter.LoopStep label s.connections.transmitter transmitter)
    {item : Delivered δ} (hitem : item ∈ s.connections.deliver label) :
    item.client = item.destination := by
  cases hloop with
  | write destination data fd rest hplace =>
      rw [Connections.deliver, hplace] at hitem
      cases hopened : s.connections.opened fd with
      | none =>
          rw [hopened] at hitem
          cases hitem
      | some client =>
          rw [hopened] at hitem
          rw [List.mem_singleton.1 hitem]
          refine h.copied destination fd client ?_ hopened
          rw [hplace]
          exact ⟨rfl, List.mem_cons_self⟩
  | _ => cases hitem

/-- A step of the transmitter. -/
theorem transmit (h : s.Separated) {label : Option (ℕ × δ)} {transmitter : Transmitter δ}
    (hloop : Transmitter.LoopStep label s.connections.transmitter transmitter) :
    ({ s with
      connections := { s.connections with transmitter := transmitter }
      delivered := s.delivered ++ s.connections.deliver label } : Traffic δ).Separated := by
  have hstep : Connections.Step s.connections.transmitter.place.removal s.connections
      { s.connections with transmitter := transmitter } := .transmit label transmitter hloop
  have hnames := Connections.names_step hstep
  refine ⟨h.registered.step hstep, h.attributed.step h.registered hstep,
    fun socket fd client => h.sends_loopStep hloop, ?_, fun item hitem => ?_, ?_⟩
  · rw [hnames]
    exact h.fetched
  · rcases List.mem_append.1 hitem with hold | hnew
    · exact h.delivered item hold
    · exact h.mem_deliver hloop hnew
  · rw [hnames]
    exact h.received

/-- The receiver goes on to read. -/
theorem waitEPoll (h : s.Separated) {dropDescriptors reading : List ℕ}
    (hreadable : ∀ fd ∈ reading, fd ∈ s.connections.registered) :
    ({ s with
      connections := { s.connections with receiver := .purging dropDescriptors }
      reading := reading } : Traffic δ).Separated where
  registered := ⟨⟨h.registered.owned.listed, h.registered.owned.closing⟩, h.registered.opened,
    h.registered.managed, h.registered.once⟩
  attributed := h.attributed
  copied := h.copied
  fetched fd hfd socket name hopened hname :=
    h.attributed fd (hreadable fd hfd) socket name hopened (mem_of_socketName hname)
  delivered := h.delivered
  received := h.received

/-- One descriptor is read. -/
theorem read (h : s.Separated) {fd : ℕ} {rest : List ℕ} (readBytes : Bool)
    (hreading : s.reading = fd :: rest) :
    ({ s with
      reading := rest
      received := s.received ++ s.connections.receive fd readBytes } : Traffic δ).Separated := by
  have hfetched := h.fetched
  rw [hreading] at hfetched
  refine ⟨h.registered, h.attributed, h.copied,
    fun other hother => hfetched other (List.mem_cons_of_mem fd hother), h.delivered,
    fun item hitem => ?_⟩
  rcases List.mem_append.1 hitem with hold | hnew
  · exact h.received item hold
  · unfold Connections.receive at hnew
    split at hnew
    · rename_i socket name hopened hname
      rw [List.mem_singleton.1 hnew]
      exact hfetched fd List.mem_cons_self socket name hopened hname
    · cases hnew

/-- The other steps of the receiver. -/
theorem purge (h : s.Separated) {removal : Option (ℕ × ℕ)} {connections : Connections δ}
    (hstep : Connections.Step removal s.connections connections)
    (hreceiver : connections.receiver ≠ s.connections.receiver) (hreading : s.reading = []) :
    ({ s with connections := connections } : Traffic δ).Separated := by
  obtain ⟨hopened, hplace⟩ := of_receiver_ne hstep hreceiver
  refine ⟨h.registered.step hstep, h.attributed.step h.registered hstep, ?_, ?_, h.delivered, ?_⟩
  · rw [hopened, hplace]
    exact h.copied
  · intro fd hfd
    rw [hreading] at hfd
    cases hfd
  · rw [Connections.names_step hstep]
    exact h.received

/-- Where a descriptor is opened it may be. -/
theorem others (h : s.Separated) {removal : Option (ℕ × ℕ)} {connections : Connections δ}
    (hstep : Connections.Step removal s.connections connections)
    (hreceiver : connections.receiver = s.connections.receiver)
    (hplace : connections.transmitter.place = s.connections.transmitter.place)
    (hmay : s.MayOpen { s with connections := connections }) :
    ({ s with connections := connections } : Traffic δ).Separated := by
  have hnames := Connections.names_step hstep
  have hmanaged := managed_of_receiver_eq hstep hreceiver
  refine ⟨h.registered.step hstep, h.attributed.step h.registered hstep, ?_, ?_, h.delivered, ?_⟩
  · rw [hplace]
    intro socket fd client hsends hopened
    rcases opened_step hstep hopened with hold | hfresh
    · exact h.copied socket fd client hsends hold
    · exact (hmay fd client hfresh hopened).1 socket hsends
  · intro fd hfd socket name hopened hname
    change connections.names[socket]? = some name
    rw [hnames]
    change (connections.managedDescriptors.find? _).map _ = _ at hname
    rw [hmanaged] at hname
    rcases opened_step hstep hopened with hold | hfresh
    · exact h.fetched fd hfd socket name hold hname
    · exact (hmay fd socket hfresh hopened).2 hfd name hname
  · rw [hnames]
    exact h.received

/-- Every step. -/
theorem step (h : s.Separated) {s' : Traffic δ} (hstep : SeparateStep s s') : s'.Separated := by
  obtain ⟨hstep, hmay⟩ := hstep
  cases hstep with
  | transmit htransmit =>
      obtain ⟨label, transmitter, hloop⟩ := htransmit
      exact h.transmit hloop
  | waitEPoll dropDescriptors reading _ _ hreadable _ _ => exact h.waitEPoll hreadable
  | read hread =>
      obtain ⟨fd, rest, readBytes, hreading⟩ := hread
      exact h.read readBytes hreading
  | purge removal connections hloop hreceiver _ hreading => exact h.purge hloop hreceiver hreading
  | others removal connections hloop hreceiver hplace => exact h.others hloop hreceiver hplace hmay

end Separated

section

variable {s : Traffic δ}

/-- What comes across later comes across. -/
theorem Misdelivers.head {s' : Traffic δ} {items : List (Delivered δ)} (hstep : TransmitStep s s')
    (hdelivered : s'.delivered = s.delivered ++ items) (h : s'.Misdelivers) : s.Misdelivers := by
  obtain ⟨s'', later, hrun, hlater, item, hitem, hne⟩ := h
  refine ⟨s'', items ++ later, .head hstep hrun, ?_, item, List.mem_append_right _ hitem, hne⟩
  rw [hlater, hdelivered, List.append_assoc]

/-- The transmitter writes to the rest of its copy: what it holds is delivered to whoever has
the descriptor by then. -/
theorem misdelivers_of_sending (socket : ℕ) (data : δ) {fd client : ℕ} (rest : List ℕ)
    (hmem : fd ∈ rest) (hplace : s.connections.transmitter.place = .sending socket data rest)
    (hopened : s.connections.opened fd = some client) (hne : client ≠ socket) :
    s.Misdelivers := by
  induction rest generalizing s with
  | nil => cases hmem
  | cons other rest ih =>
      obtain ⟨s₁, hwrite, hplace₁, hopened₁, hdelivered₁⟩ : ∃ s₁, TransmitStep s s₁ ∧
          s₁.connections.transmitter.place = .sending socket data rest ∧
          s₁.connections.opened = s.connections.opened ∧
          s₁.delivered = s.delivered ++ s.connections.deliver (some (other, data)) :=
        ⟨_, .mk _ _ (.write socket data other rest hplace), rfl, rfl, rfl⟩
      by_cases hfd : fd = other
      · subst hfd
        refine ⟨s₁, _, .single hwrite, hdelivered₁, ⟨socket, client, data⟩, ?_, hne⟩
        rw [Connections.deliver, hplace, hopened]
        exact List.mem_singleton_self _
      · have hrest := (List.mem_cons.1 hmem).resolve_left hfd
        rw [← hopened₁] at hopened
        exact (ih hrest hplace₁ hopened).head hwrite hdelivered₁

/-- A client that took the place of the one that was copied. -/
theorem misdelivers_of_sends {socket fd client : ℕ}
    (hsends : s.connections.transmitter.place.Sends socket fd)
    (hopened : s.connections.opened fd = some client) (hne : client ≠ socket) :
    s.Misdelivers := by
  cases hplace : s.connections.transmitter.place with
  | head =>
      rw [hplace] at hsends
      exact hsends.elim
  | taken destination data =>
      rw [hplace] at hsends
      exact hsends.elim
  | sending destination data rest =>
      rw [hplace] at hsends
      obtain ⟨rfl, hmem⟩ := hsends
      exact misdelivers_of_sending destination data rest hmem hplace hopened hne
  | failed destination data other rest =>
      rw [hplace] at hsends
      obtain ⟨rfl, hmem⟩ := hsends
      -- the client of the `write` that failed is removed first
      obtain ⟨s₁, hremove, hplace₁, hopened₁, hdelivered₁⟩ : ∃ s₁, TransmitStep s s₁ ∧
          s₁.connections.transmitter.place = .sending destination data rest ∧
          s₁.connections.opened = s.connections.opened ∧ s₁.delivered = s.delivered ++ [] :=
        ⟨_, .mk _ _ (.remove destination data other rest hplace), rfl, rfl, rfl⟩
      rw [← hopened₁] at hopened
      exact (misdelivers_of_sending destination data rest hmem hplace₁ hopened hne).head hremove
        hdelivered₁

/-- What is read goes out under the name of its descriptor. -/
theorem receive_of_socketName {c : Connections δ} {fd socket : ℕ} {name : String}
    (hopened : c.opened fd = some socket) (hname : c.socketName fd = some name) :
    c.receive fd true = [⟨socket, name⟩] := by
  simp only [Connections.receive, hopened, hname]

/-- The receiver reads what it has fetched, and finds data. -/
theorem misattributes_of_reading {fd client : ℕ} {name : String} (reading : List ℕ)
    (hreading : s.reading = reading) (hmem : fd ∈ reading)
    (hopened : s.connections.opened fd = some client)
    (hname : s.connections.socketName fd = some name)
    (hne : s.connections.names[client]? ≠ some name) : s.Misattributes := by
  induction reading generalizing s with
  | nil => cases hmem
  | cons other rest ih =>
      obtain ⟨s₁, hread, hreading₁, hconnections₁, hreceived₁⟩ : ∃ s₁, ReadStep s s₁ ∧
          s₁.reading = rest ∧ s₁.connections = s.connections ∧
          s₁.received = s.received ++ s.connections.receive other true :=
        ⟨_, .mk other rest true hreading, rfl, rfl, rfl⟩
      by_cases hfd : fd = other
      · subst hfd
        refine ⟨s₁, _, .single hread, hreceived₁, ⟨client, name⟩, ?_, hne⟩
        rw [receive_of_socketName hopened hname]
        exact List.mem_singleton_self _
      · have hrest := (List.mem_cons.1 hmem).resolve_left hfd
        rw [← hconnections₁] at hopened hname hne
        obtain ⟨s', items, hrun, hreceived, item, hitem, hcrossed⟩ :=
          ih hreading₁ hrest hopened hname hne
        refine ⟨s', s.connections.receive other true ++ items, .head hread hrun, ?_, item,
          List.mem_append_right _ hitem, ?_⟩
        · rw [hreceived, hreceived₁, List.append_assoc]
        · rwa [hconnections₁] at hcrossed

/-- What opens a descriptor leaves the copy, the fetched events and the names as they are. -/
theorem of_opens {s' : Traffic δ} (hstep : Step s s') {fd client : ℕ}
    (hfresh : s.connections.opened fd = none) (hopened : s'.connections.opened fd = some client) :
    s'.connections.transmitter.place = s.connections.transmitter.place ∧
      s'.reading = s.reading ∧ s'.connections.socketName fd = s.connections.socketName fd ∧
      s'.connections.names = s.connections.names := by
  have hnot (h : s'.connections.opened = s.connections.opened) : False := by
    rw [h, hfresh] at hopened
    cases hopened
  cases hstep with
  | transmit htransmit =>
      obtain ⟨label, transmitter, hloop⟩ := htransmit
      exact (hnot rfl).elim
  | waitEPoll dropDescriptors reading _ _ _ _ _ => exact (hnot rfl).elim
  | read hread =>
      obtain ⟨other, rest, readBytes, hreading⟩ := hread
      exact (hnot rfl).elim
  | purge removal connections hloop hreceiver _ _ =>
      exact (hnot (of_receiver_ne hloop hreceiver).1).elim
  | others removal connections hloop hreceiver hplace =>
      have hmanaged := managed_of_receiver_eq hloop hreceiver
      refine ⟨hplace, rfl, ?_, Connections.names_step hloop⟩
      rw [Connections.socketName, hmanaged]
      rfl

end

/-- **A descriptor that comes back too early crosses**: after a step that opens one that may not
be opened, the transmitter alone need only go on for a payload to reach a client of another
socket, or the receiver alone for data to be dispatched under another name. -/
theorem crosses {s s' : Traffic δ} (hstep : Step s s') (hmay : ¬s.MayOpen s') :
    s'.Misdelivers ∨ s'.Misattributes := by
  by_contra hnever
  obtain ⟨hdelivers, hattributes⟩ := not_or.1 hnever
  refine hmay fun fd client hfresh hopened => ?_
  obtain ⟨hplace, hreading, hsocketName, hnames⟩ := of_opens hstep hfresh hopened
  constructor
  · intro socket hsends
    by_contra hne
    rw [← hplace] at hsends
    exact hdelivers (misdelivers_of_sends hsends hopened hne)
  · intro hmem name hname
    by_contra hne
    rw [← hreading] at hmem
    rw [← hsocketName] at hname
    rw [← hnames] at hne
    exact hattributes (misattributes_of_reading s'.reading rfl hmem hopened hname hne)

/-- The connector is stopped and started while the transmitter holds descriptor 5, and `accept`
returns 5 for the other socket. -/
theorem crosses_restarted :
    ∃ s s' : Traffic ℕ, Relation.ReflTransGen Step (new [("unix:/a", "a"), ("unix:/b", "b")]) s ∧
      Step s s' ∧ (s'.Misdelivers ∨ s'.Misattributes) := by
  have hnew : Relation.ReflTransGen Step
      (new [("unix:/a", "a"), ("unix:/b", "b")] : Traffic ℕ)
      (new [("unix:/a", "a"), ("unix:/b", "b")]) := .refl
  have hstart := hnew.tail (.others none _ (.start rfl) rfl rfl)
  have haccept := hstart.tail (.others none _ (.accept 0 5 rfl (by decide) rfl) rfl rfl)
  have hsend := haccept.tail (.others none _ (.sendData "unix:/a" 7) rfl rfl)
  have hhead := hsend.tail (.transmit (.mk none _ (.getHead 0 7 [] rfl rfl)))
  have hcopy := hhead.tail (.transmit (.mk none _ (.copy 0 7 rfl)))
  have hstop := hcopy.tail (.others none _ (.stop rfl) rfl rfl)
  have hclose := hstop.tail (.others none _ (.close 0 5 [] rfl) rfl rfl)
  have hclear := hclose.tail (.others none _ (.clear 0 rfl) rfl rfl)
  have hstopped := hclear.tail (.others none _ (.clear 1 rfl) rfl rfl)
  have hrestart := hstopped.tail (.others none _ (.start rfl) rfl rfl)
  obtain ⟨s, hrun, hplace, hrunning, hlength, hfresh⟩ : ∃ s : Traffic ℕ,
      Relation.ReflTransGen Step (new [("unix:/a", "a"), ("unix:/b", "b")]) s ∧
        s.connections.transmitter.place = .sending 0 7 [5] ∧
        s.connections.connector = .running ∧ 1 < s.connections.sockets.length ∧
        s.connections.opened 5 = none :=
    ⟨_, hrestart, rfl, rfl, by decide, rfl⟩
  have hstep : Step s { s with connections := s.connections.accept 1 5 } :=
    .others none _ (.accept 1 5 hrunning hlength hfresh) rfl rfl
  have hopened : (s.connections.accept 1 5).opened 5 = some 1 :=
    (Connections.opened_accept_iff 1 5 s.connections).2 (Or.inl ⟨rfl, rfl⟩)
  have hsends : s.connections.transmitter.place.Sends 0 5 := by
    rw [hplace]
    exact ⟨rfl, List.mem_singleton_self 5⟩
  exact ⟨s, _, hrun, hstep, crosses hstep fun hmay =>
    absurd ((hmay 5 1 hfresh hopened).1 0 hsends) Nat.one_ne_zero⟩

end Traffic

end NewCPP.Ipc
