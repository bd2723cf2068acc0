import Mathlib.Data.Int.Notation
import Mathlib.Data.List.Nodup
import Mathlib.Data.List.Perm.Subperm
import Mathlib.Tactic.Common

/-!
# Starting the connector

`IpcConnector::Start` opens a listening descriptor for each socket and an `epoll` instance
for all of them, and throws at the first call that fails; `Stop` closes them.

* `opened_start_stop` — what a `Start` that does not throw has opened, `Stop` closes.
* `start_restores_iff` — which failures leave everything as it was: those in which nothing
  was opened.  The descriptors of the sockets that were bound by then stay open.

## Design notes

**Descriptors.**  The kernel hands out the lowest descriptor that is not open.

**Outcomes.**  Which calls fail is given by the place of the socket they are made for.

**Members.**  `sockets` keep their descriptors after a `Start` that throws, and and `isReady` is
set only at the end.  `Restored` compares both with what they were before, and the open
descriptors of the process with those that were open.

**Another start.**  The fourth part of `Restored` runs `Start` and `Stop` once more, since a
descriptor that is overwritten by the next `Start` can never be closed again.
-/

namespace NewCPP.Ipc

/-- Which of the calls for a socket succeed. -/
structure BindOutcome where
  socket : Bool := true
  bind : Bool := true
  listen : Bool := true

/-- What the calls of `start` return, for the socket of each index. -/
structure StartOutcome where
  bindSocket : ℕ → BindOutcome := fun _ => {}
  epollCreate : Bool := true
  epollCtl : ℕ → Bool := fun _ => true

/-- A socket of the connector and its descriptor. -/
structure ListeningSocket where
  socketUri : String
  socketPath : String
  socketDescriptor : ℤ := 0
  deriving DecidableEq

/-- The members of the class, and what is open in the process. -/
structure IpcConnector where
  sockets : List ListeningSocket
  /-- The open descriptors of the process. -/
  opened : List ℕ := []
  /-- `none` stands for −1. -/
  pollingfd : Option ℕ := none
  isReady : Bool := false
  polls : isReady = false → pollingfd = none := by simp

/-- The descriptor that the kernel hands out. -/
def lowest (opened : List ℕ) : ℕ :=
  ((List.range (opened.length + 1)).find? (· ∉ opened)).getD 0

/-- The descriptor that is handed out is free. -/
theorem lowest_not_mem (opened : List ℕ) : lowest opened ∉ opened := by
  have hfree : ∃ fd ∈ List.range (opened.length + 1), fd ∉ opened := by
    by_contra hall
    simp only [not_exists, not_and, not_not] at hall
    have hle := (List.subperm_of_subset List.nodup_range hall).length_le
    rw [List.length_range] at hle
    omega
  obtain ⟨fd, hrange, hfd⟩ := hfree
  have hfind : ((List.range (opened.length + 1)).find? (· ∉ opened)).isSome := by
    rw [List.find?_isSome]
    exact ⟨fd, hrange, decide_eq_true hfd⟩
  obtain ⟨found, hfound⟩ := Option.isSome_iff_exists.1 hfind
  have hnew := List.find?_some hfound
  rw [decide_eq_true_iff] at hnew
  rwa [lowest, hfound]

namespace IpcConnector

/-- The result of `bindSocket`, the socket and the open descriptors after it. -/
def bindSocket (outcome : BindOutcome) (socket : ListeningSocket) (opened : List ℕ) :
    Bool × ListeningSocket × List ℕ :=
  if socket.socketPath.isEmpty then (false, socket, opened)
  else if !outcome.socket then (false, socket, opened)
  else
    let socketDescriptor := lowest opened
    let socket := { socket with socketDescriptor := socketDescriptor }
    (outcome.bind && outcome.listen, socket, socketDescriptor :: opened)

/-- The loop of `Start` from the socket at place `n` on: the error, if any, the sockets and
the open descriptors. -/
def bindSockets (outcome : ℕ → BindOutcome) :
    ℕ → List ListeningSocket → List ℕ → Option String × List ListeningSocket × List ℕ
  | _, [], opened => (none, [], opened)
  | n, socket :: sockets, opened =>
      let bound := bindSocket (outcome n) socket opened
      if !bound.1 then
        (some ("Can't bind to " ++ socket.socketUri), bound.2.1 :: sockets, bound.2.2)
      else
        let rest := bindSockets outcome (n + 1) sockets bound.2.2
        (rest.1, bound.2.1 :: rest.2.1, rest.2.2)

/-- The result of `prepareEPoll`, the instance and the open descriptors. -/
def prepareEPoll (outcome : StartOutcome) (count : ℕ) (pollingfd : Option ℕ)
    (opened : List ℕ) : Bool × Option ℕ × List ℕ :=
  match pollingfd with
  | some _ => (true, pollingfd, opened)
  | none =>
      -- `epoll_create` fails for a size of zero
      if count = 0 || !outcome.epollCreate then (false, none, opened)
      else
        ((List.range count).all outcome.epollCtl, some (lowest opened),
          lowest opened :: opened)

/-- The open descriptors after `cleanupEPoll`. -/
def cleanupEPoll (pollingfd : Option ℕ) (opened : List ℕ) : List ℕ :=
  opened.filter fun fd => some fd ≠ pollingfd

/-- `Start`: the text of the exception, if it throws, and the connector after it. -/
def start (outcome : StartOutcome) (c : IpcConnector) : Option String × IpcConnector :=
  if c.isReady then (none, c)
  else
    let bound := bindSockets outcome.bindSocket 0 c.sockets c.opened
    match bound.1 with
    | some error => (some error, { c with sockets := bound.2.1, opened := bound.2.2 })
    | none =>
        let prepared := prepareEPoll outcome c.sockets.length c.pollingfd bound.2.2
        if !prepared.1 then
          (some "Can't create epoll",
            { c with
              sockets := bound.2.1
              opened := cleanupEPoll prepared.2.1 prepared.2.2
              pollingfd := none
              polls := fun _ => rfl })
        else
          (none,
            { sockets := bound.2.1
              opened := prepared.2.2
              pollingfd := prepared.2.1
              isReady := true })

/-- The open descriptors after `closeSocket`. -/
def closeSocket (opened : List ℕ) (socket : ListeningSocket) : List ℕ :=
  opened.filter fun fd => (fd : ℤ) ≠ socket.socketDescriptor

/-- The sockets are closed and the epoll instance is, if the connector was started. -/
def stop (c : IpcConnector) : IpcConnector :=
  if !c.isReady then c
  else
    { sockets := c.sockets.map fun socket => { socket with socketDescriptor := -1 }
      opened := cleanupEPoll c.pollingfd (c.sockets.foldl closeSocket c.opened)
      pollingfd := none
      isReady := false }

/-! ## What is opened -/

/-- The call of `socket` is made and succeeds. -/
def Opens (outcome : BindOutcome) (socket : ListeningSocket) : Prop :=
  socket.socketPath.isEmpty = false ∧ outcome.socket = true

/-- The socket is bound. -/
def Binds (outcome : BindOutcome) (socket : ListeningSocket) : Prop :=
  Opens outcome socket ∧ outcome.bind = true ∧ outcome.listen = true

section

variable {outcome : BindOutcome} {socket : ListeningSocket}

/-- Without a socket nothing happens. -/
theorem bindSocket_of_not_opens (h : ¬Opens outcome socket) (opened : List ℕ) :
    bindSocket outcome socket opened = (false, socket, opened) := by
  rw [Opens, not_and_or, Bool.not_eq_false, Bool.not_eq_true] at h
  rw [bindSocket]
  rcases h with hpath | hsocket
  · rw [if_pos hpath]
  · rw [hsocket]
    split <;> rfl

/-- With one, a descriptor is in use, whatever comes of it. -/
theorem bindSocket_of_opens (h : Opens outcome socket) (opened : List ℕ) :
    bindSocket outcome socket opened = (outcome.bind && outcome.listen,
      { socket with socketDescriptor := lowest opened }, lowest opened :: opened) := by
  rw [bindSocket, h.1, h.2]
  rfl

/-- When a socket is bound and listens. -/
theorem bindSocket_eq_true_iff (opened : List ℕ) :
    (bindSocket outcome socket opened).1 = true ↔ Binds outcome socket := by
  by_cases h : Opens outcome socket
  · rw [bindSocket_of_opens h, Bool.and_eq_true, Binds]
    exact (and_iff_right h).symm
  · rw [bindSocket_of_not_opens h]
    exact iff_of_false (by rintro ⟨⟩) fun hbinds => h hbinds.1

/-- Nothing is closed. -/
theorem opened_bindSocket (opened : List ℕ) :
    opened ⊆ (bindSocket outcome socket opened).2.2 := by
  by_cases h : Opens outcome socket
  · rw [bindSocket_of_opens h]
    exact List.subset_cons_self _ _
  · rw [bindSocket_of_not_opens h]
    exact List.Subset.refl _

end

/-- Nor over all sockets. -/
theorem opened_bindSockets (outcome : ℕ → BindOutcome) (n : ℕ) (sockets : List ListeningSocket)
    (opened : List ℕ) : opened ⊆ (bindSockets outcome n sockets opened).2.2 := by
  induction sockets generalizing n opened with
  | nil => exact List.Subset.refl _
  | cons socket sockets ih =>
      rw [bindSockets]
      split
      · exact opened_bindSocket opened
      · exact List.Subset.trans (opened_bindSocket opened) (ih _ _)

/-- The loop ends if every socket is bound. -/
theorem bindSockets_eq_none_iff (outcome : ℕ → BindOutcome) (n : ℕ)
    (sockets : List ListeningSocket) (opened : List ℕ) :
    (bindSockets outcome n sockets opened).1 = none ↔
      ∀ i socket, sockets[i]? = some socket → Binds (outcome (n + i)) socket := by
  induction sockets generalizing n opened with
  | nil => simp [bindSockets]
  | cons socket sockets ih =>
      have hhead : (bindSocket (outcome n) socket opened).1 = true ↔ Binds (outcome n) socket :=
        bindSocket_eq_true_iff opened
      rw [bindSockets]
      constructor
      · intro hnone i other hother
        split at hnone
        · cases hnone
        · rename_i hbound
          rw [Bool.not_eq_true, Bool.not_eq_false', hhead] at hbound
          cases i with
          | zero =>
              cases hother
              exact hbound
          | succ i =>
              have hrest := (ih _ _).1 hnone i other hother
              rwa [Nat.add_assoc, Nat.add_comm 1] at hrest
      · intro hall
        have hbound := hhead.2 (hall 0 socket rfl)
        rw [hbound]
        refine (ih _ _).2 fun i other hother => ?_
        rw [Nat.add_assoc, Nat.add_comm 1]
        exact hall (i + 1) other hother

/-- What the loop opens is listed with the sockets. -/
theorem mem_opened_bindSockets (outcome : ℕ → BindOutcome) (n : ℕ)
    (sockets : List ListeningSocket) (opened : List ℕ) {fd : ℕ}
    (h : fd ∈ (bindSockets outcome n sockets opened).2.2) :
    fd ∈ opened ∨ ∃ socket ∈ (bindSockets outcome n sockets opened).2.1,
      socket.socketDescriptor = fd := by
  induction sockets generalizing n opened with
  | nil => exact Or.inl h
  | cons socket sockets ih =>
      have hhead : ∀ fd ∈ (bindSocket (outcome n) socket opened).2.2, fd ∈ opened ∨
          (bindSocket (outcome n) socket opened).2.1.socketDescriptor = fd := by
        intro fd hfd
        by_cases hopens : Opens (outcome n) socket
        · rw [bindSocket_of_opens hopens] at hfd ⊢
          exact (List.mem_cons.1 hfd).symm.imp_right fun heq => congrArg Nat.cast heq.symm
        · rw [bindSocket_of_not_opens hopens] at hfd
          exact Or.inl hfd
      rw [bindSockets] at h ⊢
      split at h
      · rename_i hbound
        rw [if_pos hbound]
        exact (hhead fd h).imp_right fun heq => ⟨_, List.mem_cons_self, heq⟩
      · rename_i hbound
        rw [if_neg hbound]
        rcases ih _ _ h with hold | ⟨other, hother, heq⟩
        · exact (hhead fd hold).imp_right fun heq => ⟨_, List.mem_cons_self, heq⟩
        · exact Or.inr ⟨other, List.mem_cons_of_mem _ hother, heq⟩

/-! ## Starting and stopping -/

section

variable (outcome : StartOutcome) (count : ℕ) (opened : List ℕ)

/-- When the first epoll instance is set up. -/
theorem prepareEPoll_none_iff : (prepareEPoll outcome count none opened).1 = true ↔
    count ≠ 0 ∧ outcome.epollCreate = true ∧ ∀ i < count, outcome.epollCtl i = true := by
  rw [prepareEPoll]
  by_cases hcount : count = 0
  · simp [hcount]
  · cases hcreate : outcome.epollCreate <;> simp [hcount]

/-- Setting `epoll` up and cleaning it up closes nothing else. -/
theorem opened_cleanupEPoll : opened ⊆ cleanupEPoll (prepareEPoll outcome count none opened).2.1
    (prepareEPoll outcome count none opened).2.2 := by
  intro fd hfd
  have hne : fd ≠ lowest opened := fun heq => lowest_not_mem opened (heq ▸ hfd)
  rw [prepareEPoll]
  split <;> simp [cleanupEPoll, hfd, hne]

/-- Besides the instance nothing is opened. -/
theorem mem_opened_prepareEPoll (pollingfd : Option ℕ) {fd : ℕ}
    (h : fd ∈ (prepareEPoll outcome count pollingfd opened).2.2) :
    fd ∈ opened ∨ some fd = (prepareEPoll outcome count pollingfd opened).2.1 := by
  cases pollingfd with
  | some _ => exact Or.inl h
  | none =>
      rw [prepareEPoll] at h ⊢
      split at h
      · exact Or.inl h
      · rename_i hcreate
        rw [if_neg hcreate]
        exact (List.mem_cons.1 h).symm.imp_right (congrArg some)

end

variable {c : IpcConnector} {outcome : StartOutcome}

/-- A connector that is ready starts at once. -/
theorem start_of_isReady (h : c.isReady = true) : c.start outcome = (none, c) :=
  if_pos h

/-- A connector that is not ready is not polling. -/
theorem eq_of_not_isReady (h : c.isReady = false) :
    ∃ sockets opened, c = { sockets := sockets, opened := opened } := by
  obtain ⟨sockets, opened, pollingfd, isReady, polls⟩ := c
  cases h
  cases polls rfl
  exact ⟨sockets, opened, rfl⟩

/-- What `Start` needs in order not to throw. -/
theorem start_eq_none_iff (h : c.isReady = false) : (c.start outcome).1 = none ↔
    (∀ i socket, c.sockets[i]? = some socket → Binds (outcome.bindSocket i) socket) ∧
      c.sockets ≠ [] ∧ outcome.epollCreate = true ∧
        ∀ i < c.sockets.length, outcome.epollCtl i = true := by
  obtain ⟨sockets, opened, rfl⟩ := eq_of_not_isReady h
  have hbound := bindSockets_eq_none_iff outcome.bindSocket 0 sockets opened
  simp only [Nat.zero_add] at hbound
  have hprepared := prepareEPoll_none_iff outcome sockets.length
    (bindSockets outcome.bindSocket 0 sockets opened).2.2
  rw [← hbound, ← List.length_pos_iff, Nat.pos_iff_ne_zero, ← hprepared, start,
    if_neg Bool.false_ne_true]
  dsimp only
  split
  · rename_i error herror
    rw [herror]
    exact iff_of_false (by rintro ⟨⟩) fun hnone => (by cases hnone.1)
  · rename_i hnone
    rw [hnone, and_iff_right rfl]
    split
    · rename_i hfails
      exact iff_of_false (by rintro ⟨⟩) fun hprepares => (by rw [hprepares] at hfails; cases hfails)
    · rename_i hprepares
      exact iff_of_true rfl (by simpa using hprepares)

/-- What is open after the loop of `Start` stays open. -/
theorem opened_start (h : c.isReady = false) :
    (bindSockets outcome.bindSocket 0 c.sockets c.opened).2.2 ⊆ (c.start outcome).2.opened := by
  obtain ⟨sockets, opened, rfl⟩ := eq_of_not_isReady h
  have hcleanup := opened_cleanupEPoll outcome sockets.length
    (bindSockets outcome.bindSocket 0 sockets opened).2.2
  rw [start, if_neg Bool.false_ne_true]
  dsimp only
  split
  · exact List.Subset.refl _
  · split
    · exact hcleanup
    · exact List.Subset.trans hcleanup (List.filter_subset_self _)

/-- The descriptors of the sockets are closed, and no others. -/
theorem mem_closeSockets (sockets : List ListeningSocket) (opened : List ℕ) (fd : ℕ) :
    fd ∈ sockets.foldl closeSocket opened ↔
      fd ∈ opened ∧ ∀ socket ∈ sockets, (fd : ℤ) ≠ socket.socketDescriptor := by
  induction sockets generalizing opened with
  | nil => simp
  | cons socket sockets ih => simp [ih, closeSocket, and_assoc]

/-- What is still open after a stop. -/
theorem mem_opened_stop (h : c.isReady = true) (fd : ℕ) : fd ∈ c.stop.opened ↔
    fd ∈ c.opened ∧ (∀ socket ∈ c.sockets, (fd : ℤ) ≠ socket.socketDescriptor) ∧
      some fd ≠ c.pollingfd := by
  rw [stop, h]
  simp [cleanupEPoll, mem_closeSockets, and_assoc]

/-- **`Stop` closes what `Start` has opened**, if `Start` did not throw. -/
theorem opened_start_stop (h : (c.start outcome).1 = none) {fd : ℕ}
    (hfd : fd ∈ (c.start outcome).2.stop.opened) : fd ∈ c.opened := by
  cases hready : c.isReady with
  | true =>
      rw [start_of_isReady hready, mem_opened_stop hready] at hfd
      exact hfd.1
  | false =>
      obtain ⟨sockets, opened, rfl⟩ := eq_of_not_isReady hready
      simp only [start, Bool.false_eq_true, if_false] at h hfd
      split at h
      · cases h
      · rename_i hbound
        simp only [hbound] at hfd
        split at h
        · cases h
        · rename_i hprepared
          rw [if_neg hprepared, mem_opened_stop rfl] at hfd
          obtain ⟨hopened, hsockets, hpolling⟩ := hfd
          -- it is neither the epoll instance nor a socket of the list
          have hold := (mem_opened_prepareEPoll _ _ _ _ hopened).resolve_right hpolling
          refine (mem_opened_bindSockets _ _ _ _ hold).resolve_right ?_
          rintro ⟨socket, hsocket, heq⟩
          exact hsockets socket hsocket heq.symm

/-! ## All or nothing -/

/-- Everything is as it was, and another `Start` with its `Stop` leaves nothing open. -/
structure Restored (c c' : IpcConnector) : Prop where
  closed : ∀ fd ∈ c'.opened, fd ∈ c.opened
  isReady : c'.isReady = c.isReady
  sockets : c'.sockets = c.sockets
  released : ∀ outcome, (c'.start outcome).1 = none →
    ∀ fd ∈ (c'.start outcome).2.stop.opened, fd ∈ c.opened

/-- A start that fails leaves everything as it was. -/
def AllOrNothing (outcome : StartOutcome) (c : IpcConnector) : Prop :=
  (c.start outcome).1 ≠ none → Restored c (c.start outcome).2

/-- Nothing may have been opened, and the members must be the same. -/
theorem Restored.of_subset {c' : IpcConnector} (hopened : c'.opened ⊆ c.opened)
    (hready : c'.isReady = c.isReady) (hsockets : c'.sockets = c.sockets) : Restored c c' :=
  ⟨hopened, hready, hsockets, fun _ hnone _ hfd => hopened (opened_start_stop hnone hfd)⟩

/-- Nothing is opened if the first socket is not, or if there is none. -/
theorem restored_of_not_opens (h : c.isReady = false)
    (hfirst : ∀ first ∈ c.sockets.head?, ¬Opens (outcome.bindSocket 0) first) :
    Restored c (c.start outcome).2 := by
  obtain ⟨sockets, opened, rfl⟩ := eq_of_not_isReady h
  cases sockets with
  | nil => exact .of_subset (List.filter_subset_self _) rfl rfl
  | cons first rest =>
      have hstart : start outcome { sockets := first :: rest, opened := opened } =
          (some ("Can't bind to " ++ first.socketUri),
            { sockets := first :: rest, opened := opened }) := by
        simp [start, bindSockets, bindSocket_of_not_opens (hfirst first rfl)]
      rw [hstart]
      exact .of_subset (List.Subset.refl _) rfl rfl

/-- A socket that was opened stays open when `Start` throws. -/
theorem not_restored_of_opens (h : c.isReady = false) {first : ListeningSocket}
    (hfirst : c.sockets.head? = some first) (hopens : Opens (outcome.bindSocket 0) first) :
    ¬Restored c (c.start outcome).2 := by
  intro hrestored
  obtain ⟨rest, hsockets⟩ := List.head?_eq_some_iff.1 hfirst
  -- the descriptor of the first socket was free before the call
  refine lowest_not_mem c.opened (hrestored.closed _ (opened_start h ?_))
  have hbound := bindSocket_of_opens hopens c.opened
  rw [hsockets, bindSockets]
  split
  · rw [hbound]
    exact List.mem_cons_self
  · refine opened_bindSockets _ _ _ _ ?_
    rw [hbound]
    exact List.mem_cons_self

/-- **When `Start` leaves nothing behind**: it does not throw, because it is started
already or every call succeeds; or it throws before the first socket is opened. -/
theorem start_restores_iff (outcome : StartOutcome) (c : IpcConnector) :
    AllOrNothing outcome c ↔
      c.isReady = true ∨
      (∀ first ∈ c.sockets.head?, ¬Opens (outcome.bindSocket 0) first) ∨
      (∀ i socket, c.sockets[i]? = some socket → Binds (outcome.bindSocket i) socket) ∧
        outcome.epollCreate = true ∧ ∀ i < c.sockets.length, outcome.epollCtl i = true := by
  cases hready : c.isReady with
  | true =>
      refine iff_of_true (fun hthrows => ?_) (Or.inl rfl)
      rw [start_of_isReady hready] at hthrows
      exact absurd rfl hthrows
  | false =>
      simp only [Bool.false_eq_true, false_or]
      constructor
      · intro hall
        by_cases hfirst : ∀ first ∈ c.sockets.head?, ¬Opens (outcome.bindSocket 0) first
        · exact Or.inl hfirst
        · simp only [not_forall, not_not] at hfirst
          obtain ⟨first, hhead, hopens⟩ := hfirst
          have hnone : (c.start outcome).1 = none := by
            by_contra hthrows
            exact not_restored_of_opens hready hhead hopens (hall hthrows)
          obtain ⟨hbinds, -, hepoll⟩ := (start_eq_none_iff hready).1 hnone
          exact Or.inr ⟨hbinds, hepoll⟩
      · rintro (hfirst | ⟨hbinds, hepoll⟩) hthrows
        · exact restored_of_not_opens hready hfirst
        · by_cases hnil : c.sockets = []
          · exact restored_of_not_opens hready (by rw [hnil]; rintro first ⟨⟩)
          · exact absurd ((start_eq_none_iff hready).2 ⟨hbinds, hnil, hepoll⟩) hthrows

/-- The second of two sockets cannot be bound, and the first stays open. -/
theorem not_restored_second_bind : ¬∀ outcome c, AllOrNothing outcome c := by
  intro h
  let outcome : StartOutcome := { bindSocket := fun n => { bind := n = 0 } }
  let c : IpcConnector :=
    { sockets := [⟨"unix:/tmp/a", "/tmp/a", 0⟩, ⟨"unix:/tmp/b", "/tmp/b", 0⟩] }
  have hclosed := (h outcome c (by decide)).closed 0 (by decide)
  cases hclosed

end IpcConnector

end NewCPP.Ipc
