import NewCPP.Ipc.SelectReceiver

/-!
# Who is served on Windows

`select` is asked about the first 64 clients only.  Those are served: what a read leaves is
reported again.  A client behind them waits until one of them is dropped, which the receiver
never does.

* `served_of_loops` — what any number of undisturbed runs of `loop` does to every client
* `starved` — a client behind 64 others is never read, whatever the peers do, as long as no
  client is dropped

## Design notes

**Undisturbed runs.**  `Loop` is one run of `loop` in which neither peers nor other threads do
anything.  `Loop.run` and `Loops.run` show that such runs are runs of the interleaving in
`SelectReceiver`, so that what is said of them is about that model.

**The order.**  The container of descriptors is unordered, and the order in which `select`
leaves the clients to be read is any one: `Loop.served` takes it as an argument.

**The place of a client** is that in the vector of sockets and then in the list of its socket;
`snapshot` is the vector in that order.
-/

namespace NewCPP.Ipc

open Library
open Sockets (clients Listed)

universe u

variable {β : Type u}

namespace SelectReceiver

/-! ## The clients in the order of `collectSockets` -/

/-- What `collectSockets` copies of the first sockets, if nobody disturbs it. -/
def snapshot (r : SelectReceiver β) (count : ℕ) : List (ℕ × String) :=
  (List.range count).flatMap r.copy

/-- All clients. -/
def descriptors (r : SelectReceiver β) : List ℕ :=
  (r.snapshot r.sockets.length).map Prod.fst

/-- One socket more. -/
theorem snapshot_succ (r : SelectReceiver β) (count : ℕ) :
    r.snapshot (count + 1) = r.snapshot count ++ r.copy count := by
  rw [snapshot, List.range_succ, List.flatMap_append, List.flatMap_singleton, snapshot]

theorem fst_copy (r : SelectReceiver β) (index : ℕ) :
    (r.copy index).map Prod.fst = clients r.sockets index := by
  rw [copy, List.map_map]
  exact List.map_id _

/-- The copies hold the clients of the sockets copied. -/
theorem mem_snapshot (r : SelectReceiver β) (count fd : ℕ) :
    fd ∈ (r.snapshot count).map Prod.fst ↔ ∃ index < count, fd ∈ clients r.sockets index := by
  induction count with
  | zero => simp [snapshot]
  | succ count ih =>
      rw [snapshot_succ, List.map_append, List.mem_append, ih, fst_copy]
      simp only [Nat.lt_succ_iff_lt_or_eq, or_and_right, exists_or, exists_eq_left]

/-- All clients are the listed ones. -/
theorem mem_descriptors (r : SelectReceiver β) (fd : ℕ) :
    fd ∈ r.descriptors ↔ Listed r.sockets fd := by
  rw [descriptors, mem_snapshot]
  constructor
  · rintro ⟨index, -, h⟩
    exact ⟨index, h⟩
  · rintro ⟨index, h⟩
    exact ⟨index, Sockets.lt_length_of_mem_clients h, h⟩

/-- No two sockets list a client. -/
theorem Opened.index_eq {r : SelectReceiver β} (h : Opened r) {index index' fd : ℕ}
    (hmem : fd ∈ clients r.sockets index) (hmem' : fd ∈ clients r.sockets index') :
    index = index' := by
  obtain ⟨id, hid, rfl⟩ := h.listed index fd hmem
  obtain ⟨id', hid', rfl⟩ := h.listed index' fd hmem'
  rw [hid, Option.some_inj] at hid'
  rw [hid']

/-- What was copied of the first sockets, and then of the next one, has no client twice. -/
theorem Opened.nodup_append {r : SelectReceiver β} (h : Opened r) {count : ℕ} {front : List ℕ}
    (hfront : front.Nodup) (hmem : ∀ fd ∈ front, ∃ index < count, fd ∈ clients r.sockets index) :
    (front ++ clients r.sockets count).Nodup := by
  refine hfront.append (Sockets.nodup_clients r.sockets count) fun fd hfd hcount => ?_
  obtain ⟨index, hlt, hindex⟩ := hmem fd hfd
  exact absurd (h.index_eq hindex hcount) hlt.ne

/-- No client is copied twice. -/
theorem Opened.nodup_snapshot {r : SelectReceiver β} (h : Opened r) (count : ℕ) :
    ((r.snapshot count).map Prod.fst).Nodup := by
  induction count with
  | zero => exact List.nodup_nil
  | succ count ih =>
      rw [snapshot_succ, List.map_append, fst_copy]
      exact h.nodup_append ih fun fd hfd => (mem_snapshot r count fd).1 hfd

/-! ## Undisturbed runs of `loop` -/

/-- After `collectSockets`. -/
def collectAll (r : SelectReceiver β) : SelectReceiver β :=
  { r with allSockets := r.snapshot r.sockets.length }

/-- All clients that `select` left are read, one after the other. -/
def readFromSockets (capacity : ℕ) (kept : List (ℕ × String)) (r : SelectReceiver β) :
    SelectReceiver β :=
  kept.foldl (fun r pair => r.readFrom capacity pair) r

/-- One run of `loop` in which the others do nothing and no call fails. -/
inductive Loop (capacity : ℕ) (r : SelectReceiver β) : SelectReceiver β → Prop
  | nothing (none_ready : r.collectAll.ready = []) : Loop capacity r r.collectAll
  | served (kept : List (ℕ × String)) (some_ready : r.collectAll.ready ≠ [])
      (order : kept.Perm r.collectAll.matching) :
      Loop capacity r
        { readFromSockets capacity kept (r.collectAll.select kept) with place := .start }

/-- So many of them. -/
inductive Loops (capacity : ℕ) : ℕ → SelectReceiver β → SelectReceiver β → Prop
  | zero (r : SelectReceiver β) : Loops capacity 0 r r
  | succ {n : ℕ} {r r' r'' : SelectReceiver β} (first : Loop capacity r r')
      (rest : Loops capacity n r' r'') : Loops capacity (n + 1) r r''

/-! ### They are runs -/

/-- `collectSockets`, step by step. -/
theorem run_collect (capacity : ℕ) (r : SelectReceiver β) (hstart : r.place = .start) {count : ℕ}
    (hcount : count ≤ r.sockets.length) :
    Relation.ReflTransGen (Step capacity) r
      { r with allSockets := r.snapshot count, place := .collecting count } := by
  induction count with
  | zero => exact Relation.ReflTransGen.single (Step.clear hstart)
  | succ count ih =>
      refine (ih (Nat.le_of_succ_le hcount)).tail ?_
      have hstep : Step capacity
          { r with allSockets := r.snapshot count, place := .collecting count } _ :=
        Step.collect count rfl hcount
      rw [snapshot_succ]
      exact hstep

/-- A read does not look at the place. -/
theorem readFrom_place (capacity : ℕ) (pair : ℕ × String) (r : SelectReceiver β)
    (place : SelectPlace) :
    { r with place := place }.readFrom capacity pair =
      { r.readFrom capacity pair with place := place } := by
  rw [readFrom, readFrom]
  cases r.handle pair.1 with
  | none => rfl
  | some id =>
      dsimp only
      split <;> rfl

/-- Nor do all the reads look at the place. -/
theorem readFromSockets_place (capacity : ℕ) (kept : List (ℕ × String)) (r : SelectReceiver β)
    (place : SelectPlace) :
    readFromSockets capacity kept { r with place := place } =
      { readFromSockets capacity kept r with place := place } := by
  induction kept generalizing r with
  | nil => rfl
  | cons pair kept ih =>
      rw [readFromSockets, List.foldl_cons, readFrom_place]
      exact ih (r.readFrom capacity pair)

/-- The reads, step by step. -/
theorem run_read (capacity : ℕ) (kept : List (ℕ × String)) (r : SelectReceiver β)
    (hreading : r.place = .reading kept) :
    Relation.ReflTransGen (Step capacity) r
      { readFromSockets capacity kept r with place := .start } := by
  induction kept generalizing r with
  | nil => exact Relation.ReflTransGen.single (Step.endRead hreading)
  | cons pair kept ih =>
      refine Relation.ReflTransGen.head (Step.read pair kept hreading) ?_
      have hrest := ih { r.readFrom capacity pair with place := .reading kept } rfl
      rwa [readFromSockets_place] at hrest

/-- `select` is asked about listed clients only. -/
theorem listed_of_mem_set {r : SelectReceiver β} {fd : ℕ}
    (h : fd ∈ FdSet.ofSockets r.collectAll.allSockets) : Listed r.sockets fd := by
  rw [FdSet.ofSockets_eq] at h
  exact (mem_descriptors r fd).1 (BoundedSet.mem_of_mem_ofList h)

/-- **An undisturbed run of `loop` is a run.** -/
theorem Loop.run {capacity : ℕ} {r r' : SelectReceiver β} (hopened : Opened r)
    (hstart : r.place = .start) (hloop : Loop capacity r r') :
    Relation.ReflTransGen (Step capacity) r r' := by
  have hcollect := run_collect capacity r hstart le_rfl
  have hend : Relation.ReflTransGen (Step capacity) r
      ({ r.collectAll with place := .collecting r.sockets.length } : SelectReceiver β).endCollect :=
    hcollect.tail (Step.endCollect r.sockets.length rfl le_rfl)
  have hplace : { r.collectAll with place := .start } = r.collectAll := by
    rw [← hstart]
    rfl
  by_cases hempty : r.collectAll.allSockets.isEmpty = true
  · have hnone : r.collectAll.ready = [] := by
      rw [ready, List.isEmpty_iff.1 hempty]
      rfl
    have hplace' : endCollect { r.collectAll with place := .collecting r.sockets.length } =
        r.collectAll := by
      rw [endCollect, if_pos hempty, hplace]
    cases hloop with
    | nothing => exact hplace' ▸ hend
    | served kept hsome _ => exact absurd hnone hsome
  · have hplace' : endCollect { r.collectAll with place := .collecting r.sockets.length } =
        { r.collectAll with place := .collected } := by
      rw [endCollect, if_neg hempty]
    rw [hplace'] at hend
    cases hloop with
    | nothing => exact hplace ▸ hend.tail (Step.selectNone rfl)
    | served kept hsome horder =>
        have hopen : ∀ fd ∈ FdSet.ofSockets r.collectAll.allSockets, r.handle fd ≠ none := by
          intro fd hfd hnone
          obtain ⟨index, hlisted⟩ := listed_of_mem_set hfd
          obtain ⟨id, hid, -⟩ := hopened.listed index fd hlisted
          rw [hnone] at hid
          cases hid
        have hselect := hend.tail (Step.select (r := { r.collectAll with place := .collected })
          kept rfl hopen hsome horder)
        exact hselect.trans (run_read capacity kept _ rfl)

/-! ### What they read -/

/-- So many bytes of a connection, or all there are, have been read and dispatched. -/
structure Served (bytes : ℕ) (r r' : SelectReceiver β) (id : ℕ) : Prop where
  unread : (r'.connections id).unread = (r.connections id).unread.drop bytes
  dispatched : r'.dispatchedOf id = r.dispatchedOf id ++ (r.connections id).unread.take bytes

theorem Served.nothing {r r' : SelectReceiver β} {id : ℕ}
    (hconnections : (r'.connections id).unread = (r.connections id).unread)
    (hdispatched : r'.dispatched = r.dispatched) : Served 0 r r' id where
  unread := hconnections
  dispatched := by
    rw [List.take_zero, List.append_nil, dispatchedOf, hdispatched]
    rfl

theorem Served.trans {n m : ℕ} {r r' r'' : SelectReceiver β} {id : ℕ} (h : Served n r r' id)
    (h' : Served m r' r'' id) : Served (n + m) r r'' id where
  unread := by rw [h'.unread, h.unread, List.drop_drop]
  dispatched := by
    rw [h'.dispatched, h.dispatched, h.unread, List.append_assoc, List.take_add]

/-- Where there is nothing to read, any number of bytes has been read. -/
theorem Served.of_unread_nil {r r' : SelectReceiver β} {id : ℕ} (h : Served 0 r r' id)
    (hnil : (r.connections id).unread = []) (bytes : ℕ) : Served bytes r r' id where
  unread := by rw [h.unread, hnil, List.drop_nil, List.drop_nil]
  dispatched := by rw [h.dispatched, hnil, List.take_nil, List.take_nil]

/-- What stays in an undisturbed run. -/
structure SameListing (r r' : SelectReceiver β) : Prop where
  sockets : r'.sockets = r.sockets
  count : r'.count = r.count
  handle : r'.handle = r.handle
  index : ∀ id, (r'.connections id).index = (r.connections id).index

theorem SameListing.trans {r r' r'' : SelectReceiver β} (h : SameListing r r')
    (h' : SameListing r' r'') : SameListing r r'' where
  sockets := h'.sockets.trans h.sockets
  count := h'.count.trans h.count
  handle := h'.handle.trans h.handle
  index := fun id => (h'.index id).trans (h.index id)

/-- So the invariant stays. -/
theorem SameListing.opened {r r' : SelectReceiver β} (h : SameListing r r') (hopened : Opened r) :
    Opened r' :=
  hopened.congr h.sockets h.count h.handle h.index

/-- And so do the clients. -/
theorem SameListing.descriptors {r r' : SelectReceiver β} (h : SameListing r r') :
    r'.descriptors = r.descriptors := by
  have hcopy : r'.copy = r.copy := by
    funext index
    rw [copy, copy, nameAt, nameAt, h.sockets]
  rw [SelectReceiver.descriptors, SelectReceiver.descriptors, snapshot, snapshot, hcopy,
    h.sockets]

/-- A read changes no list. -/
theorem sameListing_readFrom (capacity : ℕ) (pair : ℕ × String) (r : SelectReceiver β) :
    SameListing r (r.readFrom capacity pair) := by
  obtain ⟨hsockets, hcount, hhandle⟩ := readFrom_frame capacity pair r
  exact ⟨hsockets, hcount, hhandle, index_readFrom capacity pair r⟩

/-- One read serves the connection of its descriptor and no other. -/
theorem served_readFrom (capacity : ℕ) (pair : ℕ × String) {r : SelectReceiver β}
    (hopened : Opened r) {fd id : ℕ} (hid : r.handle fd = some id) :
    Served (if pair.1 = fd then capacity else 0) r (r.readFrom capacity pair) id := by
  split
  case isTrue hfd =>
    rw [readFrom, hfd, hid]
    dsimp only
    split
    case isTrue hempty =>
      rw [List.isEmpty_iff] at hempty
      have hdrop : (r.connections id).unread.drop capacity = (r.connections id).unread := by
        have happend := List.take_append_drop capacity (r.connections id).unread
        rwa [hempty, List.nil_append] at happend
      exact ⟨hdrop.symm, by rw [hempty, List.append_nil]⟩
    case isFalse =>
      refine ⟨?_, ?_⟩
      · rw [connections_deliver, Function.update_self]
      · rw [dispatchedOf_deliver, if_pos rfl]
  case isFalse hfd =>
    rcases readFrom_cases capacity pair r with heq | ⟨other, hother, heq⟩
    · rw [heq]
      exact Served.nothing rfl rfl
    · have hne : other ≠ id := by
        rintro rfl
        exact hfd (hopened.handle_inj pair.1 fd other hother hid)
      rw [heq]
      refine ⟨?_, ?_⟩
      · rw [connections_deliver, Function.update_of_ne hne.symm, List.drop_zero]
      · rw [dispatchedOf_deliver, if_neg hne, List.take_zero]

/-- Nor do all of them. -/
theorem sameListing_readFromSockets (capacity : ℕ) (kept : List (ℕ × String))
    (r : SelectReceiver β) : SameListing r (readFromSockets capacity kept r) := by
  induction kept generalizing r with
  | nil => exact ⟨rfl, rfl, rfl, fun _ => rfl⟩
  | cons pair kept ih =>
      exact (sameListing_readFrom capacity pair r).trans (ih (r.readFrom capacity pair))

/-- The reads of a run serve the connections of their descriptors. -/
theorem served_readFromSockets (capacity : ℕ) {kept : List (ℕ × String)} {r : SelectReceiver β}
    (hopened : Opened r) (hnodup : (kept.map Prod.fst).Nodup) {fd id : ℕ}
    (hid : r.handle fd = some id) :
    Served (if fd ∈ kept.map Prod.fst then capacity else 0) r
      (readFromSockets capacity kept r) id := by
  induction kept generalizing r with
  | nil => exact Served.nothing rfl rfl
  | cons pair kept ih =>
      rw [List.map_cons, List.nodup_cons] at hnodup
      have hframe := sameListing_readFrom capacity pair r
      have hfirst := served_readFrom capacity pair hopened hid
      have htotal := hfirst.trans
        (ih (hframe.opened hopened) hnodup.2 (hframe.handle.symm ▸ hid))
      by_cases hfd : pair.1 = fd
      · subst hfd
        rw [if_pos rfl, if_neg hnodup.1, Nat.add_zero] at htotal
        rwa [List.map_cons, if_pos List.mem_cons_self]
      · have hmem : fd ∈ (pair :: kept).map Prod.fst ↔ fd ∈ kept.map Prod.fst := by
          rw [List.map_cons, List.mem_cons, or_iff_right (Ne.symm hfd)]
        rw [if_neg hfd, Nat.zero_add] at htotal
        simp only [hmem]
        exact htotal

/-- `select` reports the first clients, those with something to read. -/
theorem mem_ready {r : SelectReceiver β} (hopened : Opened r) {fd : ℕ} (hfd : fd ∈ r.descriptors) :
    fd ∈ r.collectAll.ready ↔ r.descriptors.idxOf fd < fdSetsize ∧ r.live fd = true := by
  have hset : FdSet.ofSockets r.collectAll.allSockets = r.descriptors.take fdSetsize := by
    rw [FdSet.ofSockets_eq]
    exact BoundedSet.ofList_eq_take (hopened.nodup_snapshot r.sockets.length)
  rw [ready, List.mem_filter, hset, List.mem_take_iff_idxOf_lt hfd]
  rfl

/-- **One undisturbed run** reads the first clients once, and no other. -/
theorem served_of_loop {capacity : ℕ} {r r' : SelectReceiver β} (hopened : Opened r)
    (hstart : r.place = .start) (hloop : Loop capacity r r') :
    (SameListing r r' ∧ r'.place = .start) ∧
      ∀ fd ∈ r.descriptors, ∀ id, r.handle fd = some id →
        Served (if r.descriptors.idxOf fd < fdSetsize then capacity else 0) r r' id := by
  have hquiet {fd id : ℕ} (hid : r.handle fd = some id) (hlive : ¬ r.live fd = true) :
      (r.connections id).unread = [] := by
    rw [live, hid] at hlive
    simp only [Channel.live, Bool.or_eq_true, Bool.not_eq_true', not_or,
      Bool.not_eq_false, List.isEmpty_iff] at hlive
    exact hlive.1
  cases hloop with
  | nothing hnone =>
      refine ⟨⟨⟨rfl, rfl, rfl, fun _ => rfl⟩, hstart⟩, fun fd hfd id hid => ?_⟩
      have hserved : Served 0 r r.collectAll id := Served.nothing rfl rfl
      split
      case isFalse => exact hserved
      case isTrue hfirst =>
        refine hserved.of_unread_nil (hquiet hid fun hlive => ?_) capacity
        have hmem := (mem_ready hopened hfd).2 ⟨hfirst, hlive⟩
        rw [hnone] at hmem
        exact List.not_mem_nil hmem
  | served kept hsome horder =>
      have hfst := horder.map Prod.fst
      have hsub : (r.collectAll.matching.map Prod.fst).Sublist r.descriptors :=
        List.filter_sublist.map Prod.fst
      have hnodup : (kept.map Prod.fst).Nodup :=
        hfst.nodup_iff.2 ((hopened.nodup_snapshot r.sockets.length).sublist hsub)
      have hkept {fd : ℕ} (hfd : fd ∈ r.descriptors) :
          fd ∈ kept.map Prod.fst ↔ fd ∈ r.collectAll.ready := by
        rw [hfst.mem_iff]
        constructor
        · intro hmem
          obtain ⟨pair, hpair, rfl⟩ := List.mem_map.1 hmem
          exact of_decide_eq_true (List.mem_filter.1 hpair).2
        · intro hready
          obtain ⟨pair, hpair, rfl⟩ := List.mem_map.1 hfd
          exact List.mem_map_of_mem (List.mem_filter.2 ⟨hpair, decide_eq_true hready⟩)
      have hbefore : Opened (r.collectAll.select kept) :=
        hopened.congr rfl rfl rfl fun _ => rfl
      have hframe : SameListing r (readFromSockets capacity kept (r.collectAll.select kept)) := by
        have hreads := sameListing_readFromSockets capacity kept (r.collectAll.select kept)
        exact ⟨hreads.sockets, hreads.count, hreads.handle, hreads.index⟩
      refine ⟨⟨⟨hframe.sockets, hframe.count, hframe.handle, hframe.index⟩, rfl⟩,
        fun fd hfd id hid => ?_⟩
      have hserved := served_readFromSockets capacity hbefore hnodup
        (show (r.collectAll.select kept).handle fd = some id from hid)
      simp only [hkept hfd, mem_ready hopened hfd] at hserved
      by_cases hlive : r.live fd = true
      · simp only [hlive, and_true] at hserved
        exact ⟨hserved.unread, hserved.dispatched⟩
      · rw [if_neg fun h => hlive h.2] at hserved
        have hnil := hquiet hid hlive
        have hzero : Served 0 r
            { readFromSockets capacity kept (r.collectAll.select kept) with place := .start } id :=
          ⟨hserved.unread, hserved.dispatched⟩
        exact hzero.of_unread_nil hnil _

/-- Any number of undisturbed runs. -/
theorem served_of_loops_opened {capacity n : ℕ} {r r' : SelectReceiver β} (hopened : Opened r)
    (hstart : r.place = .start) (hloops : Loops capacity n r r') {fd id : ℕ}
    (hfd : fd ∈ r.descriptors) (hid : r.handle fd = some id) :
    Served (if r.descriptors.idxOf fd < fdSetsize then n * capacity else 0) r r' id := by
  induction hloops with
  | zero r =>
      rw [Nat.zero_mul, ite_self]
      exact Served.nothing rfl rfl
  | @succ n r r' r'' hfirst _ ih =>
      obtain ⟨⟨hframe, hplace⟩, hserved⟩ := served_of_loop hopened hstart hfirst
      have hone := hserved fd hfd id hid
      have hrest := ih (hframe.opened hopened) hplace (hframe.descriptors.symm ▸ hfd)
        (hframe.handle.symm ▸ hid)
      have htotal := hone.trans hrest
      rw [hframe.descriptors] at htotal
      split at htotal
      case isTrue hlt =>
        rw [Nat.add_comm capacity, ← Nat.succ_mul] at htotal
        rwa [if_pos hlt]
      case isFalse hge => rwa [if_neg hge]

/-- The invariant holds in every state that is reached. -/
theorem opened_of_run {created : List (String × String)} {capacity : ℕ} {r : SelectReceiver β}
    (hrun : Relation.ReflTransGen (Step capacity) (new created) r) : Opened r :=
  Transition.invariant_of_run (I := Opened) (fun h hstep => h.step hstep) (opened_new created)
    hrun

/-- Any number of undisturbed runs of `loop` are a run. -/
theorem Loops.run {capacity n : ℕ} {r r' : SelectReceiver β} (hopened : Opened r)
    (hstart : r.place = .start) (hloops : Loops capacity n r r') :
    Relation.ReflTransGen (Step capacity) r r' := by
  induction hloops with
  | zero r => exact Relation.ReflTransGen.refl
  | succ hfirst _ ih =>
      obtain ⟨⟨hframe, hplace⟩, -⟩ := served_of_loop hopened hstart hfirst
      exact (hfirst.run hopened hstart).trans (ih (hframe.opened hopened) hplace)

/-- **Who is served.**  From every state that can be reached, `n` undisturbed runs of `loop` are
a run, and they read `n` times the buffer, or all there is, of the first 64 clients, and nothing
of the others. -/
theorem served_of_loops {created : List (String × String)} {capacity n : ℕ}
    {r r' : SelectReceiver β} (hrun : Relation.ReflTransGen (Step capacity) (new created) r)
    (hstart : r.place = .start) (hloops : Loops capacity n r r') :
    Relation.ReflTransGen (Step capacity) r r' ∧
      ∀ fd ∈ r.descriptors, ∀ id, r.handle fd = some id →
        Served (if r.descriptors.idxOf fd < fdSetsize then n * capacity else 0) r r' id := by
  have hopened := opened_of_run hrun
  exact ⟨hloops.run hopened hstart,
    fun _ hfd _ hid => served_of_loops_opened hopened hstart hloops hfd hid⟩

/-- A client that has sent three bytes. -/
theorem served_of_loops_oneClient :
    Served (if oneClient.descriptors.idxOf 7 < fdSetsize then 1 * 2 else 0) oneClient
      { readFromSockets 2 [(7, "name")] (oneClient.collectAll.select [(7, "name")]) with
        place := .start } 0 :=
  (served_of_loops oneClient_run rfl
    (Loops.succ (Loop.served [(7, "name")] (by decide) (List.Perm.refl _)) (Loops.zero _))).2
    7 (by decide) 0 rfl

/-! ## A client behind 64 others -/

/-- The step drops no client. -/
def DropsNone (r r' : SelectReceiver β) : Prop :=
  ∀ fd, Listed r.sockets fd → Listed r'.sockets fd

/-- A client that is added comes behind the others. -/
theorem clients_add_prefix (sockets : List IpcSocket) (index fd : ℕ) :
    clients sockets index <+:
      clients (sockets.modify index (IpcSocket.addClientDecriptor fd)) index := by
  rw [clients, clients, List.getElem?_modify_eq]
  cases sockets[index]? with
  | none => exact List.prefix_rfl
  | some socket =>
      change socket.clientsDescriptor <+: (socket.addClientDecriptor fd).clientsDescriptor
      rw [IpcSocket.addClientDecriptor]
      split
      case isTrue => exact List.prefix_rfl
      case isFalse => exact List.prefix_append _ _

/-- Such a step adds clients behind the others, if it does anything to the sockets. -/
theorem prefix_of_dropsNone {capacity : ℕ} {r r' : SelectReceiver β} (hopened : Opened r)
    (hstep : Step capacity r r') (hkeeps : DropsNone r r') :
    r'.sockets.length = r.sockets.length ∧
      ∀ index, clients r.sockets index <+: clients r'.sockets index := by
  cases hstep with
  | accept index fd _ _ _ _ =>
      refine ⟨List.length_modify .., fun other => ?_⟩
      by_cases heq : index = other
      · subst heq
        exact clients_add_prefix r.sockets index fd
      · rw [SelectReceiver.accept, Sockets.clients_modify_ne _ _ heq]
  | unlist index fd hlisted =>
      obtain ⟨other, hother⟩ := hkeeps fd ⟨index, hlisted⟩
      rw [SelectReceiver.unlist, Sockets.mem_clients_remove] at hother
      exact absurd ⟨hopened.index_eq hlisted hother.1, rfl⟩ hother.2
  | read pair rest _ =>
      have hsockets := (readFrom_frame capacity pair r).1
      exact ⟨congrArg List.length hsockets, fun index => hsockets ▸ List.prefix_rfl⟩
  | close | arrive | finish | clear | collect | endCollect | select | selectNone | readFails
    | endRead => exact ⟨rfl, fun _ => List.prefix_rfl⟩

/-- A listed client that is not dropped stays open. -/
theorem handle_of_dropsNone {capacity : ℕ} {r r' : SelectReceiver β}
    (hstep : Step capacity r r') {fd id : ℕ} (hlisted : Listed r.sockets fd)
    (hid : r.handle fd = some id) : r'.handle fd = some id := by
  cases hstep with
  | accept index other _ _ _ hunused =>
      have hne : fd ≠ other := by
        rintro rfl
        rw [hunused] at hid
        cases hid
      rwa [handle_accept, Function.update_of_ne hne]
  | close other hunlisted =>
      have hne : fd ≠ other := by
        rintro rfl
        exact hunlisted hlisted
      rwa [handle_close, Function.update_of_ne hne]
  | read pair rest _ => exact (readFrom_frame capacity pair r).2.2 ▸ hid
  | unlist | arrive | finish | clear | collect | endCollect | select | selectNone | readFails
    | endRead => exact hid

/-- The clients of the first sockets have been copied, those of `r₀` among them. -/
structure Copied (r₀ r : SelectReceiver β) (count : ℕ) : Prop where
  sublist : ((r₀.snapshot count).map Prod.fst).Sublist (r.allSockets.map Prod.fst)
  nodup : (r.allSockets.map Prod.fst).Nodup
  mem : ∀ fd ∈ r.allSockets.map Prod.fst, ∃ index < count, fd ∈ clients r.sockets index

/-- What the receiver has copied, when no client has been dropped since `r₀`. -/
def CopiedAt (r₀ r : SelectReceiver β) (fd : ℕ) : Prop :=
  match r.place with
  | .start => True
  | .collecting count => count ≤ r₀.sockets.length ∧ Copied r₀ r count
  | .collected => Copied r₀ r r₀.sockets.length
  | .reading rest => fd ∉ rest.map Prod.fst

/-- The client waits. -/
structure Waiting (r₀ : SelectReceiver β) (fd id : ℕ) (r : SelectReceiver β) : Prop where
  opened : Opened r
  length : r.sockets.length = r₀.sockets.length
  before : ∀ index, clients r₀.sockets index <+: clients r.sockets index
  handle : r.handle fd = some id
  dispatched : r.dispatchedOf id = r₀.dispatchedOf id
  copied : CopiedAt r₀ r fd

/-- Clients that are added behind the others do not disturb the copies. -/
theorem Copied.mono {r₀ r r' : SelectReceiver β} {count : ℕ} (h : Copied r₀ r count)
    (hall : r'.allSockets = r.allSockets)
    (hgrow : ∀ index, clients r.sockets index <+: clients r'.sockets index) :
    Copied r₀ r' count where
  sublist := hall ▸ h.sublist
  nodup := hall ▸ h.nodup
  mem := by
    rw [hall]
    intro fd hfd
    obtain ⟨index, hlt, hmem⟩ := h.mem fd hfd
    exact ⟨index, hlt, (hgrow index).subset hmem⟩

/-- The others do not touch what has been copied. -/
theorem CopiedAt.mono {r₀ r r' : SelectReceiver β} {fd : ℕ} (h : CopiedAt r₀ r fd)
    (hplace : r'.place = r.place) (hall : r'.allSockets = r.allSockets)
    (hgrow : ∀ index, clients r.sockets index <+: clients r'.sockets index) :
    CopiedAt r₀ r' fd := by
  rw [CopiedAt] at h ⊢
  rw [hplace]
  cases hat : r.place with
  | start => trivial
  | collecting count =>
      rw [hat] at h
      exact ⟨h.1, h.2.mono hall hgrow⟩
  | collected =>
      rw [hat] at h
      exact Copied.mono h hall hgrow
  | reading rest =>
      rw [hat] at h
      exact h

/-- The client is not among those to be read. -/
theorem CopiedAt.not_mem {r₀ r : SelectReceiver β} {fd : ℕ} (h : CopiedAt r₀ r fd)
    {rest : List (ℕ × String)} (hreading : r.place = .reading rest) : fd ∉ rest.map Prod.fst := by
  rw [CopiedAt, hreading] at h
  exact h

/-- The next socket is copied. -/
theorem Copied.collect {r₀ r : SelectReceiver β} {count : ℕ} (h : Copied r₀ r count)
    (hopened : Opened r) (hbefore : clients r₀.sockets count <+: clients r.sockets count) :
    Copied r₀ (r.collect count) (count + 1) := by
  have hall : (r.collect count).allSockets.map Prod.fst =
      r.allSockets.map Prod.fst ++ clients r.sockets count := by
    rw [SelectReceiver.collect, List.map_append, fst_copy]
  refine ⟨?_, ?_, ?_⟩
  · rw [hall, snapshot_succ, List.map_append, fst_copy]
    exact h.sublist.append hbefore.sublist
  · rw [hall]
    exact hopened.nodup_append h.nodup h.mem
  · rw [hall]
    intro fd hfd
    rcases List.mem_append.1 hfd with hold | hnew
    · obtain ⟨index, hlt, hmem⟩ := h.mem fd hold
      exact ⟨index, Nat.lt_succ_of_lt hlt, hmem⟩
    · exact ⟨count, Nat.lt_succ_self count, hnew⟩

/-- `select` is not asked about the client. -/
theorem Copied.not_mem_ready {r₀ r : SelectReceiver β} (h : Copied r₀ r r₀.sockets.length)
    {fd : ℕ} (hfd : fd ∈ r₀.descriptors) (hbehind : fdSetsize ≤ r₀.descriptors.idxOf fd) :
    fd ∉ r.ready := by
  intro hready
  have hset := (List.mem_filter.1 hready).1
  rw [FdSet.ofSockets_eq] at hset
  exact BoundedSet.not_mem_ofList h.sublist h.nodup hfd hbehind hset

/-- The client is not read. -/
theorem dispatchedOf_step {capacity : ℕ} {r₀ r r' : SelectReceiver β} {fd id : ℕ}
    (h : Waiting r₀ fd id r) (hstep : Step capacity r r') :
    r'.dispatchedOf id = r.dispatchedOf id := by
  cases hstep with
  | read pair rest hreading =>
      rcases readFrom_cases capacity pair r with heq | ⟨other, hother, heq⟩
      · rw [heq]
        rfl
      · have hne : other ≠ id := by
          rintro rfl
          have hpair := h.opened.handle_inj pair.1 fd other hother h.handle
          exact h.copied.not_mem hreading (hpair ▸ List.mem_cons_self)
        have hdispatched := dispatchedOf_deliver capacity pair other r id
        rw [if_neg hne, List.append_nil, ← heq] at hdispatched
        exact hdispatched
  | accept | unlist | close | arrive | finish | clear | collect | endCollect | select | selectNone
    | readFails | endRead => rfl

section Starved

variable {capacity : ℕ} {r₀ : SelectReceiver β} {fd id : ℕ} (hfd : fd ∈ r₀.descriptors)
  (hbehind : fdSetsize ≤ r₀.descriptors.idxOf fd)
include hfd hbehind

/-- A step that adds clients behind the others keeps the copies as they should be. -/
theorem copiedAt_step {r r' : SelectReceiver β} (h : Waiting r₀ fd id r)
    (hstep : Step capacity r r')
    (hgrow : ∀ index, clients r.sockets index <+: clients r'.sockets index) :
    CopiedAt r₀ r' fd := by
  have hcopied := h.copied
  cases hstep with
  | accept | unlist | close | arrive | finish => exact hcopied.mono rfl rfl hgrow
  | clear => exact ⟨Nat.zero_le _, ⟨List.nil_sublist _, List.nodup_nil,
      fun _ h => absurd h List.not_mem_nil⟩⟩
  | collect count hcollecting hlt =>
      rw [CopiedAt, hcollecting] at hcopied
      exact ⟨h.length ▸ hlt, hcopied.2.collect h.opened (h.before count)⟩
  | endCollect count hcollecting hlast =>
      rw [CopiedAt, hcollecting] at hcopied
      have hcount : count = r₀.sockets.length := Nat.le_antisymm hcopied.1 (h.length ▸ hlast)
      subst hcount
      rw [endCollect]
      by_cases hempty : r.allSockets.isEmpty = true
      · rw [if_pos hempty]
        trivial
      · rw [if_neg hempty]
        exact hcopied.2.mono rfl fun _ => List.prefix_rfl
  | select kept hcollected _ _ horder =>
      rw [CopiedAt, hcollected] at hcopied
      intro hmem
      obtain ⟨pair, hpair, rfl⟩ := List.mem_map.1 hmem
      have hready := of_decide_eq_true (List.mem_filter.1 (horder.mem_iff.1 hpair)).2
      exact Copied.not_mem_ready hcopied hfd hbehind hready
  | selectNone => trivial
  | read pair rest hreading =>
      exact fun hmem => hcopied.not_mem hreading (List.mem_cons_of_mem _ hmem)
  | readFails pair rest hreading =>
      exact fun hmem => hcopied.not_mem hreading (List.mem_cons_of_mem _ hmem)
  | endRead => trivial

/-- Every step that drops nobody keeps the client waiting. -/
theorem Waiting.step {r r' : SelectReceiver β} (h : Waiting r₀ fd id r)
    (hstep : Step capacity r r') (hkeeps : DropsNone r r') : Waiting r₀ fd id r' := by
  obtain ⟨hlength, hgrow⟩ := prefix_of_dropsNone h.opened hstep hkeeps
  have hlisted : Listed r.sockets fd := by
    obtain ⟨index, hindex⟩ := (mem_descriptors r₀ fd).1 hfd
    exact ⟨index, (h.before index).subset hindex⟩
  exact
    { opened := h.opened.step hstep
      length := hlength.trans h.length
      before := fun index => (h.before index).trans (hgrow index)
      handle := handle_of_dropsNone hstep hlisted h.handle
      dispatched := (dispatchedOf_step h hstep).trans h.dispatched
      copied := copiedAt_step hfd hbehind h hstep hgrow }

/-- **A client behind 64 others is never read**, whatever it and the others send, whoever comes
and whoever hangs up, as long as no client is dropped. -/
theorem starved {created : List (String × String)}
    (hrun : Relation.ReflTransGen (Step capacity) (new created) r₀) (hstart : r₀.place = .start)
    (hid : r₀.handle fd = some id) {r : SelectReceiver β}
    (hlater : Relation.ReflTransGen (fun r r' => Step capacity r r' ∧ DropsNone r r') r₀ r) :
    r.dispatchedOf id = r₀.dispatchedOf id := by
  have hwaiting : Waiting r₀ fd id r₀ :=
    { opened := opened_of_run hrun
      length := rfl
      before := fun _ => List.prefix_rfl
      handle := hid
      dispatched := rfl
      copied := by
        rw [CopiedAt, hstart]
        trivial }
  exact (Transition.invariant_of_run (I := Waiting r₀ fd id)
    (fun h hstep => h.step hfd hbehind hstep.1 hstep.2) hwaiting hlater).dispatched

end Starved

/-- So many clients of one socket, each of which has sent a byte. -/
def crowd : ℕ → SelectReceiver ℕ
  | 0 => new [("tcp://localhost:4242", "name")]
  | n + 1 => (crowd n).accept 0 n [n] false

theorem handle_crowd (n fd : ℕ) (h : n ≤ fd) : (crowd n).handle fd = none := by
  induction n with
  | zero => rfl
  | succ n ih =>
      rw [crowd, handle_accept, Function.update_of_ne (Nat.lt_of_succ_le h).ne']
      exact ih (Nat.le_of_succ_le h)

/-- So many clients can connect. -/
theorem run_crowd (n : ℕ) : Relation.ReflTransGen (Step 2) (crowd 0) (crowd n) := by
  induction n with
  | zero => exact Relation.ReflTransGen.refl
  | succ n ih =>
      have hlength : ∀ n, (crowd n).sockets.length = 1 := by
        intro n
        induction n with
        | zero => rfl
        | succ n ih => rwa [crowd, accept, List.length_modify]
      exact ih.tail (Step.accept 0 n [n] false (hlength n ▸ Nat.one_pos) (handle_crowd n n le_rfl))

/-- The last of 65 clients has sent two bytes. -/
theorem starved_crowd :
    ((crowd 65).arrive 64 [1, 2]).dispatchedOf 64 = (crowd 65).dispatchedOf 64 :=
  starved (show 64 ∈ (crowd 65).descriptors by decide +kernel) (by decide +kernel)
    (run_crowd 65) rfl rfl
    (Relation.ReflTransGen.single ⟨Step.arrive 64 [1, 2] (by decide +kernel) rfl, fun _ h => h⟩)

end SelectReceiver

end NewCPP.Ipc
