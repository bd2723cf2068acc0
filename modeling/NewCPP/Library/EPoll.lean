import Mathlib.Data.List.Nodup
import Mathlib.Tactic.Common

/-!
# Edge-triggered readiness

An instance of `epoll` all of whose descriptors are registered with `EPOLLET`.  The kernel
keeps the descriptors that are registered and, in order, those of which something has been
noticed since they were last reported.

* `add`, `del` — `epoll_ctl`; a descriptor that has something to report when it is
  registered is noticed at once.
* `notify` — something happens to a descriptor.
* `wait` — `epoll_wait`: what is reported is not noticed again until something happens.
* `Noticed` — no descriptor with something to report is overlooked, and what keeps this so.

## Design notes

**What there is to report.**  `live` says of which descriptors there is.  One that was
noticed and has nothing to report any more is passed over and forgotten.

**Invariants.**  `Noticed` and `Fetched` are over what was noticed and what a caller has fetched
and not served yet.  Both have one lemma for each operation, so that the invariant of a loop
around `wait` is put together from them.

**Descriptors** are of any type with decidable equality.  The list of those that are ready has
no repetitions and is part of those registered; both are fields of `EPoll`.
-/

namespace Library

universe u

variable {ι : Type u}

/-- The registered descriptors and the ready list. -/
structure EPoll (ι : Type u) where
  interest : List ι
  ready : List ι
  nodup : ready.Nodup
  subset : ready ⊆ interest

namespace EPoll

/-- Nothing is registered. -/
def empty : EPoll ι := ⟨[], [], List.nodup_nil, List.nil_subset _⟩

/-- The first descriptors, at most `max`, that have something to report, and those that
stay noticed. -/
def report (live : ι → Bool) : ℕ → List ι → List ι × List ι
  | 0, ready => ([], ready)
  | _ + 1, [] => ([], [])
  | max + 1, fd :: ready =>
      if live fd then
        let reported := report live max ready
        (fd :: reported.1, reported.2)
      else report live (max + 1) ready

/-- What is reported and what stays ready were both ready before. -/
theorem report_sublist (live : ι → Bool) :
    ∀ (max : ℕ) (ready : List ι),
      ((report live max ready).1 ++ (report live max ready).2).Sublist ready
  | 0, ready => by rw [report]; exact List.Sublist.refl ready
  | _ + 1, [] => List.Sublist.refl []
  | max + 1, fd :: ready => by
      rw [report]
      split
      · exact (report_sublist live max ready).cons_cons fd
      · exact (report_sublist live (max + 1) ready).cons fd

/-- Only what is live is reported. -/
theorem live_of_mem_report {live : ι → Bool} {fd : ι} :
    ∀ {max : ℕ} {ready : List ι}, fd ∈ (report live max ready).1 → live fd = true
  | 0, ready, h => by simp [report] at h
  | _ + 1, [], h => by simp [report] at h
  | max + 1, other :: ready, h => by
      rw [report] at h
      split at h
      · rename_i hlive
        rcases List.mem_cons.1 h with rfl | h
        · exact hlive
        · exact live_of_mem_report h
      · exact live_of_mem_report h

/-- No descriptor that has something to report is forgotten. -/
theorem mem_report {live : ι → Bool} {fd : ι} (hlive : live fd = true) :
    ∀ (max : ℕ) {ready : List ι}, fd ∈ ready →
      fd ∈ (report live max ready).1 ∨ fd ∈ (report live max ready).2
  | 0, ready, h => by rw [report]; exact Or.inr h
  | max + 1, other :: ready, h => by
      rw [report]
      split
      · rcases List.mem_cons.1 h with rfl | h
        · exact Or.inl (List.mem_cons_self ..)
        · rcases mem_report hlive max h with h | h
          · exact Or.inl (List.mem_cons_of_mem _ h)
          · exact Or.inr h
      · rename_i hother
        rcases List.mem_cons.1 h with rfl | h
        · exact absurd hlive hother
        · exact mem_report hlive (max + 1) h

/-- `epoll_wait` with room for `max` events: what is reported, and what is left. -/
def wait (max : ℕ) (live : ι → Bool) (poll : EPoll ι) : List ι × EPoll ι :=
  let reported := report live max poll.ready
  (reported.1,
    { interest := poll.interest
      ready := reported.2
      nodup := ((report_sublist live max poll.ready).nodup poll.nodup).of_append_right
      subset := fun _ h => poll.subset
        ((report_sublist live max poll.ready).subset (List.mem_append_right _ h)) })

/-! ## What a wait reports -/

section

variable {max : ℕ} {live : ι → Bool} {poll : EPoll ι} {fd : ι}

/-- Nothing is reported twice. -/
theorem nodup_wait : (poll.wait max live).1.Nodup :=
  ((report_sublist live max poll.ready).nodup poll.nodup).of_append_left

theorem mem_ready_of_mem_wait (h : fd ∈ (poll.wait max live).1) : fd ∈ poll.ready :=
  (report_sublist live max poll.ready).subset (List.mem_append_left _ h)

/-- What is reported is not noticed any more. -/
theorem not_mem_ready_of_mem_wait (h : fd ∈ (poll.wait max live).1) :
    fd ∉ (poll.wait max live).2.ready := by
  have hnodup := (report_sublist live max poll.ready).nodup poll.nodup
  exact fun hready => List.disjoint_of_nodup_append hnodup h hready

theorem live_of_mem_wait (h : fd ∈ (poll.wait max live).1) : live fd = true :=
  live_of_mem_report h

/-- What is ready and live is reported now or stays ready. -/
theorem mem_wait_or_ready (hready : fd ∈ poll.ready) (hlive : live fd = true) :
    fd ∈ (poll.wait max live).1 ∨ fd ∈ (poll.wait max live).2.ready :=
  mem_report hlive max hready

end

/-! ## Registering and noticing -/

variable [DecidableEq ι]

/-- Something happens to a descriptor. -/
def notify (fd : ι) (poll : EPoll ι) : EPoll ι :=
  if h : fd ∈ poll.interest ∧ fd ∉ poll.ready then
    { interest := poll.interest
      ready := poll.ready ++ [fd]
      nodup := poll.nodup.append (List.nodup_singleton fd) (by simpa using h.2)
      subset := by simpa using ⟨poll.subset, h.1⟩ }
  else poll

/-- `EPOLL_CTL_ADD` of a descriptor that has something to report or not. -/
def add (fd : ι) (live : Bool) (poll : EPoll ι) : EPoll ι :=
  if fd ∈ poll.interest then poll
  else
    let added : EPoll ι :=
      { interest := fd :: poll.interest
        ready := poll.ready
        nodup := poll.nodup
        subset := List.subset_cons_of_subset fd poll.subset }
    if live then added.notify fd else added

/-- `EPOLL_CTL_DEL`. -/
def del (fd : ι) (poll : EPoll ι) : EPoll ι :=
  { interest := poll.interest.filter (· ≠ fd)
    ready := poll.ready.filter (· ≠ fd)
    nodup := poll.nodup.filter _
    subset := fun other h => by
      rw [List.mem_filter] at h ⊢
      exact ⟨poll.subset h.1, h.2⟩ }

section

variable (poll : EPoll ι) (fd other : ι)

/-- An event registers nothing. -/
@[simp] theorem interest_notify : (poll.notify fd).interest = poll.interest := by
  rw [notify]
  split <;> rfl

/-- An event makes its descriptor ready, if that is registered. -/
theorem mem_ready_notify :
    other ∈ (poll.notify fd).ready ↔
      other ∈ poll.ready ∨ other = fd ∧ fd ∈ poll.interest := by
  rw [notify]
  split
  · rename_i h
    simp [h.1]
  · rename_i h
    rw [not_and_not_right] at h
    constructor
    · exact Or.inl
    · rintro (hready | ⟨rfl, hinterest⟩)
      · exact hready
      · exact h hinterest

/-- One registration more. -/
theorem mem_interest_add (live : Bool) :
    other ∈ (poll.add fd live).interest ↔ other ∈ poll.interest ∨ other = fd := by
  rw [add]
  split
  · rename_i h
    constructor
    · exact Or.inl
    · rintro (hinterest | rfl)
      · exact hinterest
      · exact h
  · split <;> simp [or_comm]

/-- What was ready stays so. -/
theorem ready_subset_add (live : Bool) : poll.ready ⊆ (poll.add fd live).ready := by
  intro other hready
  rw [add]
  split
  · exact hready
  · split
    · exact (mem_ready_notify _ fd other).2 (Or.inl hready)
    · exact hready

/-- A descriptor that has something to report is noticed when it is registered. -/
theorem mem_ready_add_self (hnew : fd ∉ poll.interest) :
    fd ∈ (poll.add fd true).ready := by
  rw [add, if_neg hnew, if_pos rfl, mem_ready_notify]
  exact Or.inr ⟨rfl, List.mem_cons_self ..⟩

/-- Only the new one can have become ready, and only if it is live. -/
theorem mem_ready_of_add {live : Bool} (h : other ∈ (poll.add fd live).ready) :
    other ∈ poll.ready ∨ other = fd ∧ live = true := by
  rw [add] at h
  split at h
  · exact Or.inl h
  · split at h
    · rename_i hlive
      exact ((mem_ready_notify _ fd other).1 h).imp_right fun hself => ⟨hself.1, hlive⟩
    · exact Or.inl h

/-- One registration less. -/
@[simp] theorem mem_interest_del :
    other ∈ (poll.del fd).interest ↔ other ∈ poll.interest ∧ other ≠ fd := by
  simp [del]

/-- It is not ready any more either. -/
@[simp] theorem mem_ready_del :
    other ∈ (poll.del fd).ready ↔ other ∈ poll.ready ∧ other ≠ fd := by
  simp [del]

end

/-! ## Several descriptors -/

/-- Several registrations are removed. -/
def delAll (fds : List ι) (poll : EPoll ι) : EPoll ι :=
  fds.foldl (fun poll fd => poll.del fd) poll

/-- Several are added, those that are live at once ready. -/
def addAll (fds : List ι) (live : ι → Bool) (poll : EPoll ι) : EPoll ι :=
  fds.foldl (fun poll fd => poll.add fd (live fd)) poll

section

variable (fds : List ι) (live : ι → Bool) (poll : EPoll ι) (fd : ι)

/-- The same of several. -/
theorem mem_delAll :
    (fd ∈ (poll.delAll fds).interest ↔ fd ∈ poll.interest ∧ fd ∉ fds) ∧
      (fd ∈ (poll.delAll fds).ready ↔ fd ∈ poll.ready ∧ fd ∉ fds) := by
  induction fds generalizing poll with
  | nil => simp [delAll]
  | cons first rest ih =>
      obtain ⟨hinterest, hready⟩ := ih (poll.del first)
      constructor
      · show fd ∈ ((poll.del first).delAll rest).interest ↔ _
        rw [hinterest]
        simp [and_assoc]
      · show fd ∈ ((poll.del first).delAll rest).ready ↔ _
        rw [hready]
        simp [and_assoc]

/-- Several registrations more. -/
theorem mem_interest_addAll :
    fd ∈ (poll.addAll fds live).interest ↔ fd ∈ poll.interest ∨ fd ∈ fds := by
  induction fds generalizing poll with
  | nil => simp [addAll]
  | cons first rest ih =>
      show fd ∈ ((poll.add first (live first)).addAll rest live).interest ↔ _
      rw [ih, mem_interest_add, List.mem_cons, or_assoc]

/-- What was ready stays so. -/
theorem ready_subset_addAll : poll.ready ⊆ (poll.addAll fds live).ready := by
  induction fds generalizing poll with
  | nil => exact List.Subset.refl _
  | cons first rest ih => exact List.Subset.trans (ready_subset_add poll first _) (ih _)

/-- A descriptor that has something to report is noticed when it is registered. -/
theorem mem_ready_addAll (hlive : live fd = true) (hmem : fd ∈ fds)
    (hnew : fd ∉ poll.interest) : fd ∈ (poll.addAll fds live).ready := by
  induction fds generalizing poll with
  | nil => cases hmem
  | cons first rest ih =>
      show fd ∈ ((poll.add first (live first)).addAll rest live).ready
      by_cases hfirst : fd = first
      · subst hfirst
        rw [hlive]
        exact ready_subset_addAll rest live _ (mem_ready_add_self poll fd hnew)
      · refine ih _ ((List.mem_cons.1 hmem).resolve_left hfirst) ?_
        rw [mem_interest_add]
        exact not_or.2 ⟨hnew, hfirst⟩

/-- Only a descriptor that has something to report is noticed when it is registered. -/
theorem mem_ready_of_addAll (h : fd ∈ (poll.addAll fds live).ready) :
    fd ∈ poll.ready ∨ live fd = true := by
  induction fds generalizing poll with
  | nil => exact Or.inl h
  | cons first rest ih =>
      rcases ih (poll.add first (live first)) h with hready | hlive
      · rcases mem_ready_of_add poll first fd hready with hready | ⟨rfl, hlive⟩
        · exact Or.inl hready
        · exact Or.inr hlive
      · exact Or.inr hlive

end

/-! ## Nothing is overlooked -/

omit [DecidableEq ι] in
/-- A registered descriptor that has something to report has been noticed, or reported and
not served yet. -/
def Noticed (poll : EPoll ι) (reported : List ι) (live : ι → Bool) : Prop :=
  ∀ fd ∈ poll.interest, live fd = true → fd ∈ poll.ready ∨ fd ∈ reported

namespace Noticed

variable {poll : EPoll ι} {reported : List ι} {live live' : ι → Bool}

omit [DecidableEq ι] in
/-- With nothing registered there is nothing to notice. -/
theorem empty (reported : List ι) (live : ι → Bool) :
    Noticed (EPoll.empty : EPoll ι) reported live := by
  intro fd hfd
  cases hfd

omit [DecidableEq ι] in
/-- A wait turns what is noticed into what is reported, `live'` being what there is to report
of some of the descriptors. -/
theorem wait (h : Noticed poll [] live') (hle : ∀ fd, live' fd = true → live fd = true)
    (max : ℕ) : Noticed (poll.wait max live).2 (poll.wait max live).1 live' := by
  intro fd hfd hlive
  have hready := (h fd hfd hlive).resolve_right List.not_mem_nil
  exact (mem_wait_or_ready hready (hle fd hlive)).symm

omit [DecidableEq ι] in
/-- A descriptor has been served: either it has nothing more to report, or it is still
noticed. -/
theorem serve {fd : ι} (h : Noticed poll (fd :: reported) live)
    (hother : ∀ other, other ≠ fd → live' other = true → live other = true)
    (hself : live' fd = true → fd ∈ poll.ready ∨ fd ∈ reported) :
    Noticed poll reported live' := by
  intro other hinterest hlive
  by_cases heq : other = fd
  · subst heq
    exact hself hlive
  · exact (h other hinterest (hother other heq hlive)).imp_right fun hmem =>
      (List.mem_cons.1 hmem).resolve_left heq

/-- Something happens to one descriptor. -/
theorem notify {fd : ι} (h : Noticed poll reported live)
    (hother : ∀ other, other ≠ fd → live' other = true → live other = true) :
    Noticed (poll.notify fd) reported live' := by
  intro other hinterest hlive
  rw [interest_notify] at hinterest
  rw [mem_ready_notify]
  by_cases heq : other = fd
  · subst heq
    exact Or.inl (Or.inr ⟨rfl, hinterest⟩)
  · exact (h other hinterest (hother other heq hlive)).imp_left Or.inl

/-- Descriptors are removed. -/
theorem delAll (h : Noticed poll reported live) (fds : List ι) :
    Noticed (poll.delAll fds) reported live := by
  intro fd hinterest hlive
  rw [(mem_delAll _ _ _).1] at hinterest
  rw [(mem_delAll _ _ _).2]
  exact (h fd hinterest.1 hlive).imp_left fun hready => ⟨hready, hinterest.2⟩

/-- Descriptors are registered. -/
theorem addAll (h : Noticed poll reported live')
    (hle : ∀ fd, live' fd = true → live fd = true) (fds : List ι) :
    Noticed (poll.addAll fds live) reported live' := by
  intro fd hinterest hlive
  by_cases hold : fd ∈ poll.interest
  · exact (h fd hold hlive).imp_left fun hready => ready_subset_addAll fds live poll hready
  · rw [mem_interest_addAll] at hinterest
    exact Or.inl
      (mem_ready_addAll fds live poll fd (hle fd hlive) (hinterest.resolve_left hold) hold)

end Noticed

/-! ## What has been reported -/

omit [DecidableEq ι] in
/-- What is reported and not served yet is registered, each descriptor once. -/
structure Fetched (poll : EPoll ι) (reported : List ι) : Prop where
  nodup : reported.Nodup
  interest : ∀ fd ∈ reported, fd ∈ poll.interest

namespace Fetched

variable {poll : EPoll ι} {reported : List ι}

omit [DecidableEq ι] in
theorem nil (poll : EPoll ι) : Fetched poll [] :=
  ⟨List.nodup_nil, fun _ hfd => absurd hfd List.not_mem_nil⟩

omit [DecidableEq ι] in
/-- What a wait reports is registered. -/
theorem wait (poll : EPoll ι) (max : ℕ) (live : ι → Bool) :
    Fetched (poll.wait max live).2 (poll.wait max live).1 :=
  ⟨nodup_wait, fun _ hfd => poll.subset (mem_ready_of_mem_wait hfd)⟩

omit [DecidableEq ι] in
/-- One of the reported is served. -/
theorem serve {fd : ι} (h : Fetched poll (fd :: reported)) : Fetched poll reported :=
  ⟨h.nodup.of_cons, fun other hother => h.interest other (List.mem_cons_of_mem fd hother)⟩

/-- An event does not take a registration back. -/
theorem notify (h : Fetched poll reported) (fd : ι) : Fetched (poll.notify fd) reported := by
  refine ⟨h.nodup, fun other hother => ?_⟩
  rw [interest_notify]
  exact h.interest other hother

omit [DecidableEq ι] in
/-- Once it is served a descriptor is pending only if it has been noticed again. -/
theorem not_mem_serve {fd : ι} (h : Fetched poll (fd :: reported)) : fd ∉ reported :=
  (List.nodup_cons.1 h.nodup).1

end Fetched

end EPoll

end Library
