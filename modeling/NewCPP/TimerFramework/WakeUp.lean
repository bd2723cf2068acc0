import Mathlib.Algebra.Order.BigOperators.Group.Finset
import NewCPP.TimerFramework.EventOrder

/-!
# No wake-up is lost

`SendEvent` notifies after it has released the mutex, so the notification may find nobody on
`_Cv`, or a thread other than the one that will take the event.  However often the worker has
been started and stopped, and with however many threads in `Run`, the threads of a started
worker get to the end of the queue by themselves.

* `drained` — in every state that a run reaches in which there is a thread and no stop is
  requested, the threads and the notifications that are due can make so many steps only, and
  where they can make no more the queue is empty and all that was in it has been dispatched, in
  its order.

## Design notes

**Who watches the queue.**  While there is an event, a notification is due or a thread is
awake (`Watched`).  Whoever falls asleep has seen the queue empty; a notification that is
spent has woken somebody up or has found nobody asleep.

**The measure.**  `effort` pays for every notification with a thread that is woken up, looks
at the queue and falls asleep again, and for every event with one round of the loop.
-/

namespace NewCPP.WorkerThread

open Library

universe u

variable {E : Type u}

namespace Worker

/-! ## Somebody watches the queue -/

/-- The thread executes `Run` and does not wait on `_Cv`. -/
def Awake (w : Default E) (thread : ℕ) : Prop :=
  w.Runs thread ∧ thread ∉ w.shared.waiting

/-- **The events of a started worker are watched.** -/
structure Watched (w : Default E) : Prop where
  asleep : ∀ thread ∈ w.shared.waiting, w.threads[thread]? = some (.loop .asleep)
  nodup : w.shared.waiting.Nodup
  /-- The flag is reset before the owner is back. -/
  idle : w.owner = .idle → w.thread.isSome → w.stopRequested = false
  starting : w.owner = .starting → w.stopRequested = false
  runs : w.stopRequested = false → ∀ thread, w.thread = some thread → w.Runs thread
  watched : w.stopRequested = false → w.thread.isSome → w.shared.queue ≠ [] →
    0 < w.shared.notifying ∨ ∃ thread, w.Awake thread

/-- A thread that is not at the condition variable is not among those that wait there. -/
theorem Watched.not_mem {w : Default E} (h : w.Watched) {thread : ℕ}
    {place : Place (Position E)} (hplace : w.threads[thread]? = some place)
    (hawake : place ≠ .loop .asleep) : thread ∉ w.shared.waiting := by
  intro hwaits
  rw [h.asleep thread hwaits] at hplace
  exact hawake (Option.some.inj hplace).symm

/-- **What a step of the loop does to the wait**: its thread falls asleep before an empty
queue, or is awake. -/
theorem Watched.wait_cases {w : Default E} (h : w.Watched) {spurious stop : Bool} {thread : ℕ}
    {position : Position E} {shared : Events E} {next : Option (Position E)}
    (hloops : w.threads[thread]? = some (.loop position))
    (hsteps : DispatcherStep spurious stop thread w.shared position shared next) :
    (shared.queue = [] ∧ thread ∉ w.shared.waiting ∧
        shared.waiting = thread :: w.shared.waiting ∧ next = some .asleep) ∨
      (shared.waiting.Sublist w.shared.waiting ∧ thread ∉ shared.waiting) := by
  cases hsteps with
  | sleeps hempty =>
      exact Or.inl ⟨hempty, h.not_mem hloops (by rintro ⟨⟩), rfl, rfl⟩
  | awakes hnotified => exact Or.inr ⟨List.Sublist.refl _, hnotified⟩
  | wakes _ =>
      exact Or.inr ⟨List.erase_sublist, fun hmem => (h.nodup.mem_erase_iff.1 hmem).1 rfl⟩
  | returns | goes | takes | dispatched =>
      exact Or.inr ⟨List.Sublist.refl _, h.not_mem hloops (by rintro ⟨⟩)⟩

/-- Whoever runs still does when a thread is put somewhere in `Run`. -/
theorem Runs.set {w w' : Default E} {thread other : ℕ} {place : Place (Position E)}
    (h : w.Runs other) (hthreads : w'.threads = w.threads.set thread place)
    (hexited : place ≠ .exited) : w'.Runs other := by
  obtain ⟨place', hplace', hexited'⟩ := h
  have hlt := (List.getElem?_eq_some_iff.1 hplace').1
  by_cases hother : thread = other
  · subst hother
    exact ⟨place, by rw [hthreads, List.getElem?_set_self hlt], hexited⟩
  · exact ⟨place', by rw [hthreads, List.getElem?_set_ne hother, hplace'], hexited'⟩

theorem afterLoop_ne_exited (next : Option (Position E)) : afterLoop next ≠ .exited := by
  cases next <;> rintro ⟨⟩

theorem Watched.loop {w : Default E} (h : w.Watched) {spurious : Bool} {thread : ℕ}
    {position : Position E} {shared : Events E} {next : Option (Position E)}
    (hloops : w.threads[thread]? = some (.loop position))
    (hsteps : DispatcherStep spurious w.stopRequested thread w.shared position shared next) :
    ({ w with shared := shared, threads := w.threads.set thread (afterLoop next) } :
      Default E).Watched := by
  have hlt := (List.getElem?_eq_some_iff.1 hloops).1
  have hruns : ({ w with
      shared := shared, threads := w.threads.set thread (afterLoop next) } : Default E).Runs
      thread :=
    ⟨afterLoop next, List.getElem?_set_self hlt, afterLoop_ne_exited next⟩
  have hkept : ∀ other, w.Runs other → ({ w with
      shared := shared, threads := w.threads.set thread (afterLoop next) } : Default E).Runs
      other :=
    fun other hother => hother.set rfl (afterLoop_ne_exited next)
  rcases h.wait_cases hloops hsteps with ⟨hempty, hfresh, hwaiting, rfl⟩ | ⟨hsub, hawake⟩
  · -- it has fallen asleep
    refine ⟨fun sleeper hsleeper => ?_, ?_, h.idle, h.starting,
      fun hflag other hother => hkept other (h.runs hflag other hother),
      fun _ _ hqueue => absurd hempty hqueue⟩
    · change sleeper ∈ shared.waiting at hsleeper
      show (w.threads.set thread (.loop .asleep))[sleeper]? = some (.loop .asleep)
      rw [hwaiting, List.mem_cons] at hsleeper
      rcases hsleeper with rfl | hold
      · exact List.getElem?_set_self hlt
      · have hother : thread ≠ sleeper := by
          rintro rfl
          exact hfresh hold
        rw [List.getElem?_set_ne hother]
        exact h.asleep sleeper hold
    · show shared.waiting.Nodup
      rw [hwaiting]
      exact List.nodup_cons.2 ⟨hfresh, h.nodup⟩
  · -- it is awake and will look at the queue
    refine ⟨fun sleeper hsleeper => ?_, h.nodup.sublist hsub, h.idle, h.starting,
      fun hflag other hother => hkept other (h.runs hflag other hother),
      fun _ _ _ => Or.inr ⟨thread, hruns, hawake⟩⟩
    have hother : thread ≠ sleeper := by
      rintro rfl
      exact hawake hsleeper
    show (w.threads.set thread (afterLoop next))[sleeper]? = some (.loop .asleep)
    rw [List.getElem?_set_ne hother]
    exact h.asleep sleeper (hsub.subset hsleeper)

theorem Watched.client {w : Default E} (h : w.Watched) {thread : Option ℕ} {shared : Events E}
    (hsteps : SendEvent thread w.shared shared) :
    ({ w with shared := shared } : Default E).Watched := by
  cases hsteps with
  | send event _ => exact ⟨h.asleep, h.nodup, h.idle, h.starting, h.runs, h.watched⟩
  | push before after event _ =>
      exact ⟨h.asleep, h.nodup, h.idle, h.starting, h.runs,
        fun _ _ _ => Or.inl (Nat.succ_pos _)⟩
  | notify hnotifies =>
      cases hnotifies with
      | nobody left _ hempty =>
          refine ⟨h.asleep, h.nodup, h.idle, h.starting, h.runs, fun hflag hthread _ => ?_⟩
          -- nobody waits, so the worker's own thread is awake
          obtain ⟨thread, hthread⟩ := Option.isSome_iff_exists.1 hthread
          refine Or.inr ⟨thread, h.runs hflag thread hthread, ?_⟩
          show thread ∉ w.shared.waiting
          rw [hempty]
          exact List.not_mem_nil
      | one left thread _ hwaits =>
          refine ⟨fun sleeper hsleeper => h.asleep sleeper (List.mem_of_mem_erase hsleeper),
            h.nodup.erase thread, h.idle, h.starting, h.runs, fun _ _ _ => ?_⟩
          refine Or.inr ⟨thread, runs_of_place (h.asleep thread hwaits) (by rintro ⟨⟩), ?_⟩
          exact fun hmem => (h.nodup.mem_erase_iff.1 hmem).1 rfl

/-- A thread that is put elsewhere and was not asleep leaves the others asleep. -/
theorem Watched.asleep_set {w : Default E} (h : w.Watched) {thread : ℕ}
    {place : Place (Position E)} (hplace : w.threads[thread]? = some place)
    (hawake : place ≠ .loop .asleep) (place' : Place (Position E)) :
    ∀ sleeper ∈ w.shared.waiting,
      (w.threads.set thread place')[sleeper]? = some (.loop .asleep) := by
  intro sleeper hsleeper
  have hother : thread ≠ sleeper := by
    rintro rfl
    exact h.not_mem hplace hawake hsleeper
  rw [List.getElem?_set_ne hother]
  exact h.asleep sleeper hsleeper

theorem Watched.create {w : Default E} (h : w.Watched) (hstarting : w.owner = .starting) :
    w.create.2.Watched := by
  have hflag := h.starting hstarting
  cases hthread : w.thread with
  | none =>
      have hruns := runs_created hthread
      rw [Worker.create, hthread] at hruns ⊢
      refine ⟨fun sleeper hsleeper => ?_, h.nodup, fun _ _ => hflag, by rintro ⟨⟩, ?_, ?_⟩
      · have hasleep := h.asleep sleeper hsleeper
        show (w.threads ++ [Place.check])[sleeper]? = some (.loop .asleep)
        rw [List.getElem?_append_left (List.getElem?_eq_some_iff.1 hasleep).1, hasleep]
      · rintro _ thread ⟨⟩
        exact hruns
      · refine fun _ _ _ => Or.inr ⟨w.threads.length, hruns, fun hmem => ?_⟩
        have hlt := (List.getElem?_eq_some_iff.1 (h.asleep _ hmem)).1
        exact Nat.lt_irrefl _ hlt
  | some thread =>
      have hruns := h.runs
      have hwatched := h.watched
      rw [hthread] at hruns hwatched
      rw [Worker.create, hthread]
      exact ⟨h.asleep, h.nodup, fun _ _ => hflag, by rintro ⟨⟩, hruns, hwatched⟩

theorem Watched.step {w w' : Default E} (h : w.Watched)
    (hstep : Step (defaultEventDispatcher E) w w') : w'.Watched := by
  cases hstep with
  | start hidle =>
      -- where there is a thread the flag was not set
      refine ⟨h.asleep, h.nodup, by rintro ⟨⟩, fun _ => rfl, fun _ thread hthread => ?_,
        fun _ hthread => h.watched (h.idle hidle hthread) hthread⟩
      exact h.runs (h.idle hidle (Option.isSome_of_mem hthread)) thread hthread
  | create hstarting => exact h.create hstarting
  | stop _ => exact ⟨h.asleep, h.nodup, by rintro ⟨⟩, by rintro ⟨⟩, by rintro ⟨⟩, by rintro ⟨⟩⟩
  | detach _ =>
      exact ⟨h.asleep, h.nodup, fun _ hthread => absurd hthread Bool.false_ne_true,
        by rintro ⟨⟩, by rintro _ thread ⟨⟩, fun _ hthread => absurd hthread Bool.false_ne_true⟩
  | stopWithJoin _ _ =>
      exact ⟨h.asleep, h.nodup, by rintro ⟨⟩, by rintro ⟨⟩, by rintro ⟨⟩, by rintro ⟨⟩⟩
  | join _ _ _ _ =>
      exact ⟨h.asleep, h.nodup, fun _ hthread => absurd hthread Bool.false_ne_true,
        by rintro ⟨⟩, by rintro _ thread ⟨⟩, fun _ hthread => absurd hthread Bool.false_ne_true⟩
  | exit thread hchecks hstop =>
      have hflag {P : Prop} (hgoes : (w.goTo thread .exited).stopRequested = false) : P := by
        change w.stopRequested = false at hgoes
        rw [hstop] at hgoes
        cases hgoes
      exact ⟨h.asleep_set hchecks (by rintro ⟨⟩) _, h.nodup, h.idle, h.starting, hflag, hflag⟩
  | enter thread hchecks hgoes =>
      have hlt := (List.getElem?_eq_some_iff.1 hchecks).1
      refine ⟨h.asleep_set hchecks (by rintro ⟨⟩) _, h.nodup, h.idle, h.starting,
        fun hflag other hother => (h.runs hflag other hother).set rfl (by rintro ⟨⟩),
        fun _ _ _ => Or.inr ⟨thread, ⟨_, List.getElem?_set_self hlt, by rintro ⟨⟩⟩, ?_⟩⟩
      exact h.not_mem hchecks (by rintro ⟨⟩)
  | loop thread position shared next hloops hsteps => exact h.loop hloops hsteps
  | client shared hsteps => exact h.client hsteps

theorem watched_new : (new {} : Default E).Watched where
  asleep := by rintro thread ⟨⟩
  nodup := List.nodup_nil
  idle := by rintro _ ⟨⟩
  starting := by rintro ⟨⟩
  runs := by rintro _ thread ⟨⟩
  watched := by rintro _ ⟨⟩

/-! ## The steps that are left -/

/-- What a thread still does before it waits, when there are no events. -/
def weight (waiting : List ℕ) (thread : ℕ) : Option (Place (Position E)) → ℕ
  | some .check => 4
  | some (.loop .check) => 3
  | some (.loop .look) => 2
  | some (.loop .asleep) => if thread ∈ waiting then 0 else 3
  | some (.loop (.dispatching _)) => 4
  | some .exited => 0
  | none => 0

/-- What all threads still do. -/
def weights (w : Default E) : ℕ :=
  ∑ thread ∈ Finset.range w.threads.length, weight w.shared.waiting thread w.threads[thread]?

/-- How much there is left to do; a step of a thread makes it less. -/
def effort (w : Default E) : ℕ :=
  4 * w.shared.notifying + 3 * w.shared.queue.length + w.weights

theorem weight_le (waiting : List ℕ) (thread : ℕ) (place : Option (Place (Position E))) :
    weight waiting thread place ≤ 4 := by
  unfold weight
  split
  case h_4 => split <;> decide
  all_goals decide

theorem weights_le (w : Default E) : w.weights ≤ 4 * w.threads.length := by
  have h := Finset.sum_le_card_nsmul (Finset.range w.threads.length)
    (fun thread => weight w.shared.waiting thread w.threads[thread]?) 4
    fun thread _ => weight_le _ thread _
  rw [Finset.card_range] at h
  exact h.trans (Nat.mul_comm _ _).le

/-- One thread goes elsewhere and the others wait as before. -/
theorem weights_set (w' : Default E) {w : Default E} {thread : ℕ}
    {place place' : Place (Position E)}
    (hplace : w.threads[thread]? = some place)
    (hthreads : w'.threads = w.threads.set thread place')
    (hwaiting : ∀ other, other ≠ thread → (other ∈ w'.shared.waiting ↔ other ∈ w.shared.waiting)) :
    w'.weights + weight w.shared.waiting thread (some place) =
      w.weights + weight w'.shared.waiting thread (some place') := by
  have hlt := (List.getElem?_eq_some_iff.1 hplace).1
  have hmem := Finset.mem_range.2 hlt
  have hother : ∀ other ∈ (Finset.range w.threads.length).erase thread,
      weight w'.shared.waiting other w'.threads[other]? =
        weight w.shared.waiting other w.threads[other]? := by
    intro other hother
    have hne := Finset.ne_of_mem_erase hother
    rw [hthreads, List.getElem?_set_ne hne.symm]
    unfold weight
    simp only [hwaiting other hne]
  rw [weights, weights, hthreads, List.length_set, ← hthreads,
    ← Finset.add_sum_erase _ _ hmem, ← Finset.add_sum_erase _ _ hmem, Finset.sum_congr rfl hother,
    hplace, hthreads, List.getElem?_set_self hlt]
  omega

/-- A notification wakes a thread up. -/
theorem weights_erase (w' : Default E) {w : Default E} {thread : ℕ}
    (hasleep : w.threads[thread]? = some (.loop .asleep)) (hthreads : w'.threads = w.threads)
    (hwaiting : w'.shared.waiting = w.shared.waiting.erase thread) :
    w'.weights ≤ w.weights + 3 := by
  have hlt := (List.getElem?_eq_some_iff.1 hasleep).1
  have hset : w'.threads = w.threads.set thread (.loop .asleep) := by
    rw [hthreads, ← (List.getElem?_eq_some_iff.1 hasleep).2, List.set_getElem_self]
  have h := weights_set w' hasleep hset fun other hother => by
    rw [hwaiting, List.mem_erase_of_ne hother]
  have hle : weight w'.shared.waiting thread (some (.loop (.asleep : Position E))) ≤ 3 := by
    show (if thread ∈ w'.shared.waiting then 0 else 3) ≤ 3
    split <;> decide
  omega

/-- A step of the loop. -/
theorem effort_loop {w : Default E} {thread : ℕ}
    {position : Position E} {shared : Events E} {next : Option (Position E)}
    (hloops : w.threads[thread]? = some (.loop position))
    (hsteps : DispatcherStep false false thread w.shared position shared next) :
    ({ w with shared := shared, threads := w.threads.set thread (afterLoop next) } :
      Default E).effort < w.effort := by
  have hothers : ∀ other, other ≠ thread →
      (other ∈ shared.waiting ↔ other ∈ w.shared.waiting) := by
    intro other hother
    cases hsteps with
    | sleeps _ =>
        show other ∈ thread :: w.shared.waiting ↔ other ∈ w.shared.waiting
        rw [List.mem_cons, or_iff_right hother]
    | wakes _ => rw [List.mem_erase_of_ne hother]
    | _ => exact Iff.rfl
  have hweights := weights_set { w with
    shared := shared, threads := w.threads.set thread (afterLoop next) } hloops rfl hothers
  show 4 * shared.notifying + 3 * shared.queue.length + weights { w with
    shared := shared, threads := w.threads.set thread (afterLoop next) } < w.effort
  rw [effort]
  cases hsteps with
  | goes =>
      simp only [weight, afterLoop] at hweights ⊢
      omega
  | sleeps _ =>
      simp only [weight, afterLoop, List.mem_cons_self, if_true] at hweights ⊢
      omega
  | takes event rest hfront =>
      -- three for the event, and two for the round that it costs
      simp only [weight, afterLoop] at hweights ⊢
      rw [hfront, List.length_cons]
      omega
  | awakes hnotified =>
      simp only [weight, afterLoop, if_neg hnotified] at hweights ⊢
      omega
  | wakes hmay => cases hmay
  | dispatched event =>
      simp only [weight, afterLoop] at hweights ⊢
      omega

/-- **One step costs something.** -/
theorem Watched.effort_own {w w' : Default E} {thread : ℕ} (h : w.Watched)
    (hflag : w.stopRequested = false) (hown : Own false thread w w') :
    w'.effort < w.effort := by
  cases hown with
  | exit _ hstop =>
      rw [hflag] at hstop
      cases hstop
  | enter hchecks _ =>
      have hweights : (w.goTo thread (.loop .check)).weights + 4 = w.weights + 3 :=
        weights_set (w.goTo thread (.loop .check)) hchecks rfl fun _ _ => Iff.rfl
      show 4 * w.shared.notifying + 3 * w.shared.queue.length +
        (w.goTo thread (.loop .check)).weights < w.effort
      rw [effort]
      omega
  | loop position shared next hloops hsteps =>
      rw [hflag] at hsteps
      exact effort_loop hloops hsteps
  | notify shared hnotifies =>
      cases hnotifies with
      | nobody left hleft _ =>
          show 4 * left + 3 * w.shared.queue.length + w.weights < w.effort
          rw [effort]
          omega
      | one left sleeper hleft hwaits =>
          have hweights := weights_erase { w with shared := { w.shared with
            notifying := left, waiting := w.shared.waiting.erase sleeper } }
            (h.asleep sleeper hwaits) rfl rfl
          show 4 * left + 3 * w.shared.queue.length + weights { w with shared := { w.shared with
            notifying := left, waiting := w.shared.waiting.erase sleeper } } < w.effort
          rw [effort]
          omega

/-! ## The end of the queue -/

/-- A step of one of the threads, or a notification that is due. -/
def ThreadStep (w w' : Logged E) : Prop :=
  Step (loggingDispatcher E) w w' ∧ ∃ thread, Own false thread w.withoutLog w'.withoutLog

theorem DispatcherStep.mono {stop : Bool} {thread : ℕ} {events events' : Events E}
    {position : Position E} {next : Option (Position E)}
    (h : DispatcherStep false stop thread events position events' next) :
    DispatcherStep true stop thread events position events' next := by
  cases h with
  | returns => exact .returns
  | goes => exact .goes
  | sleeps hempty => exact .sleeps hempty
  | takes event rest hfront => exact .takes event rest hfront
  | awakes hnotified => exact .awakes hnotified
  | wakes _ => exact .wakes rfl
  | dispatched event => exact .dispatched event

theorem Own.step {w w' : Default E} {thread : ℕ} (hown : Own false thread w w') :
    Step (defaultEventDispatcher E) w w' := by
  cases hown with
  | exit hchecks hstop => exact .exit thread hchecks hstop
  | enter hchecks hgoes => exact .enter thread hchecks hgoes
  | loop position shared next hloops hsteps =>
      exact .loop thread position shared next hloops (DispatcherStep.mono hsteps)
  | notify shared hnotifies => exact .client shared (.notify hnotifies)

/-- Every step of a thread is one with the log. -/
theorem Own.threadStep {w : Logged E} {w' : Default E} {thread : ℕ}
    (hown : Own false thread w.withoutLog w') : ∃ w'', ThreadStep w w'' := by
  obtain ⟨log, hstep⟩ := hown.step.withLog w.shared.2
  exact ⟨w'.withLog log, hstep, thread, hown⟩

/-- **While there are events somebody can go on.** -/
theorem Watched.exists_own {w : Default E} (h : w.Watched) (hflag : w.stopRequested = false)
    (hthread : w.thread.isSome) (hqueue : w.shared.queue ≠ []) :
    ∃ thread w', Own false thread w w' := by
  rcases h.watched hflag hthread hqueue with hdue | ⟨thread, ⟨place, hplace, hexited⟩, hawake⟩
  · obtain ⟨left, hleft⟩ := Nat.exists_eq_succ_of_ne_zero hdue.ne'
    cases hwaiting : w.shared.waiting with
    | nil => exact ⟨0, _, .notify _ (.nobody left hleft hwaiting)⟩
    | cons sleeper others =>
        refine ⟨0, _, .notify _ (.one left sleeper hleft ?_)⟩
        rw [hwaiting]
        exact List.mem_cons_self
  · match place, hplace with
    | .exited, _ => exact absurd rfl hexited
    | .check, hplace => exact ⟨thread, _, .enter hplace hflag⟩
    | .loop .check, hplace =>
        have hgoes : DispatcherStep false w.stopRequested thread w.shared .check w.shared
            (some .look) := by
          rw [hflag]
          exact .goes
        exact ⟨thread, _, .loop .check _ _ hplace hgoes⟩
    | .loop .look, hplace =>
        obtain ⟨event, rest, hfront⟩ := List.exists_cons_of_ne_nil hqueue
        exact ⟨thread, _, .loop .look _ _ hplace (.takes event rest hfront)⟩
    | .loop .asleep, hplace =>
        exact ⟨thread, _, .loop .asleep _ _ hplace (.awakes hawake)⟩
    | .loop (.dispatching event), hplace =>
        exact ⟨thread, _, .loop (.dispatching event) _ _ hplace (.dispatched event)⟩

theorem Own.keeps {w w' : Default E} {thread : ℕ} (hown : Own false thread w w') :
    w'.stopRequested = w.stopRequested ∧ w'.thread = w.thread ∧
      w'.shared.queue.length ≤ w.shared.queue.length := by
  cases hown with
  | exit _ _ => exact ⟨rfl, rfl, Nat.le_refl _⟩
  | enter _ _ => exact ⟨rfl, rfl, Nat.le_refl _⟩
  | loop position shared next _ hsteps =>
      refine ⟨rfl, rfl, ?_⟩
      generalize w.stopRequested = stop at hsteps
      cases hsteps with
      | takes event rest hfront =>
          rw [hfront]
          exact Nat.le_succ _
      | _ => exact Nat.le_refl _
  | notify shared hnotifies =>
      refine ⟨rfl, rfl, ?_⟩
      cases hnotifies <;> exact Nat.le_refl _

/-- Without more events in the queue nothing has been pushed. -/
theorem pushed_step {w w' : Logged E} (hstep : Step (loggingDispatcher E) w w')
    (hqueue : w'.shared.1.queue.length ≤ w.shared.1.queue.length) :
    pushed w'.shared.2 = pushed w.shared.2 := by
  cases hstep with
  | create _ =>
      rw [Worker.create]
      split <;> rfl
  | loop thread position shared next _ hsteps =>
      show pushed shared.2 = pushed w.shared.2
      rw [hsteps.2, pushed_append, pushed_showsDispatch, List.append_nil]
  | client shared hsteps =>
      show pushed shared.2 = pushed w.shared.2
      rw [hsteps.2, pushed_append, pushed_showsSend, List.drop_eq_nil_of_le hqueue,
        List.append_nil]
  | _ => rfl

/-- What the threads do requests no stop, creates no thread and pushes nothing. -/
structure Undisturbed (start w : Logged E) : Prop where
  accounted : Accounted w.shared
  watched : w.withoutLog.Watched
  flag : w.stopRequested = false
  thread : w.thread.isSome
  pushed : pushed w.shared.2 = pushed start.shared.2

theorem Undisturbed.step {start w w' : Logged E} (h : Undisturbed start w)
    (hstep : ThreadStep w w') :
    Undisturbed start w' ∧ w'.withoutLog.effort < w.withoutLog.effort := by
  obtain ⟨hstep, thread, hown⟩ := hstep
  obtain ⟨hflag, hthread, hqueue⟩ := hown.keeps
  refine ⟨⟨h.accounted.step hstep, h.watched.step hstep.withoutLog, hflag.trans h.flag, ?_,
    (pushed_step hstep hqueue).trans h.pushed⟩, h.watched.effort_own h.flag hown⟩
  exact (congrArg Option.isSome hthread).trans h.thread

/-- **No wake-up is lost.**  A worker that has a thread and no stop request gets to the end of
its queue: the threads can make so many steps only, and where they can make no more they have
dispatched what was in the queue. -/
theorem drained {w : Logged E}
    (hrun : Relation.ReflTransGen (Step (loggingDispatcher E)) (new ({}, [])) w)
    (hflag : w.stopRequested = false) (hthread : w.thread.isSome) {n : ℕ} {w' : Logged E}
    (hsteps : Transition.Steps ThreadStep n w w') :
    n ≤ 4 * w.shared.1.notifying + 3 * w.shared.1.queue.length + 4 * w.threads.length ∧
      ((∀ w'', ¬ThreadStep w' w'') → w'.shared.1.queue = [] ∧
        dispatched w'.shared.2 = dispatched w.shared.2 ++ w.shared.1.queue) := by
  have hwatched : w.withoutLog.Watched :=
    Transition.invariant_of_run (I := Watched) Watched.step watched_new (run_withoutLog hrun)
  have haccounted : Accounted w.shared :=
    Transition.invariant_of_run (I := fun w : Logged E => Accounted w.shared) Accounted.step
      ⟨rfl, List.Perm.refl _⟩ hrun
  obtain ⟨hend, hle⟩ := Transition.Steps.add_le (I := Undisturbed w)
    (fun w => w.withoutLog.effort) Undisturbed.step
    ⟨haccounted, hwatched, hflag, hthread, rfl⟩ hsteps
  constructor
  · have hweights := weights_le w.withoutLog
    change w.withoutLog.weights ≤ 4 * w.threads.length at hweights
    have heffort : w.withoutLog.effort = 4 * w.shared.1.notifying +
      3 * w.shared.1.queue.length + w.withoutLog.weights := rfl
    omega
  · intro hstuck
    have hempty : w'.shared.1.queue = [] := by
      by_contra hqueue
      obtain ⟨thread, v, hown⟩ := hend.watched.exists_own hend.flag hend.thread hqueue
      obtain ⟨w'', hstep⟩ := hown.threadStep
      exact hstuck w'' hstep
    refine ⟨hempty, ?_⟩
    have hqueue := hend.accounted.queue
    rw [hempty, List.append_nil, hend.pushed] at hqueue
    rw [hqueue, haccounted.queue]

/-- The thread has been created and an event has been pushed. -/
def oneEvent : Logged Unit :=
  { thread := some 0, threads := [.check]
    shared := ({ queue := [()], notifying := 1 }, [.called (), .pushed ()]) }

/-- The thread dispatches the event. -/
def oneTaken : Logged Unit :=
  { thread := some 0, threads := [.loop (.dispatching ())]
    shared := ({ notifying := 1 }, [.called (), .pushed (), .dispatched 0 ()]) }

theorem oneEvent_reached :
    Relation.ReflTransGen (Step (loggingDispatcher Unit)) (new ({}, [])) oneEvent := by
  have hcalls : Step (loggingDispatcher Unit)
      { thread := some 0, threads := [.check], shared := ({}, []) }
      { thread := some 0, threads := [.check], shared := ({ sending := [()] }, [.called ()]) } :=
    .client _ ⟨SendEvent.send () rfl, rfl⟩
  have hpushes : Step (loggingDispatcher Unit)
      { thread := some 0, threads := [.check], shared := ({ sending := [()] }, [.called ()]) }
      oneEvent :=
    .client _ ⟨SendEvent.push [] [] () rfl, rfl⟩
  refine .head (Step.start rfl) ?_
  refine .head (Step.create rfl) ?_
  exact .head hcalls (.single hpushes)

/-- What a step of the loop changes is seen in both ways. -/
theorem threadStep_loop (w : Logged E) (thread : ℕ) (position : Position E) (events : Events E)
    (next : Option (Position E)) (hloops : w.threads[thread]? = some (.loop position))
    (hsteps : DispatcherStep false w.stopRequested thread w.shared.1 position events next) :
    ThreadStep w { w with
      shared := (events, w.shared.2 ++ showsDispatch thread next)
      threads := w.threads.set thread (afterLoop next) } :=
  ⟨.loop thread position _ next hloops ⟨DispatcherStep.mono hsteps, rfl⟩, thread,
    .loop position events next hloops hsteps⟩

theorem oneTaken_steps : Transition.Steps ThreadStep 3 oneEvent oneTaken := by
  have henter : ThreadStep oneEvent (oneEvent.goTo 0 (.loop .check)) :=
    ⟨.enter 0 rfl rfl, 0, .enter rfl rfl⟩
  have hgoes : ThreadStep (oneEvent.goTo 0 (.loop .check)) (oneEvent.goTo 0 (.loop .look)) :=
    threadStep_loop (oneEvent.goTo 0 (.loop .check)) 0 .check _ (some .look) rfl .goes
  have htakes : ThreadStep (oneEvent.goTo 0 (.loop .look)) oneTaken :=
    threadStep_loop (oneEvent.goTo 0 (.loop .look)) 0 .look _ (some (.dispatching ())) rfl
      (.takes () [] rfl)
  exact (((Transition.Steps.refl oneEvent).tail henter).tail hgoes).tail htakes

theorem drained_oneTaken :
    3 ≤ 4 * 1 + 3 * 1 + 4 * 1 ∧
      ((∀ w, ¬ThreadStep oneTaken w) → oneTaken.shared.1.queue = [] ∧
        dispatched oneTaken.shared.2 = dispatched oneEvent.shared.2 ++ oneEvent.shared.1.queue) :=
  drained oneEvent_reached rfl rfl oneTaken_steps

end Worker

end NewCPP.WorkerThread
