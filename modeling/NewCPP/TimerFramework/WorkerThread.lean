import Mathlib.Data.List.Basic
import Mathlib.Logic.Relation
import Mathlib.Tactic.Common
import NewCPP.Library.Transition

/-!
# The thread of a worker

`Worker::Start`, `Stop` and `StopWithJoin`, and `Run` on the threads that they create.
`Stop` lets its thread go without waiting for it, and `Start` clears the flag by which that
thread would learn of the stop.

* `one_dispatcher` — where `Start` creates a thread only after the threads that `Stop` let
  go have left `Run`, at most one thread is in `Run` at any time; and where it creates one
  earlier, two are.

## Design notes

**The owner.**  `_Thread` is read and written without a lock, so `Start`, `Stop` and
`StopWithJoin` are calls of one owner, one after the other.  Clients of the worker only
read it.

**`Loop`.**  `Run` calls a virtual `Loop`; `LoopImpl` is one that a thread executes in
steps, together with what the threads and the clients share.

**Locks.**  What a thread does while it holds `_StopMutex` is one step.

**Thread objects.**  The `n`-th thread that a worker creates is number `n` of `threads`.
-/

namespace NewCPP.WorkerThread

open Library

universe u v

variable {σ : Type u} {L : Type v}

/-- An implementation of `Loop`: `σ` is what is shared, `L` where in the loop a thread is. -/
structure LoopImpl (σ : Type u) (L : Type v) where
  /-- Where `Loop` begins. -/
  enter : L
  /-- A step of a thread that reads `StopRequested`; `none` returns from `Loop`. -/
  step : (stopRequested : Bool) → (thread : ℕ) → σ → L → σ → Option L → Prop
  /-- A step of a client, which may read `_Thread`. -/
  client : (thread : Option ℕ) → σ → σ → Prop

/-- Where a thread is in `Run`. -/
inductive Place (L : Type v) where
  | check
  | loop (position : L)
  /-- `Run` has returned. -/
  | exited

/-- Where the owner is. -/
inductive Owner where
  | idle
  /-- In `Start`, past the reset of the flag. -/
  | starting
  /-- In `Stop`, past the request. -/
  | detaching
  /-- In `StopWithJoin`, waiting for the thread. -/
  | joining

/-- The members of the class, and every thread that was ever created. -/
structure Worker (σ : Type u) (L : Type v) where
  stopRequested : Bool := false
  thread : Option ℕ := none
  threads : List (Place L) := []
  /-- The threads that `Stop` let go. -/
  detached : List ℕ := []
  owner : Owner := .idle
  shared : σ

namespace Worker

/-- The flag that the threads look at is set. -/
def requestStop (w : Worker σ L) : Worker σ L :=
  { w with stopRequested := true }

/-- The rest of `Start`; it returns true if there was no thread. -/
def create (w : Worker σ L) : Bool × Worker σ L :=
  match w.thread with
  | none => (true, { w with
      thread := some w.threads.length
      threads := w.threads ++ [.check]
      owner := .idle })
  | some _ => (false, { w with owner := .idle })

/-- The rest of `Stop`. -/
def detach (w : Worker σ L) : Worker σ L :=
  { w with thread := none, detached := w.thread.toList ++ w.detached, owner := .idle }

/-- A thread goes to another place. -/
def goTo (w : Worker σ L) (thread : ℕ) (place : Place L) : Worker σ L :=
  { w with threads := w.threads.set thread place }

/-- Where a step of `Loop` leaves its thread. -/
def afterLoop : Option L → Place L
  | none => .check
  | some position => .loop position

/-- **One step** of the owner, of a thread or of a client. -/
inductive Step (R : LoopImpl σ L) : Worker σ L → Worker σ L → Prop
  | start {w : Worker σ L} (idle : w.owner = .idle) :
      Step R w { w with stopRequested := false, owner := .starting }
  | create {w : Worker σ L} (starting : w.owner = .starting) : Step R w w.create.2
  | stop {w : Worker σ L} (idle : w.owner = .idle) :
      Step R w { w.requestStop with owner := .detaching }
  | detach {w : Worker σ L} (detaching : w.owner = .detaching) : Step R w w.detach
  | stopWithJoin {w : Worker σ L} (idle : w.owner = .idle) (thread : w.thread.isSome) :
      Step R w { w.requestStop with owner := .joining }
  | join {w : Worker σ L} (thread : ℕ) (joining : w.owner = .joining)
      (waits : w.thread = some thread) (exited : w.threads[thread]? = some .exited) :
      Step R w { w with thread := none, owner := .idle }
  | exit {w : Worker σ L} (thread : ℕ) (checks : w.threads[thread]? = some .check)
      (stop : w.stopRequested = true) : Step R w (w.goTo thread .exited)
  | enter {w : Worker σ L} (thread : ℕ) (checks : w.threads[thread]? = some .check)
      (goes : w.stopRequested = false) : Step R w (w.goTo thread (.loop R.enter))
  | loop {w : Worker σ L} (thread : ℕ) (position : L) (shared : σ) (next : Option L)
      (loops : w.threads[thread]? = some (.loop position))
      (steps : R.step w.stopRequested thread w.shared position shared next) :
      Step R w { w with shared := shared, threads := w.threads.set thread (afterLoop next) }
  | client {w : Worker σ L} (shared : σ) (steps : R.client w.thread w.shared shared) :
      Step R w { w with shared := shared }

/-- A worker that has just been constructed. -/
def new (shared : σ) : Worker σ L := { shared := shared }

/-- The thread is executing `Run`. -/
def Runs (w : Worker σ L) (thread : ℕ) : Prop :=
  ∃ place, w.threads[thread]? = some place ∧ place ≠ .exited

/-! ## Threads that run -/

/-- A thread that is put elsewhere runs unless it has exited; the others run as before. -/
theorem runs_set {w w' : Worker σ L} {thread other : ℕ} {place : Place L}
    (hthreads : w'.threads = w.threads.set thread place) (hruns : w'.Runs other) :
    w.Runs other ∨ other = thread ∧ place ≠ .exited := by
  obtain ⟨place', hplace', hexited⟩ := hruns
  rw [hthreads, List.getElem?_set] at hplace'
  split at hplace'
  · rename_i hother
    subst hother
    split at hplace'
    · cases hplace'
      exact Or.inr ⟨rfl, hexited⟩
    · cases hplace'
  · exact Or.inl ⟨place', hplace', hexited⟩

theorem runs_of_place {w : Worker σ L} {thread : ℕ} {place : Place L}
    (hplace : w.threads[thread]? = some place) (hexited : place ≠ .exited) : w.Runs thread :=
  ⟨place, hplace, hexited⟩

/-! ## Which threads run -/

/-- A thread that runs is the one of `_Thread` or has been let go. -/
def Known (w : Worker σ L) : Prop :=
  ∀ thread, w.Runs thread → w.thread = some thread ∨ thread ∈ w.detached

/-- **What a step does to the threads**: it creates one, or none that did not run runs. -/
theorem runs_step {R : LoopImpl σ L} {w w' : Worker σ L} (hstep : Step R w w') :
    (w.owner = .starting ∧ w.thread = none ∧ w' = w.create.2) ∨
      ∀ thread, w'.Runs thread → w.Runs thread := by
  cases hstep with
  | create hstarting =>
      cases hthread : w.thread with
      | none => exact Or.inl ⟨hstarting, rfl, rfl⟩
      | some thread =>
          right
          intro other hruns
          rw [create, hthread] at hruns
          exact hruns
  | exit thread hchecks _ =>
      right
      intro other hruns
      rcases runs_set rfl hruns with hother | ⟨rfl, hexited⟩
      · exact hother
      · exact absurd rfl hexited
  | enter thread hchecks _ =>
      right
      intro other hruns
      rcases runs_set rfl hruns with hother | ⟨rfl, _⟩
      · exact hother
      · exact runs_of_place hchecks (by rintro ⟨⟩)
  | loop thread position shared next hloops _ =>
      right
      intro other hruns
      rcases runs_set rfl hruns with hother | ⟨rfl, _⟩
      · exact hother
      · exact runs_of_place hloops (by rintro ⟨⟩)
  | _ => exact Or.inr fun _ hruns => hruns

theorem runs_create {w : Worker σ L} (hthread : w.thread = none) {thread : ℕ}
    (hruns : w.create.2.Runs thread) : w.Runs thread ∨ w.create.2.thread = some thread := by
  obtain ⟨place, hplace, hexited⟩ := hruns
  rw [create, hthread] at hplace ⊢
  change (w.threads ++ [.check])[thread]? = some place at hplace
  rcases Nat.lt_or_ge thread w.threads.length with hold | hnew
  · rw [List.getElem?_append_left hold] at hplace
    exact Or.inl ⟨place, hplace, hexited⟩
  · rw [List.getElem?_append_right hnew] at hplace
    obtain ⟨hlt, _⟩ := List.getElem?_eq_some_iff.1 hplace
    rw [List.length_singleton] at hlt
    right
    show some w.threads.length = some thread
    rw [show thread = w.threads.length by omega]

theorem runs_created {w : Worker σ L} (hthread : w.thread = none) :
    w.create.2.Runs w.threads.length := by
  refine ⟨.check, ?_, by rintro ⟨⟩⟩
  rw [create, hthread]
  exact List.getElem?_concat_length

theorem runs_create_of_runs {w : Worker σ L} {thread : ℕ} (hruns : w.Runs thread) :
    w.create.2.Runs thread := by
  obtain ⟨place, hplace, hexited⟩ := hruns
  refine ⟨place, ?_, hexited⟩
  rw [create]
  split
  · obtain ⟨hlt, _⟩ := List.getElem?_eq_some_iff.1 hplace
    show (w.threads ++ [.check])[thread]? = some place
    rw [List.getElem?_append_left hlt, hplace]
  · exact hplace

theorem Runs.lt {w : Worker σ L} {thread : ℕ} (h : w.Runs thread) :
    thread < w.threads.length := by
  obtain ⟨place, hplace, _⟩ := h
  exact (List.getElem?_eq_some_iff.1 hplace).1

theorem Known.step {R : LoopImpl σ L} {w w' : Worker σ L} (h : w.Known)
    (hstep : Step R w w') : w'.Known := by
  intro thread hruns
  rcases runs_step hstep with ⟨_, hthread, rfl⟩ | hkeeps
  · rcases runs_create hthread hruns with hold | hnew
    · right
      rcases h thread hold with hnone | hdetached
      · rw [hthread] at hnone
        cases hnone
      · rw [create, hthread]
        exact hdetached
    · exact Or.inl hnew
  · have hold := h thread (hkeeps thread hruns)
    cases hstep with
    | create _ =>
        rw [create]
        split
        · rename_i hthread
          rw [hthread] at hold
          rcases hold with hnone | hdetached
          · cases hnone
          · exact Or.inr hdetached
        · exact hold
    | detach _ =>
        rcases hold with hthread | hdetached
        · right
          show thread ∈ w.thread.toList ++ w.detached
          simp [hthread]
        · exact Or.inr (List.mem_append_right _ hdetached)
    -- the thread that has been joined does not run
    | join joined _ hwaits hexited =>
        rcases hold with hthread | hdetached
        · rw [hwaits] at hthread
          cases hthread
          obtain ⟨place, hplace, hrunning⟩ := hruns
          change w.threads[thread]? = some place at hplace
          rw [hexited] at hplace
          cases hplace
          exact absurd rfl hrunning
        · exact Or.inr hdetached
    | _ => exact hold

/-! ## One dispatcher at a time -/

/-- `Start` is about to create a thread while one that `Stop` let go is still in `Run`. -/
def Overlaps (w : Worker σ L) : Prop :=
  w.owner = .starting ∧ w.thread = none ∧ ∃ thread ∈ w.detached, w.Runs thread

/-- At most one thread is executing `Run`. -/
def AtMostOne (w : Worker σ L) : Prop :=
  ∀ first second, w.Runs first → w.Runs second → first = second

theorem AtMostOne.step {R : LoopImpl σ L} {w w' : Worker σ L} (h : w.AtMostOne)
    (hknown : w.Known) (hno : ¬w.Overlaps) (hstep : Step R w w') : w'.AtMostOne := by
  intro first second hfirst hsecond
  rcases runs_step hstep with ⟨hstarting, hthread, rfl⟩ | hkeeps
  · -- nothing ran before, so whatever runs now is the new thread
    have hnew {thread : ℕ} (hruns : w.create.2.Runs thread) :
        w.create.2.thread = some thread := by
      rcases runs_create hthread hruns with hold | hnew
      · rcases hknown thread hold with hnone | hdetached
        · rw [hthread] at hnone
          cases hnone
        · exact absurd ⟨hstarting, hthread, thread, hdetached, hold⟩ hno
      · exact hnew
    exact Option.some.inj ((hnew hfirst).symm.trans (hnew hsecond))
  · exact h first second (hkeeps first hfirst) (hkeeps second hsecond)

theorem known_of_run {R : LoopImpl σ L} {shared : σ} {w : Worker σ L}
    (hrun : Relation.ReflTransGen (Step R) (new shared) w) : w.Known := by
  refine Transition.invariant_of_run (I := Known) Known.step ?_ hrun
  rintro thread ⟨place, hplace, _⟩
  cases hplace

/-- **One dispatcher at a time.**  In a run in which `Start` creates a thread only when the
threads that `Stop` let go have left `Run`, at most one thread is executing `Run` in every
state; and if `Start` creates one earlier, two threads are when it returns true. -/
theorem one_dispatcher (R : LoopImpl σ L) (shared : σ) :
    (∀ w, Relation.ReflTransGen (Transition.restrict (Step R) fun w => ¬w.Overlaps)
        (new shared) w → w.AtMostOne) ∧
      ∀ w : Worker σ L, w.Overlaps → w.create.1 = true ∧ ¬w.create.2.AtMostOne := by
  constructor
  · intro w hrun
    refine (Transition.invariant_of_restricted_run (I := fun w => w.AtMostOne ∧ w.Known)
      ?_ ⟨?_, ?_⟩ hrun).1
    · rintro w w' ⟨hone, hknown⟩ hno hstep
      exact ⟨hone.step hknown hno hstep, hknown.step hstep⟩
    · rintro first second ⟨place, hplace, _⟩
      cases hplace
    · exact known_of_run (Relation.ReflTransGen.refl (r := Step R))
  · rintro w ⟨_, hthread, thread, _, hruns⟩
    refine ⟨by rw [create, hthread], fun hone => ?_⟩
    have hlt := hruns.lt
    rw [hone thread w.threads.length (runs_create_of_runs hruns) (runs_created hthread)] at hlt
    exact Nat.lt_irrefl _ hlt

end Worker

end NewCPP.WorkerThread
