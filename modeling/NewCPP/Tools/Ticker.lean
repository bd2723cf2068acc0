import Mathlib.Data.Int.Notation
import Mathlib.Data.List.Basic
import NewCPP.Library.Transition

/-!
# The ticker

`Ticker::Start` creates a thread and lets it go; the thread calls the function of the
ticker in intervals and tells only by clearing `mRunning` that it is about to end.

* `one_thread` — at any time at most one thread has not cleared `mRunning` yet; `IsRunning`
  tells whether there is one, the settings stay as it found them, and in single-shot mode it
  calls the function at most once.

## Design notes

**Accesses.**  Each access to a member is a step of its own.  The members that are no flags
are read where the source reads them, too.

**Callers.**  The client makes one call after the other; so does the function of the ticker
on the thread that has called it.

**Waiting.**  `wait_for` returns when it finds `mStopRequested` set or when the interval is
over; both are steps of the thread, so that `notify_all` has no effect of its own.

**Accepted starts.**  Each thread is kept with the settings of the `Start` that created it.
-/

namespace NewCPP

open Library

universe u

variable {F : Type u}

/-- `std::chrono::duration`: a count of periods of `num / den` seconds. -/
structure Duration where
  count : ℤ
  num : ℕ := 1
  den : ℕ := 1
  deriving DecidableEq

/-- `duration_cast` to seconds. -/
def Duration.seconds (interval : Duration) : ℤ :=
  (interval.count * interval.num).tdiv interval.den

/-- A ticker for functions of the type `F`; `none` is an empty `std::function`. -/
structure Ticker (F : Type u) where
  mFunction : Option F := none
  mInterval : ℤ := 0
  mSingleShot : Bool := false
  mStopRequested : Bool := false
  mRunning : Bool := false

namespace Ticker

/-- The flag, as another thread reads it. -/
def isRunning (ticker : Ticker F) : Bool :=
  ticker.mRunning

/-- Function, interval and mode. -/
structure Settings (F : Type u) where
  mFunction : Option F
  mInterval : ℤ
  mSingleShot : Bool

/-- What a thread goes by. -/
def settings (ticker : Ticker F) : Settings F where
  mFunction := ticker.mFunction
  mInterval := ticker.mInterval
  mSingleShot := ticker.mSingleShot

/-! ## The calls -/

/-- The calls of the public interface, with their arguments. -/
inductive Call (F : Type u) where
  | setFunction (function : Option F)
  | setSingleShot (singleShot : Bool)
  | setInterval (interval : Duration)
  | start
  | stop

/-- Where a caller is. -/
inductive Position (F : Type u) where
  | outside
  /-- In front of the test of `mRunning`. -/
  | entered (call : Call F)
  | passed (call : Call F)
  /-- In `Start`, behind the test of the function. -/
  | hasFunction
  /-- In `Start`, behind the test of the interval. -/
  | hasInterval
  /-- In `Start`, behind `mRunning = true`. -/
  | marked
  /-- In `Start`, behind `mStopRequested = false`. -/
  | creating
  /-- In `Stop`, behind `mStopRequested = true`. -/
  | notifying

/-- The next access of a caller. -/
def access (ticker : Ticker F) : Position F → Position F × Ticker F
  | .outside => (.outside, ticker)
  | .entered .stop => (if ticker.mRunning then .passed .stop else .outside, ticker)
  | .entered call => (if ticker.mRunning then .outside else .passed call, ticker)
  | .passed (.setFunction function) => (.outside, { ticker with mFunction := function })
  | .passed (.setSingleShot singleShot) =>
      (.outside, { ticker with mSingleShot := singleShot })
  | .passed (.setInterval interval) =>
      (.outside, { ticker with mInterval := interval.seconds })
  | .passed .start => (if ticker.mFunction.isSome then .hasFunction else .outside, ticker)
  | .passed .stop => (.notifying, { ticker with mStopRequested := true })
  | .hasFunction => (if ticker.mInterval = 0 then .outside else .hasInterval, ticker)
  | .hasInterval => (.marked, { ticker with mRunning := true })
  | .marked => (.creating, { ticker with mStopRequested := false })
  | .creating => (.outside, ticker)
  | .notifying => (.outside, ticker)

/-! ## The threads -/

/-- Where a thread is. -/
inductive Place (F : Type u) where
  /-- In front of `while (!mStopRequested)`. -/
  | loop
  /-- In `wait_for`. -/
  | waiting
  /-- In front of `if (mStopRequested)`. -/
  | woken
  /-- In front of the call of `mFunction`. -/
  | ticking
  | inFunction (position : Position F)
  /-- In front of `if (mSingleShot)`. -/
  | ticked
  | stopping (position : Position F)
  /-- In front of `mRunning = false`. -/
  | leaving
  | finished

/-- A thread of the ticker: where it is, how often it called the function, and the settings it
was created with. -/
structure Thread (F : Type u) where
  place : Place F := .loop
  invocations : ℕ := 0
  accepted : Settings F

/-- It has not cleared `mRunning` yet. -/
def Thread.Live (thread : Thread F) : Prop :=
  thread.place ≠ .finished

/-- What a thread does next, where it has a choice. -/
inductive Choice (F : Type u) where
  | next
  | timeout
  /-- The function makes a call. -/
  | call (call : Call F)

/-- The thread that a caller creates with its next access. -/
def created (ticker : Ticker F) : Position F → List (Thread F)
  | .creating => [{ accepted := ticker.settings }]
  | _ => []

/-- A ticker and a thread after a step of the thread, and the thread that it creates. -/
structure Stepped (F : Type u) where
  ticker : Ticker F
  thread : Thread F
  created : List (Thread F) := []

/-- The next step of a thread; `none` if it cannot be taken. -/
def Thread.step (ticker : Ticker F) (thread : Thread F) (choice : Choice F) :
    Option (Stepped F) :=
  match thread.place, choice with
  | .loop, .next =>
      some
        { ticker := ticker
          thread := { thread with place := if ticker.mStopRequested then .leaving else .waiting } }
  | .waiting, .next =>
      if ticker.mStopRequested then
        some { ticker := ticker, thread := { thread with place := .woken } }
      else none
  | .waiting, .timeout => some { ticker := ticker, thread := { thread with place := .woken } }
  | .woken, .next =>
      some
        { ticker := ticker
          thread := { thread with place := if ticker.mStopRequested then .leaving else .ticking } }
  | .ticking, .next =>
      -- an empty function throws, and the exception ends the program
      if ticker.mFunction.isSome then
        some
          { ticker := ticker
            thread :=
              { thread with
                place := .inFunction .outside
                invocations := thread.invocations + 1 } }
      else none
  | .inFunction .outside, .call call =>
      some { ticker := ticker, thread := { thread with place := .inFunction (.entered call) } }
  | .inFunction .outside, .next =>
      some { ticker := ticker, thread := { thread with place := .ticked } }
  | .inFunction position, .next =>
      some
        { ticker := (ticker.access position).2
          thread := { thread with place := .inFunction (ticker.access position).1 }
          created := ticker.created position }
  | .ticked, .next =>
      some
        { ticker := ticker
          thread :=
            { thread with
              place := if ticker.mSingleShot then .stopping (.entered .stop) else .loop } }
  | .stopping .outside, .next =>
      some { ticker := ticker, thread := { thread with place := .leaving } }
  | .stopping position, .next =>
      some
        { ticker := (ticker.access position).2
          thread := { thread with place := .stopping (ticker.access position).1 }
          created := ticker.created position }
  | .leaving, .next =>
      some
        { ticker := { ticker with mRunning := false }
          thread := { thread with place := .finished } }
  | _, _ => none

/-! ## The client and the threads -/

/-- A ticker, its one client, and all threads that were ever created. -/
structure System (F : Type u) where
  ticker : Ticker F
  client : Position F := .outside
  /-- The most recent call of the client. -/
  lastCall : Option (Call F) := none
  threads : List (Thread F) := []

/-- Who moves. -/
inductive Action (F : Type u) where
  | call (call : Call F)
  /-- The next access of the client. -/
  | client
  | thread (index : ℕ) (choice : Choice F)

/-- What the move does, if it is possible. -/
def next : Action F → System F → Option (System F)
  | .call call, s =>
      match s.client with
      | .outside => some { s with client := .entered call, lastCall := some call }
      | _ => none
  | .client, s =>
      match s.client with
      | .outside => none
      | position =>
          some
            { s with
              ticker := (s.ticker.access position).2
              client := (s.ticker.access position).1
              threads := s.threads ++ s.ticker.created position }
  | .thread index choice, s =>
      s.threads[index]?.bind fun thread =>
        (thread.step s.ticker choice).map fun stepped =>
          { s with
            ticker := stepped.ticker
            threads := s.threads.set index stepped.thread ++ stepped.created }

/-- A step of the client or of a thread. -/
abbrev Step : System F → System F → Prop :=
  Transition.guarded next fun _ _ => true

/-- A ticker that has just been constructed. -/
def new (function : Option F) (singleShot : Bool) : System F where
  ticker := { mFunction := function, mSingleShot := singleShot }

/-! ## One access -/

/-- A caller that the test of `mRunning` has not let through to the settings. -/
def Position.Refused : Position F → Prop
  | .outside | .entered _ | .passed .stop | .notifying => True
  | _ => False

/-- While `mRunning` is set no caller gets through, and none changes anything but
`mStopRequested`. -/
theorem access_of_refused {ticker : Ticker F} {position : Position F}
    (hrunning : ticker.mRunning = true) (h : position.Refused) :
    (ticker.access position).1.Refused ∧
      (ticker.access position).2.settings = ticker.settings ∧
      (ticker.access position).2.mRunning = true ∧ ticker.created position = [] := by
  cases position with
  | outside => exact ⟨trivial, rfl, hrunning, rfl⟩
  | entered call =>
      cases call <;> simp [access, hrunning, Position.Refused, created]
  | passed call =>
      cases call with
      | stop => exact ⟨trivial, rfl, hrunning, rfl⟩
      | _ => exact absurd h id
  | notifying => exact ⟨trivial, rfl, hrunning, rfl⟩
  | _ => exact absurd h id

/-- The caller is in `Start` and has set `mRunning`. -/
def Position.Starting : Position F → Prop
  | .marked | .creating => True
  | _ => False

/-- While `mRunning` is not set, it is `Start` that sets it. -/
theorem access_of_not_running {ticker : Ticker F} {position : Position F}
    (hrunning : ticker.mRunning = false) (h : ¬position.Starting) :
    ticker.created position = [] ∧
      ((ticker.access position).2.mRunning = false ∧
          ¬(ticker.access position).1.Starting ∨
        (ticker.access position).2.mRunning = true ∧
          (ticker.access position).1.Starting) := by
  cases position with
  | entered call =>
      cases call <;> simp [access, hrunning, Position.Starting, created]
  | passed call =>
      cases call with
      | start =>
          cases hfunction : ticker.mFunction.isSome <;>
            simp [access, hfunction, hrunning, Position.Starting, created]
      | _ => simp [access, hrunning, Position.Starting, created]
  | hasFunction =>
      by_cases hinterval : ticker.mInterval = 0 <;>
        simp [access, hinterval, hrunning, Position.Starting, created]
  | marked => exact absurd trivial h
  | creating => exact absurd trivial h
  | _ => simp [access, hrunning, Position.Starting, created]

/-! ## One step of a thread -/

/-- The steps of a thread that change its place only. -/
inductive Goes (ticker : Ticker F) : Choice F → Place F → Place F → Prop
  | leave (stop : ticker.mStopRequested = true) : Goes ticker .next .loop .leaving
  | wait (goes : ticker.mStopRequested = false) : Goes ticker .next .loop .waiting
  | wake (choice : Choice F) : Goes ticker choice .waiting .woken
  | stop (stop : ticker.mStopRequested = true) : Goes ticker .next .woken .leaving
  | tick (goes : ticker.mStopRequested = false) : Goes ticker .next .woken .ticking
  | call (call : Call F) :
      Goes ticker (.call call) (.inFunction .outside) (.inFunction (.entered call))
  | return : Goes ticker .next (.inFunction .outside) .ticked
  | singleShot (mode : ticker.mSingleShot = true) :
      Goes ticker .next .ticked (.stopping (.entered .stop))
  | again (mode : ticker.mSingleShot = false) : Goes ticker .next .ticked .loop
  | stopped : Goes ticker .next (.stopping .outside) .leaving

/-- What a step of a thread can be. -/
inductive Steps (ticker : Ticker F) (thread : Thread F) (choice : Choice F) :
    Stepped F → Prop
  | goes {place : Place F} (goes : Goes ticker choice thread.place place) :
      Steps ticker thread choice { ticker := ticker, thread := { thread with place := place } }
  | invoke (ticking : thread.place = .ticking) :
      Steps ticker thread choice
        { ticker := ticker
          thread :=
            { thread with place := .inFunction .outside, invocations := thread.invocations + 1 } }
  | inFunction {position : Position F} (calls : thread.place = .inFunction position) :
      Steps ticker thread choice
        { ticker := (ticker.access position).2
          thread := { thread with place := .inFunction (ticker.access position).1 }
          created := ticker.created position }
  | stopping {position : Position F} (calls : thread.place = .stopping position) :
      Steps ticker thread choice
        { ticker := (ticker.access position).2
          thread := { thread with place := .stopping (ticker.access position).1 }
          created := ticker.created position }
  | finish (leaves : thread.place = .leaving) :
      Steps ticker thread choice
        { ticker := { ticker with mRunning := false }
          thread := { thread with place := .finished } }

theorem steps_of_step {ticker : Ticker F} {thread : Thread F} {choice : Choice F}
    {stepped : Stepped F} (h : thread.step ticker choice = some stepped) :
    Steps ticker thread choice stepped := by
  have hgoes {place : Place F} (hgoes : Goes ticker choice thread.place place)
      (heq : some { ticker := ticker, thread := { thread with place := place } } =
        some stepped) : Steps ticker thread choice stepped := by
    cases heq
    exact .goes hgoes
  unfold Thread.step at h
  split at h <;> rename_i hplace
  -- in the order of the source
  · cases hstop : ticker.mStopRequested <;> rw [hstop] at h
    · exact hgoes (hplace ▸ .wait hstop) h
    · exact hgoes (hplace ▸ .leave hstop) h
  · split at h
    · exact hgoes (hplace ▸ .wake _) h
    · cases h
  · exact hgoes (hplace ▸ .wake _) h
  · cases hstop : ticker.mStopRequested <;> rw [hstop] at h
    · exact hgoes (hplace ▸ .tick hstop) h
    · exact hgoes (hplace ▸ .stop hstop) h
  · split at h
    · cases h
      exact .invoke hplace
    · cases h
  · exact hgoes (hplace ▸ .call _) h
  · exact hgoes (hplace ▸ .return) h
  · cases h
    exact .inFunction hplace
  · cases hmode : ticker.mSingleShot <;> rw [hmode] at h
    · exact hgoes (hplace ▸ .again hmode) h
    · exact hgoes (hplace ▸ .singleShot hmode) h
  · exact hgoes (hplace ▸ .stopped) h
  · cases h
    exact .stopping hplace
  · cases h
    exact .finish hplace
  · cases h

theorem Steps.accepted {ticker : Ticker F} {thread : Thread F} {choice : Choice F}
    {stepped : Stepped F} (h : Steps ticker thread choice stepped) :
    stepped.thread.accepted = thread.accepted := by
  cases h <;> rfl

/-- What an action does, with its guard. -/
inductive Acts (s : System F) : Action F → System F → Prop
  | call (call : Call F) (outside : s.client = .outside) :
      Acts s (.call call) { s with client := .entered call, lastCall := some call }
  | client (inside : s.client ≠ .outside) :
      Acts s .client
        { s with
          ticker := (s.ticker.access s.client).2
          client := (s.ticker.access s.client).1
          threads := s.threads ++ s.ticker.created s.client }
  | thread (index : ℕ) (choice : Choice F) {thread : Thread F} {stepped : Stepped F}
      (found : s.threads[index]? = some thread)
      (steps : Steps s.ticker thread choice stepped) :
      Acts s (.thread index choice)
        { s with
          ticker := stepped.ticker
          threads := s.threads.set index stepped.thread ++ stepped.created }

theorem acts_of_next {s s' : System F} {action : Action F} (h : next action s = some s') :
    Acts s action s' := by
  cases action with
  | call call =>
      simp only [next] at h
      split at h
      · rename_i houtside
        cases h
        exact .call call houtside
      · cases h
  | client =>
      simp only [next] at h
      split at h
      · cases h
      · rename_i hinside
        cases h
        exact .client hinside
  | thread index choice =>
      simp only [next, Option.bind_eq_some_iff, Option.map_eq_some_iff] at h
      obtain ⟨thread, hthread, stepped, hstepped, rfl⟩ := h
      exact .thread index choice hthread (steps_of_step hstepped)

/-! ## What a step keeps -/

/-- How often the thread will call the function, at most, in single-shot mode. -/
def Place.coming : Place F → ℕ
  | .loop | .waiting | .woken | .ticking => 1
  | _ => 0

/-- A call that the function makes in here has not got past the test of `mRunning`. -/
def Place.Refused : Place F → Prop
  | .inFunction position | .stopping position => position.Refused
  | _ => True

/-- In single-shot mode one call of the function, made or to come. -/
def Thread.Once (thread : Thread F) : Prop :=
  thread.accepted.mSingleShot = true → thread.invocations + thread.place.coming ≤ 1

/-- A thread in a ticker that still has the settings of its start. -/
structure Thread.Sound (ticker : Ticker F) (thread : Thread F) : Prop where
  settings : ticker.settings = thread.accepted
  refused : thread.place.Refused
  once : thread.Once

theorem Thread.Sound.mSingleShot {ticker : Ticker F} {thread : Thread F}
    (h : thread.Sound ticker) : ticker.mSingleShot = thread.accepted.mSingleShot :=
  congrArg Settings.mSingleShot h.settings

/-- A place that a thread goes to without an access of a caller. -/
theorem Goes.keeps {ticker : Ticker F} {choice : Choice F} {place place' : Place F}
    (h : Goes ticker choice place place') :
    place'.Refused ∧ place' ≠ .finished ∧
      (ticker.mSingleShot = true → place'.coming ≤ place.coming) := by
  cases h with
  | again hmode =>
      refine ⟨trivial, by rintro ⟨⟩, fun hsingle => ?_⟩
      rw [hmode] at hsingle
      cases hsingle
  | _ => exact ⟨trivial, by rintro ⟨⟩, fun _ => by simp [Place.coming]⟩

/-- A thread that moves on without calling the function. -/
theorem Thread.Once.moves {thread : Thread F} (h : thread.Once) {place : Place F}
    (hcoming : thread.accepted.mSingleShot = true → place.coming ≤ thread.place.coming) :
    Thread.Once { thread with place := place } := by
  intro hsingle
  exact (Nat.add_le_add_left (hcoming hsingle) _).trans (h hsingle)

/-- An access that the thread makes, in the function or in its own call of `Stop`. -/
theorem Thread.Sound.access {ticker : Ticker F} {thread : Thread F} (h : thread.Sound ticker)
    (hrunning : ticker.mRunning = true) {position : Position F} (hposition : position.Refused)
    {place : Place F} (hplace : place = .inFunction (ticker.access position).1 ∨
      place = .stopping (ticker.access position).1) :
    ticker.created position = [] ∧
      Thread.Sound (ticker.access position).2 { thread with place := place } ∧
      ((ticker.access position).2.mRunning = true ↔
        Thread.Live { thread with place := place }) := by
  obtain ⟨hrefused, hkept, hmarked, hnone⟩ := access_of_refused hrunning hposition
  refine ⟨hnone, ⟨hkept.trans h.settings, ?_, h.once.moves fun _ => ?_⟩, iff_of_true hmarked ?_⟩
  · rcases hplace with rfl | rfl <;> exact hrefused
  · rcases hplace with rfl | rfl <;> exact Nat.zero_le _
  · rcases hplace with rfl | rfl <;> rintro ⟨⟩

/-- **A step of the thread** leaves the settings alone, creates no thread, and keeps
`mRunning` unless it is the last one. -/
theorem Thread.Sound.step {ticker : Ticker F} {thread : Thread F} {choice : Choice F}
    {stepped : Stepped F} (h : thread.Sound ticker) (hrunning : ticker.mRunning = true)
    (hstep : Steps ticker thread choice stepped) :
    stepped.created = [] ∧ stepped.thread.Sound stepped.ticker ∧
      (stepped.ticker.mRunning = true ↔ stepped.thread.Live) := by
  have hmode := h.mSingleShot
  have hrefused := h.refused
  cases hstep with
  | goes hgoes =>
      obtain ⟨hplace, hlive, hcoming⟩ := hgoes.keeps
      refine ⟨rfl, ⟨h.settings, hplace, ?_⟩, iff_of_true hrunning hlive⟩
      exact h.once.moves fun hsingle => hcoming (hmode.trans hsingle)
  | invoke hticking =>
      refine ⟨rfl, ⟨h.settings, trivial, ?_⟩, iff_of_true hrunning (by rintro ⟨⟩)⟩
      intro hsingle
      have hbefore := h.once hsingle
      rwa [hticking] at hbefore
  | inFunction hcalls =>
      rw [hcalls] at hrefused
      exact h.access hrunning hrefused (Or.inl rfl)
  | stopping hcalls =>
      rw [hcalls] at hrefused
      exact h.access hrunning hrefused (Or.inr rfl)
  | finish hleaves =>
      refine ⟨rfl, ⟨h.settings, trivial, h.once.moves fun _ => Nat.zero_le _⟩, ?_⟩
      exact iff_of_false (by rintro ⟨⟩) fun hlive => hlive rfl

/-! ## Phases -/

/-- All threads have finished. -/
def Over (threads : List (Thread F)) : Prop :=
  ∀ thread ∈ threads, thread.place = .finished ∧ thread.Once

/-- **The three phases of a ticker.** -/
inductive Phase (s : System F) : Prop
  | stopped (ended : Over s.threads) (running : s.ticker.mRunning = false)
      (client : ¬s.client.Starting)
  /-- `Start` has set `mRunning` and not created its thread yet. -/
  | starting (ended : Over s.threads) (running : s.ticker.mRunning = true)
      (client : s.client.Starting)
  | ticks (before : List (Thread F)) (thread : Thread F)
      (threads : s.threads = before ++ [thread]) (ended : Over before) (live : thread.Live)
      (sound : thread.Sound s.ticker) (running : s.ticker.mRunning = true)
      (client : s.client.Refused)

theorem not_starting_of_refused {position : Position F} (h : position.Refused) :
    ¬position.Starting := by
  cases position with
  | marked => exact absurd h id
  | creating => exact absurd h id
  | _ => exact id

/-- The client makes a call. -/
theorem Phase.call {s : System F} (h : Phase s) (houtside : s.client = .outside)
    (call : Call F) : Phase { s with client := .entered call, lastCall := some call } := by
  cases h with
  | stopped hover hrunning _ => exact .stopped hover hrunning id
  | starting _ _ hclient =>
      rw [houtside] at hclient
      exact absurd hclient id
  | ticks before thread hthreads hover hlive hsound hrunning _ =>
      exact .ticks before thread hthreads hover hlive hsound hrunning trivial

theorem Thread.Sound.of_settings {ticker ticker' : Ticker F} {thread : Thread F}
    (h : thread.Sound ticker) (hsettings : ticker'.settings = ticker.settings) :
    thread.Sound ticker' :=
  ⟨hsettings.trans h.settings, h.refused, h.once⟩

/-- An access of the client. -/
theorem Phase.client {s : System F} (h : Phase s) :
    Phase
      { s with
        ticker := (s.ticker.access s.client).2
        client := (s.ticker.access s.client).1
        threads := s.threads ++ s.ticker.created s.client } := by
  cases h with
  | stopped hover hrunning hclient =>
      obtain ⟨hnone, hnext⟩ := access_of_not_running hrunning hclient
      rw [hnone, List.append_nil]
      rcases hnext with ⟨hstill, hposition⟩ | ⟨hmarked, hposition⟩
      · exact .stopped hover hstill hposition
      · exact .starting hover hmarked hposition
  | starting hover hrunning hclient =>
      obtain ⟨ticker, client, lastCall, threads⟩ := s
      cases client with
      | marked =>
          rw [show ticker.created .marked = [] from rfl, List.append_nil]
          exact .starting hover hrunning trivial
      | creating =>
          refine .ticks threads { accepted := ticker.settings } rfl hover (by rintro ⟨⟩)
            ⟨rfl, trivial, fun _ => ?_⟩ hrunning trivial
          exact Nat.le_refl 1
      | _ => exact absurd hclient id
  | ticks before thread hthreads hover hlive hsound hrunning hclient =>
      obtain ⟨hposition, hkept, hmarked, hnone⟩ := access_of_refused hrunning hclient
      rw [hnone, List.append_nil]
      exact .ticks before thread hthreads hover hlive (hsound.of_settings hkept) hmarked hposition

/-- A thread that has finished does nothing. -/
theorem not_steps_of_finished {ticker : Ticker F} {thread : Thread F} {choice : Choice F}
    {stepped : Stepped F} (h : thread.place = .finished) :
    ¬Steps ticker thread choice stepped := by
  intro hstep
  cases hstep with
  | goes hgoes =>
      rw [h] at hgoes
      cases hgoes
  | invoke hplace => cases h.symm.trans hplace
  | inFunction hplace => cases h.symm.trans hplace
  | stopping hplace => cases h.symm.trans hplace
  | finish hplace => cases h.symm.trans hplace

theorem Over.concat {threads : List (Thread F)} {thread : Thread F} (h : Over threads)
    (hfinished : thread.place = .finished) (honce : thread.Once) :
    Over (threads ++ [thread]) := by
  intro other hother
  rcases List.mem_append.1 hother with hbefore | hlast
  · exact h other hbefore
  · rw [List.mem_singleton.1 hlast]
    exact ⟨hfinished, honce⟩

theorem Over.not_live {threads : List (Thread F)} (h : Over threads) :
    ¬∃ thread ∈ threads, thread.Live := by
  rintro ⟨thread, hmem, hlive⟩
  exact hlive (h thread hmem).1

/-- Behind threads that have finished a live one is found at one place only. -/
theorem Over.index_of_live {before : List (Thread F)} (h : Over before) {last thread : Thread F}
    {index : ℕ} (hthread : (before ++ [last])[index]? = some thread) (hlive : thread.Live) :
    index = before.length ∧ thread = last := by
  rcases Nat.lt_or_ge index before.length with hold | hnew
  · rw [List.getElem?_append_left hold] at hthread
    exact absurd ⟨thread, List.mem_of_getElem? hthread, hlive⟩ h.not_live
  · rw [List.getElem?_append_right hnew] at hthread
    obtain ⟨hindex, hlast⟩ := List.getElem?_eq_some_iff.1 hthread
    rw [List.length_singleton] at hindex
    exact ⟨by omega, by simpa using hlast.symm⟩

/-- A thread that steps is the last one, and finds the ticker as it was started. -/
theorem Phase.last_of_steps {s : System F} (h : Phase s) {index : ℕ} {thread : Thread F}
    {choice : Choice F} {stepped : Stepped F} (hthread : s.threads[index]? = some thread)
    (hstep : Steps s.ticker thread choice stepped) :
    ∃ before, s.threads = before ++ [thread] ∧ index = before.length ∧ Over before ∧
      thread.Sound s.ticker ∧ s.ticker.mRunning = true ∧ s.client.Refused := by
  have hlive : thread.Live := fun hfinished => not_steps_of_finished hfinished hstep
  have hsome : ∃ thread ∈ s.threads, thread.Live :=
    ⟨thread, List.mem_of_getElem? hthread, hlive⟩
  cases h with
  | stopped hover _ _ => exact absurd hsome hover.not_live
  | starting hover _ _ => exact absurd hsome hover.not_live
  | ticks before last hthreads hover _ hsound hrunning hclient =>
      rw [hthreads] at hthread
      obtain ⟨hindex, rfl⟩ := hover.index_of_live hthread hlive
      exact ⟨before, hthreads, hindex, hover, hsound, hrunning, hclient⟩

theorem set_length_concat (before : List (Thread F)) (thread thread' : Thread F) :
    (before ++ [thread]).set before.length thread' = before ++ [thread'] := by
  rw [List.set_append_right _ _ (Nat.le_refl _), Nat.sub_self, List.set_cons_zero]

theorem Phase.thread {s : System F} (h : Phase s) {index : ℕ} {thread : Thread F}
    {choice : Choice F} {stepped : Stepped F} (hthread : s.threads[index]? = some thread)
    (hstep : Steps s.ticker thread choice stepped) :
    Phase
      { s with
        ticker := stepped.ticker
        threads := s.threads.set index stepped.thread ++ stepped.created } := by
  obtain ⟨before, hthreads, rfl, hover, hsound, hrunning, hclient⟩ :=
    h.last_of_steps hthread hstep
  obtain ⟨hnone, hsound', hmarked⟩ := hsound.step hrunning hstep
  rw [hthreads, hnone, List.append_nil, set_length_concat]
  by_cases hfinished : stepped.thread.place = .finished
  · refine .stopped (hover.concat hfinished hsound'.once) ?_ (not_starting_of_refused hclient)
    rw [← Bool.not_eq_true, hmarked]
    exact fun hlive => hlive hfinished
  · exact .ticks before stepped.thread rfl hover hfinished hsound' (hmarked.2 hfinished) hclient

theorem Phase.step {s s' : System F} (h : Phase s) {action : Action F}
    (hstep : next action s = some s') : Phase s' := by
  cases acts_of_next hstep with
  | call call houtside => exact h.call houtside call
  | client _ => exact h.client
  | thread _ _ hthread hsteps => exact h.thread hthread hsteps

/-! ## One thread -/

/-- Somebody who is not in another call may call `IsRunning`: the client, or the function on
the thread that has called it. -/
def System.CanAsk (s : System F) : Prop :=
  s.client = .outside ∨ ∃ thread ∈ s.threads, thread.place = .inFunction .outside

/-- One thread at most, what it tells of itself, and what it finds. -/
structure OneThread (s : System F) : Prop where
  unique : ∀ (i j : ℕ) (first second : Thread F), s.threads[i]? = some first →
    s.threads[j]? = some second → first.Live → second.Live → i = j
  asked : s.CanAsk → (s.ticker.isRunning = true ↔ ∃ thread ∈ s.threads, thread.Live)
  /-- From `mRunning = true` on the thread of a `Start` counts, too. -/
  marked : s.ticker.mRunning = true ↔ (∃ thread ∈ s.threads, thread.Live) ∨ s.client.Starting
  settings : ∀ thread ∈ s.threads, thread.Live → s.ticker.settings = thread.accepted
  once : ∀ thread ∈ s.threads, thread.accepted.mSingleShot = true → thread.invocations ≤ 1

theorem Thread.Once.invocations_le {thread : Thread F} (h : thread.Once)
    (hsingle : thread.accepted.mSingleShot = true) : thread.invocations ≤ 1 :=
  (Nat.le_add_right _ _).trans (h hsingle)

theorem OneThread.of_over {s : System F} (h : Over s.threads)
    (hmarked : s.ticker.mRunning = true ↔ s.client.Starting) : OneThread s where
  unique i _ first _ hfirst _ hlive _ :=
    absurd ⟨first, List.mem_of_getElem? hfirst, hlive⟩ h.not_live
  asked hask := by
    rcases hask with houtside | ⟨thread, hmem, hplace⟩
    · rw [isRunning, hmarked, houtside]
      exact iff_of_false id h.not_live
    · cases (h thread hmem).1.symm.trans hplace
  marked := by rw [hmarked, or_iff_right h.not_live]
  settings thread hmem hlive := absurd ⟨thread, hmem, hlive⟩ h.not_live
  once thread hmem := (h thread hmem).2.invocations_le

theorem Phase.oneThread {s : System F} (h : Phase s) : OneThread s := by
  cases h with
  | stopped hover hrunning hclient =>
      refine .of_over hover (iff_of_false ?_ hclient)
      rw [hrunning]
      exact Bool.false_ne_true
  | starting hover hrunning hclient => exact .of_over hover (iff_of_true hrunning hclient)
  | ticks before last hthreads hover hlive hsound hrunning hclient =>
      have hlast : ∃ thread ∈ s.threads, thread.Live :=
        ⟨last, hthreads ▸ List.mem_append_right _ List.mem_cons_self, hlive⟩
      refine
        { unique := fun i j first second hfirst hsecond hfirstLive hsecondLive => ?_
          asked := fun _ => iff_of_true hrunning hlast
          marked := iff_of_true hrunning (Or.inl hlast)
          settings := fun thread hmem hthreadLive => ?_
          once := fun thread hmem hsingle => ?_ }
      · rw [hthreads] at hfirst hsecond
        rw [(hover.index_of_live hfirst hfirstLive).1,
          (hover.index_of_live hsecond hsecondLive).1]
      · rw [hthreads] at hmem
        obtain ⟨index, hindex⟩ := List.getElem?_of_mem hmem
        rw [(hover.index_of_live hindex hthreadLive).2]
        exact hsound.settings
      · rw [hthreads] at hmem
        rcases List.mem_append.1 hmem with hbefore | hmem
        · exact (hover thread hbefore).2.invocations_le hsingle
        · rw [List.mem_singleton.1 hmem] at hsingle ⊢
          exact hsound.once.invocations_le hsingle

theorem phase_new (function : Option F) (singleShot : Bool) : Phase (new function singleShot) :=
  .stopped (by rintro thread ⟨⟩) rfl id

/-- **One thread at a time**, whatever the client and the function call and in whatever
order the accesses come. -/
theorem one_thread (function : Option F) (singleShot : Bool) {s : System F}
    (hrun : Relation.ReflTransGen Step (new function singleShot) s) : OneThread s := by
  refine (Transition.invariant_of_run (I := Phase) ?_ (phase_new function singleShot)
    hrun).oneThread
  rintro s s' hphase ⟨action, -, hstep⟩
  exact hphase.step hstep

/-- An access of the client, so often. -/
def accesses (count : ℕ) : List (Action F) :=
  List.replicate count .client

/-- The steps of a thread, one after the other. -/
def steps (index count : ℕ) : List (Action F) :=
  List.replicate count (.thread index .next)

/-- In single-shot mode, the function calls `Start` and the client calls `Stop`. -/
def oneShot : List (Action Unit) :=
  .call (.setInterval { count := 1 }) :: accesses 2 ++ .call .start :: accesses 6 ++
    steps 0 1 ++ .thread 0 .timeout :: steps 0 2 ++ .thread 0 (.call .start) :: .call .stop ::
      steps 0 2 ++ accesses 3 ++ steps 0 6

theorem one_thread_oneShot :
    ∃ s, Transition.follow next (fun _ _ => true) oneShot (new (some ()) true) = some s ∧
      s.threads.map (·.invocations) = [1] ∧ OneThread s :=
  ⟨_, rfl, rfl, one_thread (some ()) true (Transition.run_of_follow oneShot rfl)⟩

end Ticker

end NewCPP
