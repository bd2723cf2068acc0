import NewCPP.Tools.Ticker

/-!
# Starting a ticker again

`Stop` only asks the thread to end.  Until the thread has cleared `mRunning`, `Start` takes
it for one that goes on, and returns.

* `start_kept` — a ticker whose client has called `Start` last is running, in every run in
  which no `Start` finds `mRunning` set after the thread was asked to stop.
* `not_start_kept` — otherwise the thread ends and nothing comes in its place.

## Design notes

**What is lost.**  `System.loses` is the step of `Start` in which a call finds `mRunning` set
although the thread behind it has been asked to stop.  `notLost` restricts a run to steps that
are not such a one, so that the condition is about the run alone.

**The invariant.**  `Kept` has three parts: where a thread may be, what the threads know of a
request to stop (`Thread.Asked`), and, if the last call was `Start`, how far the call or its
thread has got (`Started`).
-/

namespace NewCPP

open Library

universe u

variable {F : Type u}

namespace Ticker

/-- What `Start` asks for: a function, an interval of a second at least, and ticks that go
on. -/
def periodic (ticker : Ticker F) : Bool :=
  ticker.mFunction.isSome && decide (1 ≤ ticker.mInterval) && !ticker.mSingleShot

/-- The client is about to find `mRunning` set by a thread that was asked to stop. -/
def System.loses (s : System F) : Bool :=
  match s.client with
  | .entered .start => s.ticker.mRunning && s.ticker.mStopRequested && s.ticker.periodic
  | _ => false

/-- The function of the ticker does not stop it. -/
def Action.isClients : Action F → Bool
  | .thread _ (.call .stop) => false
  | _ => true

/-- The client does not lose a `Start`. -/
def notLost (s : System F) : Action F → Bool
  | .client => !s.loses
  | action => action.isClients

/-- All threads have ended or are waiting. -/
def System.Quiet (s : System F) : Prop :=
  ∀ thread ∈ s.threads, thread.place = .finished ∨ thread.place = .waiting

/-- After a `Start` the ticker is running. -/
def StartKept (s : System F) : Prop :=
  s.lastCall = some .start → s.client = .outside → s.ticker.periodic = true → s.Quiet →
    s.ticker.isRunning = true

/-! ## A thread that was asked to stop -/

/-- How far a thread can be while nobody has asked it to stop. -/
def Thread.Asked (ticker : Ticker F) (thread : Thread F) : Prop :=
  match thread.place with
  | .leaving => ticker.mStopRequested = true
  | .stopping position =>
      thread.accepted.mSingleShot = true ∧
        (position = .entered .stop ∨ position = .passed .stop ∨ ticker.mStopRequested = true)
  | .inFunction position => position = .outside ∨ ∃ call, call ≠ .stop ∧ position = .entered call
  | _ => True

theorem Thread.Asked.of_finished {ticker : Ticker F} {thread : Thread F}
    (h : thread.place = .finished) : thread.Asked ticker := by
  rw [Thread.Asked, h]
  trivial

theorem Thread.Asked.mono {ticker ticker' : Ticker F} {thread : Thread F}
    (h : thread.Asked ticker)
    (hstop : ticker.mStopRequested = true → ticker'.mStopRequested = true) :
    thread.Asked ticker' := by
  obtain ⟨place, invocations, accepted⟩ := thread
  cases place with
  | leaving => exact hstop h
  | stopping position => exact ⟨h.1, h.2.imp_right fun hother => hother.imp_right hstop⟩
  | inFunction position => exact h
  | _ => trivial

/-- A caller that is not let through takes no request back. -/
theorem mStopRequested_access {ticker : Ticker F} {position : Position F}
    (h : position.Refused) (hstop : ticker.mStopRequested = true) :
    (ticker.access position).2.mStopRequested = true := by
  cases position with
  | outside => exact hstop
  | entered call => cases call <;> exact hstop
  | passed call =>
      cases call with
      | stop => rfl
      | _ => exact absurd h id
  | notifying => exact hstop
  | _ => exact absurd h id

/-- A caller that does not stop the ticker changes nothing while it is running. -/
theorem access_of_not_stop {ticker : Ticker F} {position : Position F}
    (hrunning : ticker.mRunning = true)
    (h : position = .outside ∨ ∃ call, call ≠ .stop ∧ position = .entered call) :
    ticker.access position = (.outside, ticker) := by
  rcases h with rfl | ⟨call, hcall, rfl⟩
  · rfl
  · cases call with
    | stop => exact absurd rfl hcall
    | _ => simp only [access, hrunning, if_true]

/-- What a step of the thread does to the request, and what it tells of it. -/
theorem Thread.Asked.step {ticker : Ticker F} {thread : Thread F} {choice : Choice F}
    {stepped : Stepped F} (h : thread.Asked ticker) (hsound : thread.Sound ticker)
    (hrunning : ticker.mRunning = true) (hchoice : choice ≠ .call .stop)
    (hstep : Steps ticker thread choice stepped) :
    stepped.thread.Asked stepped.ticker ∧
      (ticker.mSingleShot = false → ticker.mStopRequested = false →
        stepped.ticker = ticker) := by
  have hmode := hsound.mSingleShot
  cases hstep with
  | goes hgoes =>
      refine ⟨?_, fun _ _ => rfl⟩
      obtain ⟨place, invocations, accepted⟩ := thread
      cases hgoes with
      | leave hstop => exact hstop
      | stop hstop => exact hstop
      | call call => exact Or.inr ⟨call, fun hcall => hchoice (congrArg _ hcall), rfl⟩
      | singleShot hsingle => exact ⟨hmode.symm.trans hsingle, Or.inl rfl⟩
      | stopped => exact (h.2.resolve_left (by rintro ⟨⟩)).resolve_left (by rintro ⟨⟩)
      | _ => trivial
  | invoke hticking => exact ⟨Or.inl rfl, fun _ _ => rfl⟩
  | inFunction hcalls =>
      rw [Thread.Asked, hcalls] at h
      rw [access_of_not_stop hrunning h]
      exact ⟨Or.inl rfl, fun _ _ => rfl⟩
  | @stopping position hcalls =>
      rw [Thread.Asked, hcalls] at h
      obtain ⟨hsingle, hposition⟩ := h
      refine ⟨⟨hsingle, ?_⟩, fun hperiodic => ?_⟩
      · rcases hposition with rfl | rfl | hstop
        · right
          left
          simp only [access, hrunning, if_true]
        · exact Or.inr (Or.inr rfl)
        · have hrefused := hsound.refused
          rw [hcalls] at hrefused
          exact Or.inr (Or.inr (mStopRequested_access hrefused hstop))
      · rw [hmode, hsingle] at hperiodic
        cases hperiodic
  | finish hleaves =>
      rw [Thread.Asked, hleaves] at h
      refine ⟨trivial, fun _ hstop => ?_⟩
      rw [h] at hstop
      cases hstop

/-! ## The most recent call -/

/-- The caller may be in `Start`, or has returned. -/
def Position.InStart : Position F → Prop
  | .outside | .entered .start | .passed .start | .hasFunction | .hasInterval | .marked
  | .creating => True
  | _ => False

/-- What holds of a client whose most recent call is `Start`. -/
structure Started (s : System F) : Prop where
  client : s.client.InStart
  returned : s.client = .outside → s.ticker.periodic = true →
    s.ticker.mRunning = true ∧ s.ticker.mStopRequested = false
  creating : s.client = .creating → s.ticker.mStopRequested = false

/-- An access of a client that is in `Start` and does not lose it. -/
theorem Started.client_step {s : System F} (h : Started s) (hlost : s.loses = false)
    (hinside : s.client ≠ .outside) (hmarked : s.client.Starting → s.ticker.mRunning = true)
    (threads : List (Thread F)) :
    Started
      { s with
        ticker := (s.ticker.access s.client).2
        client := (s.ticker.access s.client).1
        threads := threads } := by
  obtain ⟨ticker, client, lastCall, _⟩ := s
  obtain ⟨hclient, -, hcreating⟩ := h
  cases client with
  | outside => exact absurd rfl hinside
  | entered call =>
      cases call with
      | start =>
          cases hrunning : ticker.mRunning with
          | true =>
              simp only [access, hrunning, if_true]
              refine ⟨trivial, fun _ hperiodic => ⟨hrunning, ?_⟩, by rintro ⟨⟩⟩
              -- the thread that the client relies on was not asked to stop
              simpa [System.loses, hrunning, hperiodic] using hlost
          | false =>
              simp only [access, hrunning, Bool.false_eq_true, if_false]
              exact ⟨trivial, by rintro ⟨⟩, by rintro ⟨⟩⟩
      | _ => exact absurd hclient id
  | passed call =>
      cases call with
      | start =>
          cases hfunction : ticker.mFunction.isSome <;>
            simp only [access, hfunction, Bool.false_eq_true, if_true, if_false]
          · refine ⟨trivial, fun _ hperiodic => ?_, by rintro ⟨⟩⟩
            simp [periodic, hfunction] at hperiodic
          · exact ⟨trivial, by rintro ⟨⟩, by rintro ⟨⟩⟩
      | _ => exact absurd hclient id
  | hasFunction =>
      by_cases hinterval : ticker.mInterval = 0
      · simp only [access, if_pos hinterval]
        refine ⟨trivial, fun _ hperiodic => ?_, by rintro ⟨⟩⟩
        simp [periodic, hinterval] at hperiodic
      · simp only [access, if_neg hinterval]
        exact ⟨trivial, by rintro ⟨⟩, by rintro ⟨⟩⟩
  | hasInterval => exact ⟨trivial, by rintro ⟨⟩, by rintro ⟨⟩⟩
  | marked => exact ⟨trivial, by rintro ⟨⟩, fun _ => rfl⟩
  | creating => exact ⟨trivial, fun _ _ => ⟨hmarked trivial, hcreating rfl⟩, by rintro ⟨⟩⟩
  | notifying => exact absurd hclient id

/-- A ticker whose threads and whose client know of each other. -/
structure Kept (s : System F) : Prop where
  phase : Phase s
  asked : ∀ thread ∈ s.threads, thread.Asked s.ticker
  started : s.lastCall = some .start → Started s

theorem kept_new (function : Option F) (singleShot : Bool) : Kept (new function singleShot) :=
  ⟨phase_new function singleShot, by rintro thread ⟨⟩, by rintro ⟨⟩⟩

theorem Over.asked {threads : List (Thread F)} (h : Over threads) (ticker : Ticker F) :
    ∀ thread ∈ threads, thread.Asked ticker :=
  fun thread hmem => .of_finished (h thread hmem).1

/-- An access of the client asks threads to stop, or finds none. -/
theorem Kept.asked_client {s : System F} (h : Kept s) :
    ∀ thread ∈ s.threads ++ s.ticker.created s.client,
      thread.Asked (s.ticker.access s.client).2 := by
  have hcreated : ∀ thread ∈ s.ticker.created s.client,
      thread.Asked (s.ticker.access s.client).2 := by
    obtain ⟨ticker, client, _, _⟩ := s
    cases client with
    | creating =>
        intro thread hmem
        rw [List.mem_singleton.1 hmem]
        trivial
    | _ => rintro thread ⟨⟩
  refine List.forall_mem_append.2 ⟨?_, hcreated⟩
  cases h.phase with
  | stopped hover _ _ => exact hover.asked _
  | starting hover _ _ => exact hover.asked _
  | ticks _ _ _ _ _ _ _ hclient =>
      exact fun thread hmem => (h.asked thread hmem).mono (mStopRequested_access hclient)

theorem Kept.client {s : System F} (h : Kept s) (hinside : s.client ≠ .outside)
    (hlost : s.loses = false) :
    Kept
      { s with
        ticker := (s.ticker.access s.client).2
        client := (s.ticker.access s.client).1
        threads := s.threads ++ s.ticker.created s.client } where
  phase := h.phase.client
  asked := h.asked_client
  started hcall := by
    refine (h.started hcall).client_step hlost hinside (fun hstarting => ?_) _
    cases h.phase with
    | stopped _ _ hclient => exact absurd hstarting hclient
    | starting _ hrunning _ => exact hrunning
    | ticks _ _ _ _ _ _ hrunning _ => exact hrunning

/-- A client that is refused is not about to create a thread. -/
theorem not_creating_of_refused {position : Position F} (h : position.Refused) :
    position ≠ .creating := by
  rintro rfl
  exact h

theorem periodic_of_settings {ticker ticker' : Ticker F}
    (h : ticker'.settings = ticker.settings) : ticker'.periodic = ticker.periodic := by
  obtain ⟨hfunction, hinterval, hsingle⟩ := Settings.mk.inj h
  rw [periodic, periodic, hfunction, hinterval, hsingle]

theorem mSingleShot_of_periodic {ticker : Ticker F} (h : ticker.periodic = true) :
    ticker.mSingleShot = false := by
  rw [periodic, Bool.and_eq_true, Bool.not_eq_true'] at h
  exact h.2

theorem Kept.thread {s : System F} (h : Kept s) {index : ℕ} {thread : Thread F}
    {choice : Choice F} {stepped : Stepped F} (hthread : s.threads[index]? = some thread)
    (hchoice : choice ≠ .call .stop) (hstep : Steps s.ticker thread choice stepped) :
    Kept
      { s with
        ticker := stepped.ticker
        threads := s.threads.set index stepped.thread ++ stepped.created } := by
  obtain ⟨before, hthreads, rfl, hover, hsound, hrunning, hclient⟩ :=
    h.phase.last_of_steps hthread hstep
  obtain ⟨hnone, hsound', -⟩ := hsound.step hrunning hstep
  obtain ⟨hasked, hsame⟩ :=
    (h.asked thread (List.mem_of_getElem? hthread)).step hsound hrunning hchoice hstep
  have hsettings : stepped.ticker.settings = s.ticker.settings := by
    rw [hsound'.settings, hstep.accepted, hsound.settings]
  refine ⟨h.phase.thread hthread hstep, ?_, fun hcall => ⟨(h.started hcall).client, ?_, ?_⟩⟩
  · rw [hthreads, hnone, List.append_nil, set_length_concat]
    refine List.forall_mem_append.2 ⟨hover.asked _, fun other hother => ?_⟩
    rwa [List.mem_singleton.1 hother]
  · intro houtside hperiodic
    have hbefore : s.ticker.periodic = true := (periodic_of_settings hsettings).symm.trans hperiodic
    obtain ⟨hmarked, hstop⟩ := (h.started hcall).returned houtside hbefore
    rw [hsame (mSingleShot_of_periodic hbefore) hstop]
    exact ⟨hmarked, hstop⟩
  · exact fun hcreating => absurd hcreating (not_creating_of_refused hclient)

theorem Kept.step {s s' : System F} (h : Kept s) {action : Action F}
    (hlost : notLost s action = true) (hstep : next action s = some s') : Kept s' := by
  cases acts_of_next hstep with
  | call call houtside =>
      refine ⟨h.phase.call houtside call, h.asked, fun hcall => ?_⟩
      cases hcall
      exact ⟨trivial, by rintro ⟨⟩, by rintro ⟨⟩⟩
  | client hinside => exact h.client hinside (by simpa [notLost] using hlost)
  | thread index choice hthread hsteps =>
      refine h.thread hthread ?_ hsteps
      rintro rfl
      cases hlost

/-- **A `Start` that is kept.**  In a run in which the function of the ticker does not stop
it and no `Start` finds `mRunning` set after the thread was asked to stop, the ticker is
running whenever the most recent call of the client is `Start`. -/
theorem start_kept (function : Option F) (singleShot : Bool) {s : System F}
    (hrun : Relation.ReflTransGen (Transition.guarded next notLost) (new function singleShot)
      s) : StartKept s := by
  have hkept : Kept s := by
    refine Transition.invariant_of_run (I := Kept) ?_ (kept_new function singleShot) hrun
    rintro s s' hkept ⟨action, hlost, hstep⟩
    exact hkept.step hlost hstep
  exact fun hcall houtside hperiodic _ => ((hkept.started hcall).returned houtside hperiodic).1

/-- The client sets the interval and starts the ticker. -/
def startTicker : List (Action Unit) :=
  .call (.setInterval { count := 1 }) :: accesses 2 ++ .call .start :: accesses 6 ++ steps 0 1

/-- It stops the ticker, waits for the end of the thread and starts the ticker again. -/
def restart : List (Action Unit) :=
  startTicker ++ .call .stop :: accesses 3 ++ steps 0 3 ++ .call .start :: accesses 6 ++
    steps 1 1

theorem start_kept_restart :
    ∃ s, Transition.follow next notLost restart (new (some ()) false) = some s ∧
      s.lastCall = some .start ∧ s.client = .outside ∧ s.ticker.periodic = true ∧ s.Quiet ∧
      StartKept s := by
  refine ⟨_, rfl, rfl, rfl, rfl, ?_, start_kept (some ()) false
    (Transition.run_of_follow restart rfl)⟩
  exact List.forall_mem_cons.2 ⟨Or.inl rfl, List.forall_mem_singleton.2 (Or.inr rfl)⟩

/-- It starts the ticker again before the thread has ended. -/
def lostStart : List (Action Unit) :=
  startTicker ++ .call .stop :: accesses 3 ++ .call .start :: accesses 1 ++ steps 0 3

/-- The second `Start` finds `mRunning` set, and the thread clears it. -/
theorem not_start_kept : ¬∀ (function : Option Unit) (singleShot : Bool) (s : System Unit),
    Relation.ReflTransGen (Transition.guarded next fun _ action => action.isClients)
      (new function singleShot) s → StartKept s := by
  intro h
  have hrun := h (some ()) false _ (Transition.run_of_follow lostStart rfl)
  have hstopped := hrun rfl rfl rfl (List.forall_mem_singleton.2 (Or.inl rfl))
  cases hstopped

end Ticker

end NewCPP
