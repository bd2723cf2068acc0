import NewCPP.TimerFramework.CallbackOwner

/-!
# A stopped timer stays silent

`TIMERCALLBACK` events of a timer may be in the queue when it is stopped, and its thread
may post one while the worker waits in the join.  The worker looks the id up when it gets
to them, and by then the timer is off the list.

* `silent_after_stop` — once the worker has taken up a `TIMERSTOP`, no callback for its id
  runs until the worker takes up a `TIMERSTART` of that id.

## Design notes

The list has at most one timer for an id, in every run (`unique_of_run`); removing the
first one therefore removes all.  `Silent id` is what a stop leaves behind: no timer of
the id is listed or about to be, or the worker is in the join after which it removes it.

**Runs.**  The theorem is over every continuation in which the worker takes up no new start of
the id: clients may send any other events, timers may elapse, and the worker may be in a join
for another timer.

**Ids and objects.**  A timer that replaces another one has its id and is another object.  What
is silent is the id, whichever objects the events in the queue come from.
-/

namespace NewCPP.TimerFramework

open Library

namespace Worker

/-- The worker takes an event off the queue and processes it, up to the first wait. -/
def Processes (w w' : Worker) (event : Event) : Prop :=
  ∃ rest, w.place = .idle ∧ w.queue = event :: rest ∧
    w' = { w with queue := rest }.dispatch event

/-! ## One timer for an id -/

/-- No two timers of the list have the same id. -/
def UniqueIds (w : Worker) : Prop :=
  (w.timerList.map Timer.id).Nodup

theorem UniqueIds.removeTimer {w : Worker} (h : w.UniqueIds) (id : ℕ) :
    (w.removeTimer id).UniqueIds :=
  h.sublist (List.eraseP_sublist.map Timer.id)

theorem UniqueIds.addTimer {w : Worker} (h : w.UniqueIds) (timer : Timer) :
    (w.addTimer timer).UniqueIds := by
  rw [Worker.addTimer]
  split
  · rename_i hadds
    have habsent := getTimer_eq_none.1 (Option.isNone_iff_eq_none.1 hadds.2)
    show ((w.timerList ++ [timer]).map Timer.id).Nodup
    rw [List.map_append, List.map_singleton, ← List.concat_eq_append]
    refine List.Nodup.concat ?_ h
    rintro hmem
    obtain ⟨other, hother, hid⟩ := List.mem_map.1 hmem
    exact habsent other hother hid
  · exact h

theorem UniqueIds.afterStop {w : Worker} (h : w.UniqueIds) (timer : Timer)
    (next : AfterStop) : (w.afterStop timer next).UniqueIds := by
  cases next with
  | remove id => exact h.removeTimer id
  | replace new => exact h.removeTimer new.id
  | restart => exact h

theorem UniqueIds.stop {w : Worker} (h : w.UniqueIds) (timer : Timer) (next : AfterStop) :
    (w.stop timer next).UniqueIds := by
  rw [Worker.stop]
  split
  · exact UniqueIds.afterStop (w := w.setTimer timer (w.timers timer).stop) h timer next
  · exact h

theorem UniqueIds.dispatch {w : Worker} (h : w.UniqueIds) (event : Event) :
    (w.dispatch event).UniqueIds := by
  have hStopTimer {w : Worker} (h : w.UniqueIds) (id : ℕ) : (w.stopTimer id).UniqueIds := by
    rw [stopTimer]
    split
    · exact h
    · exact h.stop _ _
  cases event with
  | timerStart timer =>
      rw [Worker.dispatch, startTimer]
      split
      · exact h
      · exact h.stop _ _
  | timerStop id => exact hStopTimer h id
  | timerCallback id elapsed =>
      rw [Worker.dispatch, handleCallback]
      split
      · exact h
      · dsimp only
        split
        · exact UniqueIds.stop (by exact h) _ _
        · exact hStopTimer (by exact h) id
  | message => exact h

theorem UniqueIds.step {w w' : Worker} (h : w.UniqueIds) (hstep : Step w w') :
    w'.UniqueIds := by
  cases hstep with
  | dispatch event rest _ _ => exact UniqueIds.dispatch (by exact h) event
  | join timer next _ _ => exact UniqueIds.afterStop (by exact h) timer next
  | start new _ => exact h.addTimer new
  | _ => exact h

theorem unique_of_run {w : Worker} (hrun : Relation.ReflTransGen Step {} w) :
    w.UniqueIds :=
  Transition.invariant_of_run (I := UniqueIds) UniqueIds.step (by exact List.nodup_nil) hrun

/-! ## Silence -/

/-- No timer of an id is in the list or about to be added. -/
structure Without (id : ℕ) (w : Worker) : Prop where
  listed : ∀ timer ∈ w.timerList, timer.id ≠ id
  replacing : ∀ timer new, w.place = .joining timer (.replace new) → new.id ≠ id
  starting : ∀ new, w.place = .starting new → new.id ≠ id

/-- **What a stop leaves behind.** -/
def Silent (id : ℕ) (w : Worker) : Prop :=
  (∃ timer, w.place = .joining timer (.remove id)) ∨ w.Without id

theorem Without.of_idle {id : ℕ} {w : Worker} (hplace : w.place = .idle)
    (hlisted : ∀ timer ∈ w.timerList, timer.id ≠ id) : w.Without id where
  listed := hlisted
  replacing _ _ h := by
    rw [hplace] at h
    cases h
  starting _ h := by
    rw [hplace] at h
    cases h

/-- The callbacks that ran between two states are not for an id. -/
def QuietUntil (id : ℕ) (w w' : Worker) : Prop :=
  ∃ calls, w'.invoked = w.invoked ++ calls ∧ ∀ call ∈ calls, call.timer.id ≠ id

theorem QuietUntil.of_eq {id : ℕ} {w w' : Worker} (h : w'.invoked = w.invoked) :
    QuietUntil id w w' :=
  ⟨[], by rw [h, List.append_nil], by simp⟩

theorem QuietUntil.trans {id : ℕ} {w w' w'' : Worker} (h : QuietUntil id w w')
    (h' : QuietUntil id w' w'') : QuietUntil id w w'' := by
  obtain ⟨calls, hcalls, hquiet⟩ := h
  obtain ⟨calls', hcalls', hquiet'⟩ := h'
  refine ⟨calls ++ calls', by rw [hcalls', hcalls, List.append_assoc], ?_⟩
  rintro call hcall
  rcases List.mem_append.1 hcall with hfirst | hsecond
  · exact hquiet call hfirst
  · exact hquiet' call hsecond

/-! ## Stopping a timer -/

@[simp] theorem afterStop_invoked (w : Worker) (timer : Timer) (next : AfterStop) :
    (w.afterStop timer next).invoked = w.invoked := by
  cases next <;> rfl

@[simp] theorem stop_invoked (w : Worker) (timer : Timer) (next : AfterStop) :
    (w.stop timer next).invoked = w.invoked := by
  rw [stop]
  split
  · exact afterStop_invoked _ _ _
  · rfl

@[simp] theorem stopTimer_invoked (w : Worker) (id : ℕ) :
    (w.stopTimer id).invoked = w.invoked := by
  rw [stopTimer]
  split
  · rfl
  · exact stop_invoked _ _ _

@[simp] theorem startTimer_invoked (w : Worker) (new : Timer) :
    (w.startTimer new).invoked = w.invoked := by
  rw [startTimer]
  split
  · rfl
  · exact stop_invoked _ _ _

@[simp] theorem addAndStart_invoked (w : Worker) (new : Timer) :
    (w.addAndStart new).invoked = w.invoked := by
  rw [addAndStart, addTimer]
  split <;> rfl

theorem listed_removeTimer {w : Worker} {id removed : ℕ}
    (hlisted : ∀ timer ∈ w.timerList, timer.id ≠ id) :
    ∀ timer ∈ (w.removeTimer removed).timerList, timer.id ≠ id :=
  fun timer hmem => hlisted timer (List.mem_of_mem_eraseP hmem)

/-- What follows a stop, for whichever timer, adds no timer of an id that it is not a
replacement for. -/
theorem without_afterStop {id : ℕ} {w : Worker}
    (hlisted : ∀ timer ∈ w.timerList, timer.id ≠ id) {timer : Timer} {next : AfterStop}
    (hnext : ∀ new, next = .replace new → new.id ≠ id) :
    (w.afterStop timer next).Without id := by
  cases next with
  | remove removed => exact Without.of_idle rfl (listed_removeTimer hlisted)
  | replace new =>
      refine ⟨listed_removeTimer hlisted, fun _ _ h => ?_, fun _ h => ?_⟩
      · cases h
      · cases h
        exact hnext new rfl
  | restart => exact Without.of_idle rfl hlisted

theorem without_stop {id : ℕ} {w : Worker}
    (hlisted : ∀ timer ∈ w.timerList, timer.id ≠ id) {timer : Timer} {next : AfterStop}
    (hnext : ∀ new, next = .replace new → new.id ≠ id) :
    (w.stop timer next).Without id := by
  rw [stop]
  split
  · exact without_afterStop (by exact hlisted) hnext
  · refine ⟨hlisted, fun _ new h => ?_, fun _ h => ?_⟩
    · cases h
      exact hnext new rfl
    · cases h

/-- Removing an id leaves no timer of it. -/
theorem UniqueIds.listed_removeTimer {w : Worker} (h : w.UniqueIds) (id : ℕ) :
    ∀ timer ∈ (w.removeTimer id).timerList, timer.id ≠ id :=
  fun _ hmem => id_ne_of_mem_eraseP h hmem

theorem UniqueIds.silent_stop {w : Worker} (h : w.UniqueIds) (timer : Timer) (id : ℕ) :
    (w.stop timer (.remove id)).Silent id := by
  rw [Worker.stop]
  split
  · exact Or.inr (Without.of_idle rfl
      (UniqueIds.listed_removeTimer (w := w.setTimer timer (w.timers timer).stop) h id))
  · exact Or.inl ⟨timer, rfl⟩

/-- **The worker takes up a `TIMERSTOP`.** -/
theorem UniqueIds.silent_stopTimer {w : Worker} (h : w.UniqueIds) (hplace : w.place = .idle)
    (id : ℕ) : (w.stopTimer id).Silent id := by
  rw [stopTimer]
  split
  · rename_i hfind
    exact Or.inr (Without.of_idle hplace (getTimer_eq_none.1 hfind))
  · rename_i timer hfind
    exact h.silent_stop timer id

/-! ## Steps -/

/-- Processing any event but a start of the id. -/
theorem Without.dispatch {id : ℕ} {w : Worker} (h : w.Without id) (hplace : w.place = .idle)
    {event : Event} (hevent : ∀ timer, event = .timerStart timer → timer.id ≠ id) :
    (w.dispatch event).Without id ∧ QuietUntil id w (w.dispatch event) := by
  have hStopTimer {w : Worker} (h : ∀ timer ∈ w.timerList, timer.id ≠ id)
      (hplace : w.place = .idle) (stopped : ℕ) : (w.stopTimer stopped).Without id := by
    rw [stopTimer]
    split
    · exact Without.of_idle hplace h
    · exact without_stop h (by rintro new ⟨⟩)
  cases event with
  | timerStart new =>
      refine ⟨?_, QuietUntil.of_eq (startTimer_invoked w new)⟩
      have hnew := hevent new rfl
      rw [Worker.dispatch, startTimer]
      split
      · refine ⟨h.listed, fun _ _ h => ?_, fun _ h => ?_⟩
        · cases h
        · cases h
          exact hnew
      · refine without_stop h.listed ?_
        rintro _ ⟨⟩
        exact hnew
  | timerStop stopped =>
      exact ⟨hStopTimer h.listed hplace stopped, QuietUntil.of_eq (stopTimer_invoked w stopped)⟩
  | timerCallback expired elapsed =>
      rw [Worker.dispatch, handleCallback]
      split
      · exact ⟨h, QuietUntil.of_eq rfl⟩
      -- the timer whose callback runs is in the list
      · rename_i timer hfind
        have hquiet (w' : Worker)
            (hw' : w'.invoked = w.invoked ++ [{ timer := timer, elapsed := elapsed }]) :
            QuietUntil id w w' := by
          refine ⟨_, hw', ?_⟩
          rintro call hcall
          rw [List.mem_singleton.1 hcall]
          exact h.listed timer (of_getTimer hfind).1
        dsimp only
        split
        · exact ⟨without_stop (by exact h.listed) (by rintro new ⟨⟩), hquiet _ (stop_invoked _ _ _)⟩
        · exact ⟨hStopTimer (by exact h.listed) (by exact hplace) expired,
            hquiet _ (stopTimer_invoked _ _)⟩
  | message => exact ⟨h, QuietUntil.of_eq rfl⟩

theorem Without.addAndStart {id : ℕ} {w : Worker} (h : w.Without id) {new : Timer}
    (hnew : new.id ≠ id) : (w.addAndStart new).Without id := by
  refine Without.of_idle rfl fun timer hmem => ?_
  change timer ∈ (w.addTimer new).timerList at hmem
  rw [addTimer] at hmem
  split at hmem
  · rcases List.mem_append.1 hmem with hold | hadded
    · exact h.listed timer hold
    · rw [List.mem_singleton.1 hadded]
      exact hnew
  · exact h.listed timer hmem

/-- Steps that change neither the list nor the place of the worker. -/
theorem Silent.of_eq {id : ℕ} {w w' : Worker} (h : w.Silent id)
    (hlist : w'.timerList = w.timerList) (hplace : w'.place = w.place) : w'.Silent id := by
  rcases h with ⟨timer, hjoining⟩ | ⟨hlisted, hreplacing, hstarting⟩
  · exact Or.inl ⟨timer, hplace.trans hjoining⟩
  · refine Or.inr ⟨?_, ?_, ?_⟩
    · rwa [hlist]
    · rwa [hplace]
    · rwa [hplace]

/-- A step in which the worker does not take up a start of the id. -/
def StepWithoutStart (id : ℕ) (w w' : Worker) : Prop :=
  Step w w' ∧ ∀ timer, timer.id = id → ¬Processes w w' (.timerStart timer)

theorem Silent.step {id : ℕ} {w w' : Worker} (h : w.Silent id) (hunique : w.UniqueIds)
    (hstep : StepWithoutStart id w w') : w'.Silent id ∧ QuietUntil id w w' := by
  obtain ⟨hstep, hstart⟩ := hstep
  cases hstep with
  | dispatch event rest hidle hfront =>
      rcases h with ⟨timer, hjoining⟩ | hwithout
      · rw [hidle] at hjoining
        cases hjoining
      · have hpopped : ({ w with queue := rest } : Worker).Without id :=
          ⟨hwithout.listed, hwithout.replacing, hwithout.starting⟩
        have hnoStart : ∀ timer, event = .timerStart timer → timer.id ≠ id :=
          fun timer hevent hid => hstart timer hid ⟨rest, hidle, hevent ▸ hfront, by rw [hevent]⟩
        obtain ⟨hafter, hquiet⟩ := hpopped.dispatch hidle hnoStart
        exact ⟨Or.inr hafter, hquiet⟩
  | join timer next hplace _ =>
      refine ⟨Or.inr ?_, QuietUntil.of_eq (afterStop_invoked _ _ _)⟩
      rcases h with ⟨stopped, hjoining⟩ | hwithout
      · rw [hplace] at hjoining
        cases hjoining
        exact Without.of_idle rfl (UniqueIds.listed_removeTimer (by exact hunique) id)
      · refine without_afterStop (by exact hwithout.listed) ?_
        rintro new rfl
        exact hwithout.replacing timer new hplace
  | start new hplace =>
      refine ⟨Or.inr ?_, QuietUntil.of_eq (addAndStart_invoked w new)⟩
      rcases h with ⟨stopped, hjoining⟩ | hwithout
      · rw [hplace] at hjoining
        cases hjoining
      · exact hwithout.addAndStart (hwithout.starting new hplace)
  | _ => exact ⟨h.of_eq rfl rfl, QuietUntil.of_eq rfl⟩

/-- **A stopped timer stays silent.**  In every run, from the moment the worker takes up a
`TIMERSTOP` until it takes up a `TIMERSTART` of the same id, the callbacks that run are
those of timers with other ids. -/
theorem silent_after_stop {w₀ w₁ w₂ : Worker} {id : ℕ}
    (hreached : Relation.ReflTransGen Step {} w₀) (hstop : Processes w₀ w₁ (.timerStop id))
    (hrun : Relation.ReflTransGen (StepWithoutStart id) w₁ w₂) :
    ∃ calls, w₂.invoked = w₀.invoked ++ calls ∧ ∀ call ∈ calls, call.timer.id ≠ id := by
  obtain ⟨rest, hidle, hfront, rfl⟩ := hstop
  have hunique := unique_of_run hreached
  have hpopped : ({ w₀ with queue := rest } : Worker).UniqueIds := hunique
  have hstopped := Step.dispatch (.timerStop id) rest hidle hfront
  have hrun' := Transition.invariant_of_run
    (I := fun w => w.UniqueIds ∧ w.Silent id ∧ QuietUntil id w₀ w) ?_ ?_ hrun
  · exact hrun'.2.2
  · rintro w w' ⟨hunique, hsilent, hquiet⟩ hstep
    obtain ⟨hsilent', hquiet'⟩ := hsilent.step hunique hstep
    exact ⟨hunique.step hstep.1, hsilent', hquiet.trans hquiet'⟩
  · exact ⟨hunique.step hstopped, hpopped.silent_stopTimer hidle id,
      QuietUntil.of_eq (stopTimer_invoked _ id)⟩

/-! ## An expiry that comes too late -/

/-- A client stops timer 0, and then its interval elapses. -/
def stopRequested : Worker :=
  posted (armed.stopTimerEntry 1)

/-- The worker waits in the join, and the `TIMERCALLBACK` of timer 0 is in the queue. -/
def stopping : Worker :=
  ({ stopRequested with queue := [.timerCallback 1 (oneShot 0)] } : Worker).dispatch
    (.timerStop 1)

/-- Timer 0 has been removed. -/
def removed : Worker :=
  (stopping.setTimer (oneShot 0)
    { stopping.timers (oneShot 0) with thread := none }).afterStop (oneShot 0) (.remove 1)

theorem stopRequested_reached : Relation.ReflTransGen Step {} stopRequested := by
  refine (Relation.ReflTransGen.mono (fun _ _ h => h.2) _ _ armed_reached).trans ?_
  refine .head (Step.stopTimerEntry 1) ?_
  refine .head (Step.expire (oneShot 0) rfl rfl) ?_
  exact .single (Step.post (oneShot 0) rfl)

theorem not_Processes_of_queue {w w' : Worker} {event front : Event} {rest : List Event}
    (hfront : w.queue = front :: rest) (hne : front ≠ event) : ¬Processes w w' event := by
  rintro ⟨rest', _, hfront', _⟩
  rw [hfront] at hfront'
  exact hne (List.cons.inj hfront').1

/-- The worker comes to the late `TIMERCALLBACK` and calls nothing. -/
theorem late_callback_silent :
    ∃ calls, (({ removed with queue := [] } : Worker).dispatch
        (.timerCallback 1 (oneShot 0))).invoked = stopRequested.invoked ++ calls ∧
      ∀ call ∈ calls, call.timer.id ≠ 1 := by
  have hstop : Processes stopRequested stopping (.timerStop 1) :=
    ⟨[.timerCallback 1 (oneShot 0)], rfl, rfl, rfl⟩
  have hqueue : stopping.queue = [.timerCallback 1 (oneShot 0)] := rfl
  have hqueue' : removed.queue = [.timerCallback 1 (oneShot 0)] := rfl
  have hjoin : StepWithoutStart 1 stopping removed :=
    ⟨Step.join (oneShot 0) (.remove 1) rfl rfl, fun timer _ =>
      not_Processes_of_queue hqueue (by rintro ⟨⟩)⟩
  refine silent_after_stop stopRequested_reached hstop (.head hjoin (.single ⟨?_, ?_⟩))
  · exact Step.dispatch (.timerCallback 1 (oneShot 0)) [] rfl rfl
  · exact fun timer _ => not_Processes_of_queue hqueue' (by rintro ⟨⟩)

end Worker

end NewCPP.TimerFramework
