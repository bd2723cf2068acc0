import NewCPP.Stm.NestedEvents

/-!
# The two models of the engine agree

`FsmHandler` runs a call in one piece; `NestedEvents` runs it step by step, among threads
and behind the mutex.  A table whose actions and guards do not call the handler has both
readings.

* `machine_returns` — whenever a call returns in one piece, the thread that makes it
  while the mutex is free can run to its end, with the same handler, and frees the mutex.

The lifted table wraps each action and each guard into a body that ends at once, and the lifted
handler has the members of the other one.  The proof follows the engine: what one call of
`scan`, `startAction` and the loop does in one piece is a run of the steps of `NestedEvents`
(`scan_runs`, `startAction_runs`, `loop_runs`), during which the mutex stays with the thread.

The converse does not hold, and is not asked for: among threads a call may have to wait for the
mutex, and then it does not run to its end alone.
-/

namespace NewCPP.Stm

open Library

universe u v w x

variable {S : Type u} {D : Type v} {P : Type w}

/-! ## Bodies that only return -/

/-- An action as a body. -/
def liftAction (fn : D → P → D) (data : D) (param : P) : Body D P :=
  .done (fn data param) true

/-- A guard as a body. -/
def liftGuard (conditionfn : D → P → Bool × D) (data : D) (param : P) : Body D P :=
  .done (conditionfn data param).2 (conditionfn data param).1

/-- A row whose guard and action call nothing. -/
def liftRow (row : TransitionRow S (D → P → D) (D → P → Bool × D)) : CallingRow S D P where
  startState := row.startState
  event := row.event
  fn := row.fn.map liftAction
  nextState := row.nextState
  conditionfn := row.conditionfn.map liftGuard

/-- The members of the handler do not depend on what its user code may do. -/
def liftHandler (handler : Handler S D P) : FsmHandler S D P (D → P → Body D P) where
  fsmData := handler.fsmData
  currentState := handler.currentState
  eventQueue := handler.eventQueue
  isPendingEvent := handler.isPendingEvent
  isInitialized := handler.isInitialized
  executed := handler.executed.map fun call => (liftAction call.1, call.2)
  deleted := handler.deleted

theorem hasAny_lift [DecidableEq S] (table : Table S D P) (state : S) :
    FsmHandler.hasAny (table.map liftRow) state = FsmHandler.hasAny table state := by
  rw [FsmHandler.hasAny, List.any_map]
  rfl

theorem popEvent_lift [DecidableEq S] (table : Table S D P) (param : P)
    (handler : Handler S D P) :
    (liftHandler handler).popEvent (table.map liftRow) param =
      liftHandler (handler.popEvent table param) := by
  cases hany : FsmHandler.hasAny table handler.currentState with
  | true =>
      have hany' : FsmHandler.hasAny (table.map liftRow) handler.currentState = true := by
        rw [hasAny_lift, hany]
      rw [FsmHandler.popEvent_of_any hany, FsmHandler.popEvent_of_any hany']
      rfl
  | false =>
      have hany' : FsmHandler.hasAny (table.map liftRow) handler.currentState = false := by
        rw [hasAny_lift, hany]
      rw [FsmHandler.popEvent_of_none hany, FsmHandler.popEvent_of_none hany']
      rfl

/-! ## One activation -/

namespace Machine

variable {T : Type x} [DecidableEq T] [DecidableEq S]

/-- The machine while a thread has the mutex and one activation. -/
def inside (m : Machine T S D P) (t : T) (handler : FsmHandler S D P (D → P → Body D P))
    (frame : Frame S D P) : Machine T S D P :=
  { m with handler := handler, owner := some t }.setThread t { frames := [frame] }

/-- The machine after the call has returned. -/
def returned (m : Machine T S D P) (t : T)
    (handler : FsmHandler S D P (D → P → Body D P)) : Machine T S D P :=
  { m with handler := handler, owner := none }.setThread t {}

variable (m : Machine T S D P) (t : T)

theorem inside_step {table : List (CallingRow S D P)}
    {handler handler' : FsmHandler S D P (D → P → Body D P)} {frame frame' : Frame S D P}
    (hwork : work table handler frame = (handler', .goes frame')) :
    Step table (m.inside t handler frame) (m.inside t handler' frame') := by
  have hnext : (m.inside t handler frame).advance table t frame [] =
      m.inside t handler' frame' := by
    have hwork' : work table (m.inside t handler frame).handler frame =
      (handler', .goes frame') := hwork
    rw [advance, hwork']
    simp only [inside, setThread, Function.update_idem]
  rw [← hnext]
  exact Step.advance t frame [] (setThread_self _ t _)

theorem inside_returns {table : List (CallingRow S D P)}
    {handler : FsmHandler S D P (D → P → Body D P)} (hqueue : handler.eventQueue = []) :
    Step table (m.inside t handler .loop) (m.returned t handler) := by
  have hnext : (m.inside t handler .loop).advance table t .loop [] =
      m.returned t handler := by
    have hwork : work table (m.inside t handler .loop).handler .loop =
        (handler, .returns) := by
      change work table handler .loop = _
      rw [work, hqueue]
    rw [advance, hwork]
    simp only [inside, returned, setThread, Function.update_idem, resume]
  rw [← hnext]
  exact Step.advance t .loop [] (setThread_self _ t _)

variable (table : Table S D P)

/-- Both ways to take a satisfied row. -/
theorem startAction_runs {handler : Handler S D P} {param : P}
    {row : TransitionRow S (D → P → D) (D → P → Bool × D)}
    {before : FsmHandler S D P (D → P → Body D P)} {frame : Frame S D P}
    (hwork : work (table.map liftRow) before frame =
      startAction param (liftRow row) (liftHandler handler)) :
    Relation.ReflTransGen (Step (table.map liftRow)) (m.inside t before frame)
      (m.inside t (liftHandler (handler.takeRow row param)) (.processed param)) := by
  cases hfn : row.fn with
  | none =>
      have hstart : startAction param (liftRow row) (liftHandler handler) =
          (liftHandler (handler.takeRow row param), .goes (.processed param)) := by
        simp only [startAction, liftRow, FsmHandler.takeRow, hfn, Option.map_none]
        rfl
      rw [hstart] at hwork
      exact Relation.ReflTransGen.single (m.inside_step t hwork)
  | some fn =>
      have hstart : startAction param (liftRow row) (liftHandler handler) =
          ({ liftHandler handler with
              isPendingEvent := true
              executed := (liftHandler handler).executed ++ [(liftAction fn, param)] },
            .goes (.action param (liftRow row) (.done (fn handler.fsmData param) true))) := by
        simp only [startAction, liftRow, hfn, Option.map_some]
        rfl
      rw [hstart] at hwork
      refine (Relation.ReflTransGen.single (m.inside_step t hwork)).tail (m.inside_step t ?_)
      simp only [work, FsmHandler.takeRow, hfn, liftHandler, List.map_append, List.map_cons,
        List.map_nil, liftRow]

/-- `ProcessEvent` row by row. -/
theorem scan_runs (ev : ℤ) (param : P) (rows : Table S D P) :
    ∀ handler : Handler S D P, Relation.ReflTransGen (Step (table.map liftRow))
      (m.inside t (liftHandler handler) (.scan ev param (rows.map liftRow)))
      (m.inside t (liftHandler (FsmHandler.processEvent ev param rows handler).2)
        (.processed param)) := by
  induction rows with
  | nil => exact fun handler => Relation.ReflTransGen.single (m.inside_step t rfl)
  | cons row rows ih =>
      intro handler
      rw [FsmHandler.processEvent_cons, List.map_cons]
      by_cases hrow : handler.currentState = row.startState ∧ ev = row.event
      · have hlifted : (liftHandler handler).currentState = (liftRow row).startState ∧
            ev = (liftRow row).event := hrow
        rw [if_pos hrow]
        cases hguard : row.conditionfn with
        | none =>
            have hcondition : FsmHandler.condition row param handler.fsmData =
                (false, handler.fsmData) := by
              rw [FsmHandler.condition, hguard]
            dsimp only
            rw [hcondition, Option.isNone_none, Bool.or_true, if_pos rfl]
            refine startAction_runs m t table ?_
            rw [work, if_pos hlifted]
            simp only [liftRow, hguard, Option.map_none]
        | some conditionfn =>
            have hcondition : FsmHandler.condition row param handler.fsmData =
                conditionfn handler.fsmData param := by
              rw [FsmHandler.condition, hguard]
            have hask : work (table.map liftRow) (liftHandler handler)
                (.scan ev param (liftRow row :: rows.map liftRow)) =
                (liftHandler handler, .goes (.guard ev param (liftRow row)
                  (rows.map liftRow) (liftGuard conditionfn handler.fsmData param))) := by
              rw [work, if_pos hlifted]
              simp only [liftRow, hguard, Option.map_some]
              rfl
            dsimp only
            rw [hcondition, Option.isNone_some, Bool.or_false]
            refine Relation.ReflTransGen.head (m.inside_step t hask) ?_
            -- the guard has run; its answer decides between the action and the next row
            cases hasked : (conditionfn handler.fsmData param).1 with
            | true =>
                refine startAction_runs m t table ?_
                rw [liftGuard, work, hasked]
                rfl
            | false =>
                refine Relation.ReflTransGen.head (m.inside_step t ?_) (ih _)
                rw [liftGuard, work, hasked]
                rfl
      · have hlifted : ¬((liftHandler handler).currentState = (liftRow row).startState ∧
            ev = (liftRow row).event) := hrow
        rw [if_neg hrow]
        refine Relation.ReflTransGen.head (m.inside_step t ?_) (ih handler)
        rw [work, if_neg hlifted]

/-- The loop, as long as it runs. -/
theorem loop_runs (fuel : ℕ) :
    ∀ {handler handler' : Handler S D P},
      FsmHandler.runStateMachine table fuel handler = some handler' →
      Relation.ReflTransGen (Step (table.map liftRow))
        (m.inside t (liftHandler handler) .loop) (m.returned t (liftHandler handler')) := by
  induction fuel with
  | zero =>
      intro handler handler' hrun
      cases hrun
  | succ fuel ih =>
      intro handler handler' hrun
      rw [FsmHandler.runStateMachine] at hrun
      cases hqueue : handler.eventQueue with
      | nil =>
          rw [hqueue] at hrun
          cases hrun
          exact Relation.ReflTransGen.single (m.inside_returns t hqueue)
      | cons front rest =>
          obtain ⟨ev, param⟩ := front
          rw [hqueue] at hrun
          have hscan : work (table.map liftRow) (liftHandler handler) .loop =
              (liftHandler handler, .goes (.scan ev param (table.map liftRow))) := by
            have hqueue' : (liftHandler handler).eventQueue = (ev, param) :: rest := hqueue
            rw [work, hqueue']
          have hpop : work (table.map liftRow)
              (liftHandler (FsmHandler.processEvent ev param table handler).2)
              (.processed param) =
              (liftHandler (FsmHandler.dispatchFront table ev param handler),
                .goes .loop) := by
            rw [work, popEvent_lift]
            rfl
          have hscanned := (scan_runs m t table ev param table handler).head
            (m.inside_step t hscan)
          exact (hscanned.tail (m.inside_step t hpop)).trans (ih hrun)

/-- **The two models agree.**  Where a call returns in one piece, a thread that makes it
while the mutex is free returns with the same handler, and the mutex is free again. -/
theorem machine_returns {handler handler' : Handler S D P} {ev : ℤ} {param : P}
    (hreturns : FsmHandler.FireReturns table ev param handler handler')
    (hhandler : m.handler = liftHandler handler) (hfree : m.owner = none)
    (hidle : m.threads t = {}) :
    ∃ m', Relation.ReflTransGen (Step (table.map liftRow)) m m' ∧
      m'.handler = liftHandler handler' ∧ m'.owner = none ∧ m'.threads t = {} := by
  obtain ⟨fuel, hfire⟩ := hreturns
  rw [FsmHandler.fireEvent] at hfire
  have hcall : Step (table.map liftRow) m (m.fireEvent t ev param) :=
    Step.call t ev param hidle
  by_cases hinit : handler.isInitialized = true
  · have hinit' : m.handler.isInitialized = true := by
      rw [hhandler]
      exact hinit
    rw [if_pos hinit] at hfire
    rw [fireEvent, if_pos hinit', hidle] at hcall
    have hthread := setThread_self m t { request := some (ev, param) }
    have hlock : Step (table.map liftRow) (m.setThread t { request := some (ev, param) })
        ((m.setThread t { request := some (ev, param) }).lock t ev param) :=
      Step.lock t ev param (congrArg Thread.request hthread) hfree
    have hruns := (Relation.ReflTransGen.single hcall).tail hlock
    rw [Machine.lock, setThread_handler, hthread, hhandler] at hruns
    dsimp only at hfire hruns
    by_cases hpending : handler.isPendingEvent = true
    · have hpending' : (liftHandler handler).isPendingEvent = true := hpending
      rw [if_pos hpending] at hfire
      rw [if_pos hpending'] at hruns
      cases hfire
      exact ⟨_, hruns, rfl, hfree, setThread_self _ t _⟩
    · have hpending' : ¬(liftHandler handler).isPendingEvent = true := hpending
      rw [if_neg hpending] at hfire
      rw [if_neg hpending'] at hruns
      refine ⟨m.returned t (liftHandler handler'), hruns.trans ?_, rfl, rfl,
        setThread_self _ t _⟩
      have hloop := loop_runs m t table fuel hfire
      simp only [inside, setThread, Function.update_idem] at hloop ⊢
      exact hloop
  · have hinit' : ¬m.handler.isInitialized = true := by
      rw [hhandler]
      exact hinit
    rw [if_neg hinit] at hfire
    cases hfire
    refine ⟨_, Relation.ReflTransGen.single hcall, ?_, ?_, ?_⟩
    · rw [fireEvent_handler, hhandler]
    · rw [fireEvent_owner, hfree]
    · rw [fireEvent, if_neg hinit', setThread_self, hidle]
      rfl

end Machine

end NewCPP.Stm
