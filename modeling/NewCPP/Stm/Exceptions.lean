import NewCPP.Stm.FsmHandler

/-!
# Exceptions from actions and guards

A guard or an action may throw, and `fire_event` lets the exception through.  The mutex is
released by its guard object; the flag, the queue and the parameter are put right by the
statements behind the call, which are not reached.

* `throw_unusable` — whatever has been fired before, after a call that throws the next call
  does not dispatch its own event as a fresh handler in the same state would.
* `redispatched_after_guard` — after an exception from a guard, the next call dispatches the
  failed event first, with its parameter.

## Design notes

**User code.**  Its data are arbitrary, so a choice of the calls that throw is a table whose
guards and actions count them.  What it wrote before it threw stays written.

**Dispatches.**  A `Call` records for which events `ProcessEvent` was called.  Nothing the
code does reads the record.

**Without exceptions.**  A `Table` is a table that throws nothing, and its calls are those
of `FsmHandler`: `ends_of_fireReturns`.
-/

namespace NewCPP.Stm

universe u v w

/-- A guard or an action: the machine data it leaves, and its answer or an exception. -/
abbrev UserCode (D : Type v) (P : Type w) (A : Type) :=
  D → P → D × Option A

/-- A row whose action and guard may throw. -/
abbrev ThrowingRow (S : Type u) (D : Type v) (P : Type w) :=
  TransitionRow S (UserCode D P Unit) (UserCode D P Bool)

/-- A handler whose user code may throw. -/
abbrev ThrowingHandler (S : Type u) (D : Type v) (P : Type w) :=
  FsmHandler S D P (UserCode D P Unit)

/-- How a call of `fire_event` ends. -/
inductive End where
  | returned
  | threw
  /-- still in the loop when the fuel is spent -/
  | running
  deriving DecidableEq, Repr

/-- A call of `fire_event`: its end, the handler it leaves, and the events it dispatched. -/
structure Call (S : Type u) (D : Type v) (P : Type w) where
  ended : End
  handler : ThrowingHandler S D P
  dispatched : List (ℤ × P) := []

namespace Throwing

variable {S : Type u} {D : Type v} {P : Type w}

/-! ## The engine with exceptions -/

/-- A satisfied row; `none` if its action throws. -/
def takeRow (row : ThrowingRow S D P) (param : P) (handler : ThrowingHandler S D P) :
    Option Bool × ThrowingHandler S D P :=
  let handler := { handler with isPendingEvent := true }
  match row.fn with
  | some fn =>
      let left := fn handler.fsmData param
      let handler :=
        { handler with
          fsmData := left.1
          executed := handler.executed ++ [(fn, param)] }
      match left.2 with
      | none => (none, handler)
      | some _ =>
          (some true, { handler with isPendingEvent := false, currentState := row.nextState })
  | none =>
      (some true, { handler with isPendingEvent := false, currentState := row.nextState })

variable [DecidableEq S]

/-- `ProcessEvent` over the rows that are left; `none` if a guard or an action throws. -/
def processEvent (ev : ℤ) (param : P) :
    List (ThrowingRow S D P) → ThrowingHandler S D P → Option Bool × ThrowingHandler S D P
  | [], handler => (some false, handler)
  | row :: rows, handler =>
      if handler.currentState = row.startState ∧ ev = row.event then
        match row.conditionfn with
        | none => takeRow row param handler
        | some conditionfn =>
            let left := conditionfn handler.fsmData param
            let handler := { handler with fsmData := left.1 }
            match left.2 with
            | none => (none, handler)
            | some true => takeRow row param handler
            | some false => processEvent ev param rows handler
      else processEvent ev param rows handler

/-- `while (_EventQueue.size() > 0)`. -/
def runStateMachine (table : List (ThrowingRow S D P)) :
    ℕ → ThrowingHandler S D P → Call S D P
  | 0, handler => { ended := .running, handler := handler }
  | fuel + 1, handler =>
      match handler.eventQueue with
      | [] => { ended := .returned, handler := handler }
      | (ev, param) :: _ =>
          match processEvent ev param table handler with
          | (none, handler) =>
              { ended := .threw, handler := handler, dispatched := [(ev, param)] }
          | (some _, handler) =>
              let rest := runStateMachine table fuel (handler.popEvent table param)
              { rest with dispatched := (ev, param) :: rest.dispatched }

/-- A call, with what was dispatched on the way and whether it ended. -/
def fireEvent (table : List (ThrowingRow S D P)) (fuel : ℕ) (ev : ℤ) (param : P)
    (handler : ThrowingHandler S D P) : Call S D P :=
  if handler.isInitialized then
    let handler := { handler with eventQueue := handler.eventQueue ++ [(ev, param)] }
    if handler.isPendingEvent then { ended := .returned, handler := handler }
    else runStateMachine table fuel handler
  else { ended := .returned, handler := handler }

/-- The call ends this way, with this handler. -/
def Ends (table : List (ThrowingRow S D P)) (ev : ℤ) (param : P)
    (handler : ThrowingHandler S D P) (ended : End) (handler' : ThrowingHandler S D P) : Prop :=
  ∃ fuel, (fireEvent table fuel ev param handler).ended = ended ∧
    (fireEvent table fuel ev param handler).handler = handler'

/-- Calls one after another, each of which returns. -/
inductive Returned (table : List (ThrowingRow S D P)) :
    List (ℤ × P) → ThrowingHandler S D P → ThrowingHandler S D P → Prop
  | nil {handler : ThrowingHandler S D P} : Returned table [] handler handler
  | cons {ev : ℤ} {param : P} {rest : List (ℤ × P)}
      {handler handler₁ handler' : ThrowingHandler S D P}
      (returns : Ends table ev param handler .returned handler₁)
      (calls : Returned table rest handler₁ handler') :
      Returned table ((ev, param) :: rest) handler handler'

omit [DecidableEq S] in
/-- A fresh handler in the same state, with the same machine data. -/
def fresh (handler : ThrowingHandler S D P) : ThrowingHandler S D P :=
  { handler with eventQueue := [], isPendingEvent := false }

/-- Whatever is fired next, the events that are dispatched are those that a fresh handler in
the same state dispatches. -/
def Usable (table : List (ThrowingRow S D P)) (handler : ThrowingHandler S D P) : Prop :=
  ∀ (ev : ℤ) (param : P) (fuel : ℕ),
    (fireEvent table fuel ev param handler).dispatched =
      (fireEvent table fuel ev param (fresh handler)).dispatched

/-! ## Tables that throw nothing -/

omit [DecidableEq S] in
/-- An action that does not throw. -/
def calmAction (fn : D → P → D) : UserCode D P Unit :=
  fun data param => (fn data param, some ())

omit [DecidableEq S] in
/-- A guard that does not throw. -/
def calmGuard (conditionfn : D → P → Bool × D) : UserCode D P Bool :=
  fun data param => ((conditionfn data param).2, some (conditionfn data param).1)

omit [DecidableEq S] in
/-- A row with such a guard and action. -/
def calmRow (row : TransitionRow S (D → P → D) (D → P → Bool × D)) : ThrowingRow S D P where
  startState := row.startState
  event := row.event
  fn := row.fn.map calmAction
  nextState := row.nextState
  conditionfn := row.conditionfn.map calmGuard

omit [DecidableEq S] in
/-- The members of the handler do not depend on what its user code may do. -/
def calmHandler (handler : Handler S D P) : ThrowingHandler S D P where
  fsmData := handler.fsmData
  currentState := handler.currentState
  eventQueue := handler.eventQueue
  isPendingEvent := handler.isPendingEvent
  isInitialized := handler.isInitialized
  executed := handler.executed.map fun call => (calmAction call.1, call.2)
  deleted := handler.deleted

omit [DecidableEq S] in
theorem takeRow_calm (row : TransitionRow S (D → P → D) (D → P → Bool × D)) (param : P)
    (handler : Handler S D P) :
    takeRow (calmRow row) param (calmHandler handler) =
      (some true, calmHandler (FsmHandler.takeRow row param handler)) := by
  unfold takeRow FsmHandler.takeRow calmRow
  cases row.fn with
  | none => rfl
  | some fn => simp [calmHandler, calmAction]

theorem processEvent_calm (ev : ℤ) (param : P) (rows : Table S D P) :
    ∀ handler : Handler S D P,
      processEvent ev param (rows.map calmRow) (calmHandler handler) =
        (some (FsmHandler.processEvent ev param rows handler).1,
          calmHandler (FsmHandler.processEvent ev param rows handler).2) := by
  induction rows with
  | nil => exact fun _ => rfl
  | cons row rows ih =>
      intro handler
      rw [List.map_cons, processEvent, FsmHandler.processEvent_cons]
      by_cases hrow : handler.currentState = row.startState ∧ ev = row.event
      · rw [if_pos hrow, if_pos (show (calmHandler handler).currentState =
          (calmRow row).startState ∧ ev = (calmRow row).event from hrow)]
        cases hguard : row.conditionfn with
        | none =>
            have hnone : (calmRow row).conditionfn = none := by
              rw [calmRow, hguard]
              rfl
            rw [hnone, FsmHandler.condition, hguard]
            exact takeRow_calm row param handler
        | some conditionfn =>
            have hsome : (calmRow row).conditionfn = some (calmGuard conditionfn) := by
              rw [calmRow, hguard]
              rfl
            rw [hsome, FsmHandler.condition, hguard]
            dsimp only [calmGuard]
            have hdata : (calmHandler handler).fsmData = handler.fsmData := rfl
            rw [hdata]
            cases (conditionfn handler.fsmData param).1 with
            | true =>
                exact takeRow_calm row param
                  { handler with fsmData := (conditionfn handler.fsmData param).2 }
            | false => exact ih { handler with fsmData := (conditionfn handler.fsmData param).2 }
      · rw [if_neg hrow, if_neg (show ¬((calmHandler handler).currentState =
          (calmRow row).startState ∧ ev = (calmRow row).event) from hrow)]
        exact ih handler

theorem popEvent_calm (table : Table S D P) (param : P) (handler : Handler S D P) :
    (calmHandler handler).popEvent (table.map calmRow) param =
      calmHandler (handler.popEvent table param) := by
  have hsame (state : S) : FsmHandler.hasAny (table.map calmRow) state =
      FsmHandler.hasAny table state := by
    rw [FsmHandler.hasAny, List.any_map]
    rfl
  cases hany : FsmHandler.hasAny table handler.currentState with
  | true =>
      rw [FsmHandler.popEvent_of_any hany, FsmHandler.popEvent_of_any ((hsame _).trans hany)]
      rfl
  | false =>
      rw [FsmHandler.popEvent_of_none hany, FsmHandler.popEvent_of_none ((hsame _).trans hany)]
      rfl

theorem runStateMachine_calm (table : Table S D P) (fuel : ℕ) :
    ∀ handler handler' : Handler S D P,
      FsmHandler.runStateMachine table fuel handler = some handler' →
      (runStateMachine (table.map calmRow) fuel (calmHandler handler)).ended = .returned ∧
        (runStateMachine (table.map calmRow) fuel (calmHandler handler)).handler =
          calmHandler handler' := by
  induction fuel with
  | zero => exact fun _ _ h => by cases h
  | succ fuel ih =>
      intro handler handler' h
      rw [FsmHandler.runStateMachine] at h
      rw [runStateMachine]
      have hqueue : (calmHandler handler).eventQueue = handler.eventQueue := rfl
      rw [hqueue]
      cases hevents : handler.eventQueue with
      | nil =>
          rw [hevents] at h
          cases h
          exact ⟨rfl, rfl⟩
      | cons event events =>
          rw [hevents] at h
          dsimp only
          rw [processEvent_calm]
          dsimp only
          rw [popEvent_calm]
          exact ih _ _ h

/-- **Without exceptions** the calls are those of `FsmHandler`. -/
theorem ends_of_fireReturns {table : Table S D P} {ev : ℤ} {param : P}
    {handler handler' : Handler S D P}
    (h : FsmHandler.FireReturns table ev param handler handler') :
    Ends (table.map calmRow) ev param (calmHandler handler) .returned (calmHandler handler') := by
  obtain ⟨fuel, h⟩ := h
  refine ⟨fuel, ?_⟩
  rw [FsmHandler.fireEvent] at h
  rw [fireEvent]
  by_cases hinit : handler.isInitialized = true
  · rw [if_pos hinit] at h
    rw [if_pos (show (calmHandler handler).isInitialized = true from hinit)]
    dsimp only at h ⊢
    by_cases hpending : handler.isPendingEvent = true
    · rw [if_pos hpending] at h
      rw [if_pos (show (calmHandler handler).isPendingEvent = true from hpending)]
      cases h
      exact ⟨rfl, rfl⟩
    · rw [if_neg hpending] at h
      rw [if_neg (show ¬(calmHandler handler).isPendingEvent = true from hpending)]
      exact runStateMachine_calm table fuel _ _ h
  · rw [if_neg hinit] at h
    rw [if_neg (show ¬(calmHandler handler).isInitialized = true from hinit)]
    cases h
    exact ⟨rfl, rfl⟩

/-! ## What an exception leaves behind -/

omit [DecidableEq S] in
theorem takeRow_rest (row : ThrowingRow S D P) (param : P) (handler : ThrowingHandler S D P) :
    (takeRow row param handler).2.eventQueue = handler.eventQueue ∧
      (takeRow row param handler).2.isInitialized = handler.isInitialized ∧
      (takeRow row param handler).2.isPendingEvent =
        (takeRow row param handler).1.isNone := by
  unfold takeRow
  cases row.fn with
  | none => exact ⟨rfl, rfl, rfl⟩
  | some fn =>
      dsimp only
      split <;> exact ⟨rfl, rfl, rfl⟩

/-- The queue stays as it is, and without an exception the flag is reset. -/
theorem processEvent_rest (ev : ℤ) (param : P) (rows : List (ThrowingRow S D P)) :
    ∀ {handler : ThrowingHandler S D P}, handler.isPendingEvent = false →
      (processEvent ev param rows handler).2.eventQueue = handler.eventQueue ∧
        (processEvent ev param rows handler).2.isInitialized = handler.isInitialized ∧
        ((processEvent ev param rows handler).1.isSome →
          (processEvent ev param rows handler).2.isPendingEvent = false) := by
  induction rows with
  | nil => exact fun hpending => ⟨rfl, rfl, fun _ => hpending⟩
  | cons row rows ih =>
      intro handler hpending
      have htake (handler : ThrowingHandler S D P) :
          (takeRow row param handler).2.eventQueue = handler.eventQueue ∧
            (takeRow row param handler).2.isInitialized = handler.isInitialized ∧
            ((takeRow row param handler).1.isSome →
              (takeRow row param handler).2.isPendingEvent = false) := by
        obtain ⟨hqueue, hinit, hflag⟩ := takeRow_rest row param handler
        refine ⟨hqueue, hinit, fun hsome => ?_⟩
        rw [hflag, Option.isNone_eq_false_iff]
        exact hsome
      rw [processEvent]
      split
      · split
        · exact htake handler
        · dsimp only
          split
          · exact ⟨rfl, rfl, fun hsome => absurd hsome Bool.false_ne_true⟩
          · exact htake _
          · exact ih hpending
      · exact ih hpending

omit [DecidableEq S] in
/-- A guard of these rows threw, and the flag is not set; or an action, and it is. -/
def ThrewFrom (param : P) (rows : List (ThrowingRow S D P)) (handler : ThrowingHandler S D P) :
    Prop :=
  (∃ row ∈ rows, ∃ conditionfn data, row.conditionfn = some conditionfn ∧
      (conditionfn data param).2 = none ∧ handler.isPendingEvent = false) ∨
    ∃ row ∈ rows, ∃ fn data, row.fn = some fn ∧ (fn data param).2 = none ∧
      handler.isPendingEvent = true

omit [DecidableEq S] in
theorem ThrewFrom.cons {param : P} {rows : List (ThrowingRow S D P)}
    {handler : ThrowingHandler S D P} (h : ThrewFrom param rows handler)
    (row : ThrowingRow S D P) : ThrewFrom param (row :: rows) handler := by
  obtain ⟨row', hmem, hthrew⟩ | ⟨row', hmem, hthrew⟩ := h
  · exact Or.inl ⟨row', List.mem_cons_of_mem row hmem, hthrew⟩
  · exact Or.inr ⟨row', List.mem_cons_of_mem row hmem, hthrew⟩

omit [DecidableEq S] in
theorem takeRow_threw {row : ThrowingRow S D P} {param : P} {handler : ThrowingHandler S D P}
    (rows : List (ThrowingRow S D P)) (h : (takeRow row param handler).1 = none) :
    ThrewFrom param (row :: rows) (takeRow row param handler).2 := by
  have hflag := (takeRow_rest row param handler).2.2
  rw [h] at hflag
  unfold takeRow at h
  cases hfn : row.fn with
  | none =>
      rw [hfn] at h
      cases h
  | some fn =>
      rw [hfn] at h
      refine Or.inr ⟨row, List.mem_cons_self, fn, handler.fsmData, hfn, ?_, hflag⟩
      cases hleft : (fn handler.fsmData param).2 with
      | none => rfl
      | some answer =>
          dsimp only at h
          rw [hleft] at h
          cases h

/-- Who threw, and how the flag stands. -/
theorem processEvent_threw (ev : ℤ) (param : P) (rows : List (ThrowingRow S D P)) :
    ∀ {handler : ThrowingHandler S D P}, handler.isPendingEvent = false →
      (processEvent ev param rows handler).1 = none →
      ThrewFrom param rows (processEvent ev param rows handler).2 := by
  induction rows with
  | nil => exact fun _ h => by cases h
  | cons row rows ih =>
      intro handler hpending h
      rw [processEvent] at h ⊢
      split at h
      · rename_i hrow
        rw [if_pos hrow]
        cases hguard : row.conditionfn with
        | none =>
            rw [hguard] at h
            exact takeRow_threw rows h
        | some conditionfn =>
            rw [hguard] at h
            dsimp only at h ⊢
            cases hanswer : (conditionfn handler.fsmData param).2 with
            | none =>
                exact Or.inl ⟨row, List.mem_cons_self, conditionfn, handler.fsmData, hguard,
                  hanswer, hpending⟩
            | some answer =>
                rw [hanswer] at h
                cases answer with
                | true => exact takeRow_threw rows h
                | false =>
                    exact (@ih { handler with fsmData := (conditionfn handler.fsmData param).1 }
                      hpending h).cons row
      · rename_i hrow
        rw [if_neg hrow]
        exact (ih hpending h).cons row

/-- At the head of the loop, with one event queued. -/
structure Queued (failed : ℤ × P) (handler : ThrowingHandler S D P) : Prop where
  initialized : handler.isInitialized = true
  queue : handler.eventQueue = [failed]

/-- **A loop over one event** ends with a handler that is ready, or, if a guard or an action
throws, with the event queued that was being processed. -/
theorem runStateMachine_ends (table : List (ThrowingRow S D P)) (param : P) (fuel : ℕ) :
    ∀ {handler : ThrowingHandler S D P} {ev : ℤ}, Queued (ev, param) handler →
      handler.isPendingEvent = false →
      ((runStateMachine table fuel handler).ended = .returned →
        (runStateMachine table fuel handler).handler.Ready) ∧
      ((runStateMachine table fuel handler).ended = .threw →
        ∃ failed, (failed = ev ∨ failed = anyEvent) ∧
          Queued (failed, param) (runStateMachine table fuel handler).handler ∧
          ThrewFrom param table (runStateMachine table fuel handler).handler) := by
  induction fuel with
  | zero => exact fun _ _ => ⟨nofun, nofun⟩
  | succ fuel ih =>
      intro handler ev hqueued hpending
      obtain ⟨hqueue, hinit, hflag⟩ := processEvent_rest ev param table hpending
      have hthrew := processEvent_threw ev param table hpending
      rw [hqueued.queue] at hqueue
      rw [hqueued.initialized] at hinit
      rw [runStateMachine, hqueued.queue]
      dsimp only
      generalize processEvent ev param table handler = processed at hqueue hinit hflag hthrew ⊢
      obtain ⟨result, handler'⟩ := processed
      cases result with
      | none =>
          exact ⟨nofun, fun _ => ⟨ev, Or.inl rfl, ⟨hinit, hqueue⟩, hthrew rfl⟩⟩
      | some result =>
          have hidle : handler'.isPendingEvent = false := hflag rfl
          dsimp only at hqueue hinit ⊢
          cases hany : FsmHandler.hasAny table handler'.currentState with
          | true =>
              rw [FsmHandler.popEvent_of_any hany, hqueue]
              obtain ⟨hreturned, hthrew⟩ := @ih
                { handler' with eventQueue := [(anyEvent, param)] } anyEvent
                ⟨hinit, rfl⟩ hidle
              refine ⟨hreturned, fun h => ?_⟩
              obtain ⟨failed, hfailed, hend⟩ := hthrew h
              exact ⟨failed, Or.inr (hfailed.elim id id), hend⟩
          | false =>
              rw [FsmHandler.popEvent_of_none hany, hqueue]
              cases fuel with
              | zero => exact ⟨nofun, nofun⟩
              | succ fuel => exact ⟨fun _ => ⟨hinit, rfl, hidle⟩, nofun⟩

/-- A call on a handler that is ready. -/
theorem fireEvent_ends {table : List (ThrowingRow S D P)} {handler handler' :
    ThrowingHandler S D P} (h : handler.Ready) {ev : ℤ} {param : P} {ended : End}
    (hends : Ends table ev param handler ended handler') :
    (ended = .returned → handler'.Ready) ∧
      (ended = .threw → ∃ failed, (failed = ev ∨ failed = anyEvent) ∧
        Queued (failed, param) handler' ∧ ThrewFrom param table handler') := by
  obtain ⟨fuel, rfl, rfl⟩ := hends
  have hqueued : Queued (ev, param)
      { handler with eventQueue := handler.eventQueue ++ [(ev, param)] } :=
    ⟨h.initialized, by rw [h.queue]; rfl⟩
  rw [fireEvent, if_pos h.initialized]
  dsimp only
  rw [if_neg (by rw [h.pending]; exact Bool.false_ne_true)]
  exact runStateMachine_ends table param fuel hqueued h.pending

/-- Calls that return leave the handler ready for the next one. -/
theorem Returned.ready {table : List (ThrowingRow S D P)} {calls : List (ℤ × P)}
    {handler handler' : ThrowingHandler S D P} (hcalls : Returned table calls handler handler')
    (h : handler.Ready) : handler'.Ready := by
  induction hcalls with
  | nil => exact h
  | cons hreturns _ ih => exact ih ((fireEvent_ends h hreturns).1 rfl)

/-! ## The next calls -/

theorem runStateMachine_dispatched (table : List (ThrowingRow S D P)) (fuel : ℕ)
    {handler : ThrowingHandler S D P} {front : ℤ × P} {rest : List (ℤ × P)}
    (hqueue : handler.eventQueue = front :: rest) :
    (runStateMachine table (fuel + 1) handler).dispatched.head? = some front := by
  obtain ⟨ev, param⟩ := front
  rw [runStateMachine, hqueue]
  dsimp only
  split <;> rfl

/-- A fresh handler dispatches the event that is fired. -/
theorem fresh_dispatches (table : List (ThrowingRow S D P)) (fuel : ℕ)
    {handler : ThrowingHandler S D P} (hinit : handler.isInitialized = true) (ev : ℤ)
    (param : P) :
    (fireEvent table (fuel + 1) ev param (fresh handler)).dispatched.head? =
      some (ev, param) := by
  have hqueue : (fresh handler).eventQueue ++ [(ev, param)] = [(ev, param)] := rfl
  rw [fireEvent, if_pos (show (fresh handler).isInitialized = true from hinit)]
  dsimp only
  rw [if_neg (show ¬(fresh handler).isPendingEvent = true from Bool.false_ne_true)]
  exact runStateMachine_dispatched table fuel hqueue

/-- After an exception from a guard the next call dispatches the failed event. -/
theorem redispatched_after_guard (table : List (ThrowingRow S D P)) (fuel : ℕ)
    {handler : ThrowingHandler S D P} {failed : ℤ × P} (hqueued : Queued failed handler)
    (hpending : handler.isPendingEvent = false) (ev : ℤ) (param : P) :
    (fireEvent table (fuel + 1) ev param handler).dispatched.head? = some failed := by
  have hqueue : handler.eventQueue ++ [(ev, param)] = [failed, (ev, param)] := by
    rw [hqueued.queue]
    rfl
  rw [fireEvent, if_pos hqueued.initialized]
  dsimp only
  rw [if_neg (by rw [hpending]; exact Bool.false_ne_true)]
  exact runStateMachine_dispatched table fuel hqueue

/-- While the flag is set a call only queues its event. -/
theorem fireEvent_pending (table : List (ThrowingRow S D P)) (fuel : ℕ)
    {handler : ThrowingHandler S D P} (hinit : handler.isInitialized = true)
    (hpending : handler.isPendingEvent = true) (ev : ℤ) (param : P) :
    fireEvent table fuel ev param handler =
      { ended := .returned
        handler := { handler with eventQueue := handler.eventQueue ++ [(ev, param)] } } := by
  rw [fireEvent, if_pos hinit]
  dsimp only
  rw [if_pos hpending]

/-- With a failed event in the queue no other event is dispatched as in a fresh handler. -/
theorem Queued.differs {failed : ℤ × P} {handler : ThrowingHandler S D P}
    (hqueued : Queued failed handler) (table : List (ThrowingRow S D P)) (fuel : ℕ) {ev : ℤ}
    {param : P} (hother : (ev, param) ≠ failed) :
    (fireEvent table (fuel + 1) ev param handler).dispatched ≠
      (fireEvent table (fuel + 1) ev param (fresh handler)).dispatched := by
  intro hsame
  have hnext := congrArg List.head? hsame
  rw [fresh_dispatches table fuel hqueued.initialized] at hnext
  cases hpending : handler.isPendingEvent with
  | true =>
      rw [fireEvent_pending table (fuel + 1) hqueued.initialized hpending] at hnext
      cases hnext
  | false =>
      rw [redispatched_after_guard table fuel hqueued hpending] at hnext
      exact hother (Option.some.inj hnext).symm

/-- **An exception leaves the handler unusable.**  Whatever was fired before, when a guard or
an action throws out of `fire_event`, the failed event stays at the front of the queue with
its parameter: the next call dispatches it again, or nothing when the flag is still set. -/
theorem throw_unusable (table : List (ThrowingRow S D P)) (data : D) (state₀ state : S)
    {calls : List (ℤ × P)} {handler handler' : ThrowingHandler S D P}
    (hcalls : Returned table calls
      (FsmHandler.Initialize { fsmData := data, currentState := state₀ } state) handler)
    {ev : ℤ} {param : P} (hthrows : Ends table ev param handler .threw handler') :
    ¬Usable table handler' := by
  have hready : handler.Ready := hcalls.ready ⟨rfl, rfl, rfl⟩
  obtain ⟨failed, -, hqueued, -⟩ := (fireEvent_ends hready hthrows).2 rfl
  have hother : ((failed + 1, param) : ℤ × P) ≠ (failed, param) := by
    intro heq
    have hfst := congrArg Prod.fst heq
    change failed + 1 = failed at hfst
    omega
  exact fun husable => hqueued.differs table 0 hother (husable (failed + 1) param 1)

/-- Calls that return leave the handler usable. -/
theorem Returned.usable {table : List (ThrowingRow S D P)} {data : D} {state₀ state : S}
    {calls : List (ℤ × P)} {handler : ThrowingHandler S D P}
    (hcalls : Returned table calls
      (FsmHandler.Initialize { fsmData := data, currentState := state₀ } state) handler) :
    Usable table handler := by
  have hready : handler.Ready := hcalls.ready ⟨rfl, rfl, rfl⟩
  have hfresh : fresh handler = handler := by
    rw [fresh, ← hready.queue, ← hready.pending]
  intro ev param fuel
  rw [hfresh]

/-- A row whose action throws. -/
def throwingRow : ThrowingRow Bool Unit Unit where
  startState := true
  event := 0
  fn := some fun _ _ => ((), none)
  nextState := false
  conditionfn := none

/-- The handler that the exception leaves. -/
def thrown : ThrowingHandler Bool Unit Unit :=
  (fireEvent [throwingRow] 1 0 ()
    (FsmHandler.Initialize { fsmData := (), currentState := true } true)).handler

theorem thrown_ends :
    Ends [throwingRow] 0 () (FsmHandler.Initialize { fsmData := (), currentState := true } true)
      .threw thrown :=
  ⟨1, rfl, rfl⟩

theorem thrown_unusable : ¬Usable [throwingRow] thrown :=
  throw_unusable [throwingRow] () true true Returned.nil thrown_ends

/-- Not every exception leaves the handler usable. -/
theorem not_usable_after_throw :
    ¬∀ (table : List (ThrowingRow Bool Unit Unit)) (calls : List (ℤ × Unit))
      (handler handler' : ThrowingHandler Bool Unit Unit) (ev : ℤ),
      Returned table calls
        (FsmHandler.Initialize { fsmData := (), currentState := true } true) handler →
      Ends table ev () handler .threw handler' → Usable table handler' := by
  intro h
  have husable := h [throwingRow] [] _ thrown 0 Returned.nil thrown_ends
  have hnext := husable 1 () 1
  exact absurd hnext (by decide)

end Throwing

end NewCPP.Stm
