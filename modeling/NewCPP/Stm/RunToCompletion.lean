import NewCPP.Stm.FsmHandler

/-!
# Run to completion

What the engine is for, without queue, flags or fuel: an external event is dispatched
to the first row that takes it, then the automatic rows are followed until the state
has none.  `Settles` and `Runs` are that reference interpreter.

* `FireReturns.settles`, `fireReturns_of_settles` — one call.
* `engine_runs_iff` — a sequence of calls: all return exactly when the reference has a
  run, and they leave its data, its state and its actions.

The engine re-scans the whole table and the reference filters it first;
`processEvent_eq` is where the two meet.  Guards change the machine data also where they
refuse, so the reference carries the data through the guards it asks.

## Design notes

**Relations.**  `Settles` and `Runs` are relations, since the reference has no bound on the
automatic rows; that they are deterministic is `Settles.deterministic` and `Runs.deterministic`.

**Fuel.**  The engine is run with fuel, and `FireReturns` says that some fuel is enough.
`engine_runs_iff` is therefore about termination too: a call returns exactly if the reference
comes to an end.
-/

namespace NewCPP.Stm

universe u v w

variable {S : Type u} {D : Type v} {P : Type w}

/-! ## The reference interpreter -/

/-- State, machine data and the actions that ran. -/
structure Config (S : Type u) (D : Type v) (P : Type w) where
  state : S
  data : D
  executed : List ((D → P → D) × P)

/-- The first row whose guard is absent or true, and the data after the guards asked. -/
def firstEnabled (param : P) :
    Table S D P → D → Option (TransitionRow S (D → P → D) (D → P → Bool × D)) × D
  | [], data => (none, data)
  | row :: rows, data =>
      match row.conditionfn with
      | none => (some row, data)
      | some guard =>
          if (guard data param).1 then (some row, (guard data param).2)
          else firstEnabled param rows (guard data param).2

/-- Take a row: its action, then its next state. -/
def Config.take (config : Config S D P) (param : P)
    (row : TransitionRow S (D → P → D) (D → P → Bool × D)) : Config S D P :=
  match row.fn with
  | none => { config with state := row.nextState }
  | some fn =>
      { state := row.nextState
        data := fn config.data param
        executed := config.executed ++ [(fn, param)] }

variable [DecidableEq S]

/-- The rows for an event in a state, in table order. -/
def candidates (table : Table S D P) (state : S) (ev : ℤ) : Table S D P :=
  table.filter fun row => state = row.startState && ev = row.event

theorem candidates_cons (row : TransitionRow S (D → P → D) (D → P → Bool × D))
    (rows : Table S D P) (state : S) (ev : ℤ) :
    candidates (row :: rows) state ev =
      if state = row.startState ∧ ev = row.event then row :: candidates rows state ev
      else candidates rows state ev := by
  rw [candidates, List.filter_cons]
  simp only [Bool.and_eq_true, decide_eq_true_eq]
  rfl

/-- An event takes the first enabled row; without one only the guards have run. -/
def Config.dispatch (table : Table S D P) (ev : ℤ) (param : P) (config : Config S D P) :
    Config S D P :=
  match firstEnabled param (candidates table config.state ev) config.data with
  | (none, data) => { config with data := data }
  | (some row, data) => { config with data := data }.take param row

/-- Automatic rows are taken until the state has none. -/
inductive Settles (table : Table S D P) (param : P) : Config S D P → Config S D P → Prop
  | quiet {config : Config S D P} (none_left : FsmHandler.hasAny table config.state = false) :
      Settles table param config config
  | step {config config' : Config S D P} (some_left : FsmHandler.hasAny table config.state = true)
      (rest : Settles table param (config.dispatch table anyEvent param) config') :
      Settles table param config config'

/-- External events one after another. -/
inductive Runs (table : Table S D P) : List (ℤ × P) → Config S D P → Config S D P → Prop
  | nil {config : Config S D P} : Runs table [] config config
  | cons {ev : ℤ} {param : P} {rest : List (ℤ × P)} {config config₁ config' : Config S D P}
      (settles : Settles table param (config.dispatch table ev param) config₁)
      (runs : Runs table rest config₁ config') : Runs table ((ev, param) :: rest) config config'

theorem Settles.deterministic {table : Table S D P} {param : P} {c c₁ c₂ : Config S D P}
    (h₁ : Settles table param c c₁) (h₂ : Settles table param c c₂) : c₁ = c₂ := by
  induction h₁ with
  | quiet hnone =>
      cases h₂ with
      | quiet _ => rfl
      | step hsome _ => rw [hnone] at hsome; cases hsome
  | step hsome _ ih =>
      cases h₂ with
      | quiet hnone => rw [hnone] at hsome; cases hsome
      | step _ hrest => exact ih hrest

/-- The reference interpreter has one result. -/
theorem Runs.deterministic {table : Table S D P} {events : List (ℤ × P)}
    {c c₁ c₂ : Config S D P} (h₁ : Runs table events c c₁) (h₂ : Runs table events c c₂) :
    c₁ = c₂ := by
  induction h₁ with
  | nil =>
      cases h₂ with
      | nil => rfl
  | cons hsettles _ ih =>
      cases h₂ with
      | cons hsettles' hruns' =>
          rw [hsettles'.deterministic hsettles] at hruns'
          exact ih hruns'

namespace FsmHandler

/-! ## One iteration of the engine -/

omit [DecidableEq S] in
/-- What the reference sees of a handler. -/
def config (handler : Handler S D P) : Config S D P where
  state := handler.currentState
  data := handler.fsmData
  executed := handler.executed

omit [DecidableEq S] in
theorem takeRow_config (row : TransitionRow S (D → P → D) (D → P → Bool × D)) (param : P)
    (handler : Handler S D P) :
    (takeRow row param handler).config = handler.config.take param row := by
  unfold takeRow Config.take
  cases row.fn <;> rfl

omit [DecidableEq S] in
theorem takeRow_rest (row : TransitionRow S (D → P → D) (D → P → Bool × D)) (param : P)
    (handler : Handler S D P) :
    (takeRow row param handler).eventQueue = handler.eventQueue ∧
      (takeRow row param handler).isPendingEvent = false ∧
      (takeRow row param handler).isInitialized = handler.isInitialized := by
  unfold takeRow
  cases row.fn <;> exact ⟨rfl, rfl, rfl⟩

omit [DecidableEq S] in
theorem firstEnabled_cons (row : TransitionRow S (D → P → D) (D → P → Bool × D))
    (rows : Table S D P) (param : P) (data : D) :
    firstEnabled param (row :: rows) data =
      if (condition row param data).1 || row.conditionfn.isNone then
        (some row, (condition row param data).2)
      else firstEnabled param rows (condition row param data).2 := by
  rw [firstEnabled, condition]
  cases row.conditionfn with
  | none => rfl
  | some guard =>
      dsimp only
      rw [Option.isNone_some, Bool.or_false]

/-- The scan of the table finds the first enabled candidate. -/
theorem processEvent_eq (table : Table S D P) (ev : ℤ) (param : P) :
    ∀ handler : Handler S D P,
      processEvent ev param table handler =
        match firstEnabled param (candidates table handler.currentState ev)
            handler.fsmData with
        | (none, data) => (false, { handler with fsmData := data })
        | (some row, data) => (true, takeRow row param { handler with fsmData := data }) := by
  induction table with
  | nil => exact fun _ => rfl
  | cons row rows ih =>
      intro handler
      rw [processEvent_cons, candidates_cons]
      by_cases hrow : handler.currentState = row.startState ∧ ev = row.event
      · rw [if_pos hrow, if_pos hrow, firstEnabled_cons]
        dsimp only
        split
        · rfl
        -- refused: both scans go on with the data the guard left
        · exact ih { handler with fsmData := (condition row param handler.fsmData).2 }
      · rw [if_neg hrow, if_neg hrow]
        exact ih handler

/-- Processing an event is dispatching it; queue and flags stay. -/
theorem processEvent_spec (table : Table S D P) (ev : ℤ) (param : P)
    {handler : Handler S D P} (hpending : handler.isPendingEvent = false) :
    (processEvent ev param table handler).2.config =
        handler.config.dispatch table ev param ∧
      (processEvent ev param table handler).2.eventQueue = handler.eventQueue ∧
      (processEvent ev param table handler).2.isPendingEvent = false ∧
      (processEvent ev param table handler).2.isInitialized = handler.isInitialized := by
  rw [processEvent_eq, Config.dispatch]
  change _ = (match firstEnabled param (candidates table handler.currentState ev)
    handler.fsmData with | (none, data) => _ | (some row, data) => _) ∧ _
  match firstEnabled param (candidates table handler.currentState ev) handler.fsmData with
  | (none, data) => exact ⟨rfl, rfl, hpending, rfl⟩
  | (some row, data) =>
      obtain ⟨hqueue, hidle, hinit⟩ :=
        takeRow_rest row param { handler with fsmData := data }
      exact ⟨takeRow_config row param _, hqueue, hidle, hinit⟩

/-- The queue behind an event that has been dispatched with this parameter. -/
def automaticQueue (table : Table S D P) (param : P) (state : S) : List (ℤ × P) :=
  if hasAny table state then [(anyEvent, param)] else []

/-- **One iteration**: the event at the front is dispatched and the automatic event
takes its place if the new state has an automatic row. -/
theorem dispatchFront_spec (table : Table S D P) (handler : Handler S D P) {ev : ℤ}
    {param : P} (hqueue : handler.eventQueue = [(ev, param)])
    (hpending : handler.isPendingEvent = false) :
    (dispatchFront table ev param handler).config =
        handler.config.dispatch table ev param ∧
      (dispatchFront table ev param handler).eventQueue =
        automaticQueue table param (handler.config.dispatch table ev param).state ∧
      (dispatchFront table ev param handler).isPendingEvent = false ∧
      (dispatchFront table ev param handler).isInitialized = handler.isInitialized := by
  obtain ⟨hconfig, hqueue', hpending', hinit⟩ :=
    processEvent_spec table ev param hpending
  rw [hqueue] at hqueue'
  have hstate : (processEvent ev param table handler).2.currentState =
      (handler.config.dispatch table ev param).state := congrArg Config.state hconfig
  unfold dispatchFront automaticQueue
  rw [← hstate]
  cases hany : hasAny table (processEvent ev param table handler).2.currentState with
  | true =>
      rw [popEvent_of_any hany, hqueue']
      exact ⟨hconfig, rfl, hpending', hinit⟩
  | false =>
      rw [popEvent_of_none hany, hqueue']
      exact ⟨hconfig, rfl, hpending', hinit⟩

/-! ## The loop -/

/-- A handler that has dispatched an event with this parameter. -/
structure Settling (table : Table S D P) (param : P) (handler : Handler S D P) :
    Prop where
  initialized : handler.isInitialized = true
  queue : handler.eventQueue = automaticQueue table param handler.currentState
  pending : handler.isPendingEvent = false

theorem Settling.next {table : Table S D P} {param : P} {handler : Handler S D P}
    (h : Settling table param handler) (hany : hasAny table handler.currentState = true) :
    handler.eventQueue = [(anyEvent, param)] ∧
      Settling table param (dispatchFront table anyEvent param handler) ∧
      (dispatchFront table anyEvent param handler).config =
        handler.config.dispatch table anyEvent param := by
  have hqueue := h.queue
  rw [automaticQueue, if_pos hany] at hqueue
  obtain ⟨hconfig, hqueue', hpending, hinit⟩ := dispatchFront_spec table handler hqueue h.pending
  rw [← hconfig] at hqueue'
  exact ⟨hqueue, ⟨hinit.trans h.initialized, hqueue', hpending⟩, hconfig⟩

/-- The engine follows the reference to its end. -/
theorem runStateMachine_of_settles {table : Table S D P} {param : P}
    {c c' : Config S D P} (hsettles : Settles table param c c') :
    ∀ {handler : Handler S D P}, Settling table param handler → handler.config = c →
      ∃ fuel handler', runStateMachine table fuel handler = some handler' ∧
        handler'.Ready ∧ handler'.config = c' := by
  induction hsettles with
  | quiet hnone =>
      intro handler h hc
      have hqueue : handler.eventQueue = [] := by
        rw [h.queue, automaticQueue, if_neg]
        rw [← hc] at hnone
        exact Bool.not_eq_true _ ▸ hnone
      exact ⟨1, handler, by rw [runStateMachine, hqueue], ⟨h.initialized, hqueue, h.pending⟩, hc⟩
  | step hsome _ ih =>
      intro handler h hc
      have hany : hasAny table handler.currentState = true := by
        rw [← hc] at hsome
        exact hsome
      obtain ⟨hqueue, hnext, hconfig⟩ := h.next hany
      obtain ⟨fuel, handler', hrun, hready, hend⟩ := ih hnext (by rw [hconfig, hc])
      refine ⟨fuel + 1, handler', ?_, hready, hend⟩
      rw [runStateMachine, hqueue]
      exact hrun

/-- A loop that ends has followed the reference. -/
theorem settles_of_runStateMachine {table : Table S D P} {param : P} (fuel : ℕ) :
    ∀ {handler handler' : Handler S D P}, Settling table param handler →
      runStateMachine table fuel handler = some handler' →
      Settles table param handler.config handler'.config ∧ handler'.Ready := by
  induction fuel with
  | zero =>
      intro handler handler' _ hrun
      cases hrun
  | succ fuel ih =>
      intro handler handler' h hrun
      -- the queue holds the automatic event exactly when the state has an automatic row
      cases hany : hasAny table handler.currentState with
      | true =>
          obtain ⟨hqueue, hnext, hconfig⟩ := h.next hany
          rw [runStateMachine, hqueue] at hrun
          obtain ⟨hsettles, hready⟩ := ih hnext hrun
          rw [hconfig] at hsettles
          exact ⟨Settles.step hany hsettles, hready⟩
      | false =>
          have hqueue : handler.eventQueue = [] := by
            rw [h.queue, automaticQueue, hany]
            rfl
          rw [runStateMachine, hqueue] at hrun
          cases hrun
          exact ⟨Settles.quiet hany, h.initialized, hqueue, h.pending⟩

/-- A call on a handler that is ready runs the loop behind the dispatched event. -/
theorem fireEvent_eq (table : Table S D P) {handler : Handler S D P}
    (h : handler.Ready) (ev : ℤ) (param : P) :
    ∃ handler₁, Settling table param handler₁ ∧
      handler₁.config = handler.config.dispatch table ev param ∧
      ∀ fuel, fireEvent table fuel ev param handler =
        match fuel with
        | 0 => none
        | fuel + 1 => runStateMachine table fuel handler₁ := by
  have hpushed : handler.eventQueue ++ [(ev, param)] = [(ev, param)] := by
    rw [h.queue, List.nil_append]
  obtain ⟨hconfig, hqueue, hpending, hinit⟩ := dispatchFront_spec table
    { handler with eventQueue := handler.eventQueue ++ [(ev, param)] } hpushed h.pending
  refine ⟨_, ⟨hinit.trans h.initialized, ?_, hpending⟩, hconfig, fun fuel => ?_⟩
  · rw [hqueue, ← hconfig]
    rfl
  · rw [fireEvent, if_pos h.initialized]
    dsimp only
    rw [if_neg (by rw [h.pending]; exact Bool.false_ne_true)]
    cases fuel with
    | zero => rfl
    | succ fuel => rw [runStateMachine, hpushed]

/-- **One call**: where it returns, the reference has settled. -/
theorem FireReturns.settles {table : Table S D P} {ev : ℤ} {param : P}
    {handler handler' : Handler S D P} (h : handler.Ready)
    (hreturns : FireReturns table ev param handler handler') :
    Settles table param (handler.config.dispatch table ev param) handler'.config ∧
      handler'.Ready := by
  obtain ⟨handler₁, hsettling, hconfig, hfire⟩ := fireEvent_eq table h ev param
  obtain ⟨fuel, hreturns⟩ := hreturns
  rw [hfire] at hreturns
  cases fuel with
  | zero => cases hreturns
  | succ fuel =>
      rw [← hconfig]
      exact settles_of_runStateMachine fuel hsettling hreturns

/-- **One call**: where the reference settles, it returns. -/
theorem fireReturns_of_settles {table : Table S D P} {ev : ℤ} {param : P}
    {handler : Handler S D P} (h : handler.Ready) {c : Config S D P}
    (hsettles : Settles table param (handler.config.dispatch table ev param) c) :
    ∃ handler', FireReturns table ev param handler handler' ∧ handler'.Ready ∧
      handler'.config = c := by
  obtain ⟨handler₁, hsettling, hconfig, hfire⟩ := fireEvent_eq table h ev param
  obtain ⟨fuel, handler', hrun, hready, hend⟩ :=
    runStateMachine_of_settles hsettles hsettling hconfig
  exact ⟨handler', ⟨fuel + 1, (hfire _).trans hrun⟩, hready, hend⟩

/-! ## A sequence of calls -/

/-- Calls one after another, each of which returns. -/
inductive FiresAll (table : Table S D P) :
    List (ℤ × P) → Handler S D P → Handler S D P → Prop
  | nil {handler : Handler S D P} : FiresAll table [] handler handler
  | cons {ev : ℤ} {param : P} {rest : List (ℤ × P)}
      {handler handler₁ handler' : Handler S D P}
      (returns : FireReturns table ev param handler handler₁)
      (calls : FiresAll table rest handler₁ handler') :
      FiresAll table ((ev, param) :: rest) handler handler'

theorem FiresAll.runs {table : Table S D P} {events : List (ℤ × P)}
    {handler handler' : Handler S D P} (hcalls : FiresAll table events handler handler')
    (h : handler.Ready) : Runs table events handler.config handler'.config := by
  induction hcalls with
  | nil => exact Runs.nil
  | cons hreturns _ ih =>
      obtain ⟨hsettles, hready⟩ := hreturns.settles h
      exact Runs.cons hsettles (ih hready)

theorem firesAll_of_runs {table : Table S D P} {events : List (ℤ × P)}
    {c c' : Config S D P} (hruns : Runs table events c c') :
    ∀ {handler : Handler S D P}, handler.Ready → handler.config = c →
      ∃ handler', FiresAll table events handler handler' ∧ handler'.config = c' := by
  induction hruns with
  | nil => exact fun {handler} _ hc => ⟨handler, FiresAll.nil, hc⟩
  | cons hsettles _ ih =>
      intro handler h hc
      rw [← hc] at hsettles
      obtain ⟨handler₁, hreturns, hready, hend⟩ := fireReturns_of_settles h hsettles
      obtain ⟨handler', hcalls, hend'⟩ := ih hready hend
      exact ⟨handler', FiresAll.cons hreturns hcalls, hend'⟩

omit [DecidableEq S] in
/-- A handler that has just been initialized is ready. -/
theorem initialize_ready (data : D) (state₀ state : S) :
    (Initialize ({ fsmData := data, currentState := state₀ } : Handler S D P)
      state).Ready :=
  ⟨rfl, rfl, rfl⟩

/-- **The engine runs to completion.**  From any initialized state, calls that all return
leave the machine data, the actions with their parameters and the state of the reference,
and where the reference has a run all of them return. -/
theorem engine_runs_iff (table : Table S D P) (events : List (ℤ × P)) (data : D)
    (state₀ state : S) (c : Config S D P) :
    (∃ handler', FiresAll table events
        (Initialize ({ fsmData := data, currentState := state₀ } : Handler S D P) state)
        handler' ∧ handler'.config = c) ↔
      Runs table events { state := state, data := data, executed := [] } c := by
  have hready := initialize_ready (P := P) data state₀ state
  constructor
  · rintro ⟨handler', hcalls, rfl⟩
    exact hcalls.runs hready
  · intro hruns
    exact firesAll_of_runs hruns hready rfl

end FsmHandler

end NewCPP.Stm
