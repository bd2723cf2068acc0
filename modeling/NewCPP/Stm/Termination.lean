import NewCPP.Library.Transition
import NewCPP.Stm.RunToCompletion

/-!
# When a call returns

Between two transitions the engine looks for an automatic row of the current state, and
if there is one it pushes the automatic event, whatever the row's guard will say.  A
state that refuses all its automatic rows is polled again and again.

* `fireReturns_iff` — when the automatic rows form no cycle, a call returns exactly when
  each state on the way lets one of its automatic rows through after finitely many polls.
* `fireEvent_spins` — no cycle, and a call that does not return.

## Design notes

Guards may change the machine data.  A refused poll leaves the data that the guards left,
so the polls of one state are the iterates of `poll`, and a state may refuse for a while
and then let a row through.

**Cycles.**  `Acyclic` is about the automatic rows as a graph on the states.  Without it a call
may also run in circles with every guard in favour, and then no condition on a single state
would do.

**Fuel.**  One unit is one turn of the loop over the queue, and a call returns if some fuel is
enough for it.
-/

namespace NewCPP.Stm

open Library

universe u v w

variable {S : Type u} {D : Type v} {P : Type w}

/-! ## Automatic rows -/

/-- An automatic row leads from one state to the other. -/
def AutomaticRow (table : Table S D P) (state state' : S) : Prop :=
  ∃ row ∈ table, row.event = anyEvent ∧ row.startState = state ∧ row.nextState = state'

/-- The automatic rows form no cycle among states. -/
def Acyclic (table : Table S D P) : Prop :=
  ∀ state, ¬Relation.TransGen (AutomaticRow table) state state

theorem Acyclic.wellFounded {table : Table S D P} (h : Acyclic table) :
    WellFounded (flip (AutomaticRow table)) := by
  have hfinite : {state | state ∈ table.map (·.startState)}.Finite := List.finite_toSet _
  refine Transition.wellFounded_of_acyclic hfinite ?_ h
  rintro state state' ⟨row, hrow, -, rfl, -⟩
  exact List.mem_map_of_mem hrow

/-- The data after the guards of some rows have been asked. -/
def poll (param : P) (rows : Table S D P) (data : D) : D :=
  (firstEnabled param rows data).2

/-- After finitely many refused polls one of the rows is enabled. -/
def LetsThrough (param : P) (rows : Table S D P) (data : D) : Prop :=
  ∃ n, (firstEnabled param rows ((poll param rows)^[n] data)).1.isSome

variable [DecidableEq S]

/-- One automatic event. -/
def Automatic (table : Table S D P) (param : P) (config config' : Config S D P) : Prop :=
  FsmHandler.hasAny table config.state = true ∧
    config' = config.dispatch table anyEvent param

/-- No state on the way refuses its automatic rows for ever. -/
def NoneRefuses (table : Table S D P) (param : P) (config : Config S D P) : Prop :=
  ∀ config', Relation.ReflTransGen (Automatic table param) config config' →
    FsmHandler.hasAny table config'.state = true →
      LetsThrough param (candidates table config'.state anyEvent) config'.data

omit [DecidableEq S] in
theorem mem_of_firstEnabled {param : P} {rows : Table S D P} :
    ∀ {data data' : D} {row : TransitionRow S (D → P → D) (D → P → Bool × D)},
      firstEnabled param rows data = (some row, data') → row ∈ rows := by
  induction rows with
  | nil =>
      intro data data' row h
      cases h
  | cons head rows ih =>
      intro data data' row h
      rw [FsmHandler.firstEnabled_cons] at h
      split at h
      · cases h
        exact List.mem_cons_self
      · exact List.mem_cons_of_mem _ (ih h)

omit [DecidableEq S] in
theorem take_state (config : Config S D P) (param : P)
    (row : TransitionRow S (D → P → D) (D → P → Bool × D)) :
    (config.take param row).state = row.nextState := by
  unfold Config.take
  cases row.fn <;> rfl

theorem mem_candidates {table : Table S D P} {state : S} {ev : ℤ}
    {row : TransitionRow S (D → P → D) (D → P → Bool × D)} :
    row ∈ candidates table state ev ↔
      row ∈ table ∧ state = row.startState ∧ ev = row.event := by
  simp only [candidates, List.mem_filter, Bool.and_eq_true, decide_eq_true_eq]

omit [DecidableEq S] in
theorem enabled_of_unguarded {param : P} {rows : Table S D P}
    {row : TransitionRow S (D → P → D) (D → P → Bool × D)} (hrow : row ∈ rows)
    (hguard : row.conditionfn = none) :
    ∀ data, (firstEnabled param rows data).1.isSome := by
  induction rows with
  | nil => cases hrow
  | cons head rows ih =>
      intro data
      rw [FsmHandler.firstEnabled_cons]
      split
      · rfl
      · rename_i hrefused
        rcases List.mem_cons.1 hrow with rfl | htail
        · rw [hguard, Option.isNone_none, Bool.or_true] at hrefused
          exact absurd rfl hrefused
        · exact ih htail _

/-- An automatic event that finds a row enabled follows an automatic row. -/
theorem automaticRow_of_enabled {table : Table S D P} {param : P} {config : Config S D P}
    (h : (firstEnabled param (candidates table config.state anyEvent)
      config.data).1.isSome) :
    AutomaticRow table config.state (config.dispatch table anyEvent param).state := by
  rw [Config.dispatch]
  rcases hfound : firstEnabled param (candidates table config.state anyEvent) config.data
    with ⟨_ | row, data⟩
  · rw [hfound] at h
    cases h
  · obtain ⟨hrow, hstate, hev⟩ := mem_candidates.1 (mem_of_firstEnabled hfound)
    exact ⟨row, hrow, hev.symm, hstate.symm, (take_state _ param row).symm⟩

/-- An automatic event that finds none enabled has only asked the guards. -/
theorem dispatch_of_refused {table : Table S D P} {param : P} {config : Config S D P}
    (h : ¬(firstEnabled param (candidates table config.state anyEvent)
      config.data).1.isSome) :
    config.dispatch table anyEvent param = { config with
      data := poll param (candidates table config.state anyEvent) config.data } := by
  rw [Config.dispatch, poll]
  rcases hfound : firstEnabled param (candidates table config.state anyEvent) config.data
    with ⟨_ | row, data⟩
  · rfl
  · rw [hfound] at h
    exact absurd rfl h

/-! ## Settling -/

/-- A state that lets a row through settles if what its automatic rows lead to does. -/
theorem settles_of_letsThrough {table : Table S D P} {param : P} (n : ℕ) :
    ∀ {config : Config S D P}, FsmHandler.hasAny table config.state = true →
      (firstEnabled param (candidates table config.state anyEvent)
        ((poll param (candidates table config.state anyEvent))^[n] config.data)).1.isSome →
      (∀ config', Relation.ReflTransGen (Automatic table param) config config' →
        AutomaticRow table config.state config'.state →
        ∃ config'', Settles table param config' config'') →
      ∃ config', Settles table param config config' := by
  -- Induction on the refused polls that are left; each keeps the state.
  induction n with
  | zero =>
      intro config hany henabled hnext
      obtain ⟨config', hsettles⟩ := hnext _ (Relation.ReflTransGen.single ⟨hany, rfl⟩)
        (automaticRow_of_enabled henabled)
      exact ⟨config', Settles.step hany hsettles⟩
  | succ n ih =>
      intro config hany henabled hnext
      by_cases hnow : (firstEnabled param (candidates table config.state anyEvent)
          config.data).1.isSome
      · obtain ⟨config', hsettles⟩ := hnext _ (Relation.ReflTransGen.single ⟨hany, rfl⟩)
          (automaticRow_of_enabled hnow)
        exact ⟨config', Settles.step hany hsettles⟩
      · have hrefused := dispatch_of_refused hnow
        have hstate : (config.dispatch table anyEvent param).state = config.state := by
          rw [hrefused]
        have hany' : FsmHandler.hasAny table
            (config.dispatch table anyEvent param).state = true := by rw [hstate, hany]
        obtain ⟨config', hsettles⟩ := ih hany' (by rw [hrefused]; exact henabled)
          fun config' hpath hrow => hnext config' (hpath.head ⟨hany, rfl⟩) (hstate ▸ hrow)
        exact ⟨config', Settles.step hany hsettles⟩

/-- Without cycles a configuration settles if none of the states on the way refuses. -/
theorem settles_of_noneRefuses {table : Table S D P} {param : P}
    (hacyclic : Acyclic table) {config : Config S D P}
    (h : NoneRefuses table param config) : ∃ config', Settles table param config config' := by
  -- Induction on the state, along the automatic rows.
  induction hstate : config.state using hacyclic.wellFounded.induction generalizing config with
  | h state ih =>
      cases hany : FsmHandler.hasAny table config.state with
      | false => exact ⟨config, Settles.quiet hany⟩
      | true =>
          obtain ⟨n, henabled⟩ := h config Relation.ReflTransGen.refl hany
          refine settles_of_letsThrough n hany henabled fun config' hpath hrow => ?_
          exact ih config'.state (hstate ▸ hrow) (fun config'' h' => h config'' (hpath.trans h'))
            rfl

theorem Settles.of_path {table : Table S D P} {param : P} {config config' last : Config S D P}
    (hpath : Relation.ReflTransGen (Automatic table param) config config')
    (h : Settles table param config last) : Settles table param config' last := by
  refine Transition.invariant_of_run (I := fun c => Settles table param c last) ?_ h hpath
  intro c c' hsettles hstep
  obtain ⟨hany, rfl⟩ := hstep
  cases hsettles with
  | quiet hnone =>
      rw [hany] at hnone
      cases hnone
  | step _ hrest => exact hrest

theorem Settles.letsThrough {table : Table S D P} {param : P} {config last : Config S D P}
    (h : Settles table param config last) (hany : FsmHandler.hasAny table config.state = true) :
    LetsThrough param (candidates table config.state anyEvent) config.data := by
  induction h with
  | quiet hnone =>
      rw [hany] at hnone
      cases hnone
  | @step config _ _ _ ih =>
      by_cases hnow : (firstEnabled param (candidates table config.state anyEvent)
          config.data).1.isSome
      · exact ⟨0, hnow⟩
      · rw [dispatch_of_refused hnow] at ih
        obtain ⟨n, henabled⟩ := ih hany
        exact ⟨n + 1, henabled⟩

/-- An automatic row without a guard is never refused. -/
theorem noneRefuses_of_unguarded {table : Table S D P} {param : P}
    (h : ∀ state, FsmHandler.hasAny table state = true →
      ∃ row ∈ candidates table state anyEvent, row.conditionfn = none)
    (config : Config S D P) : NoneRefuses table param config := by
  intro config' _ hany
  obtain ⟨row, hrow, hguard⟩ := h config'.state hany
  exact ⟨0, enabled_of_unguarded hrow hguard config'.data⟩

namespace FsmHandler

/-- **When a call returns**, for a table without automatic cycles. -/
theorem fireReturns_iff (table : Table S D P) (hacyclic : Acyclic table) (data : D)
    (state₀ state : S) (ev : ℤ) (param : P) :
    (∃ handler', FireReturns table ev param
        (Initialize ({ fsmData := data, currentState := state₀ } : Handler S D P) state)
        handler') ↔
      NoneRefuses table param (Config.dispatch table ev param
        { state := state, data := data, executed := [] }) := by
  have hready := initialize_ready (P := P) data state₀ state
  constructor
  · rintro ⟨handler', hreturns⟩ config' hpath hany
    exact (Settles.of_path hpath (hreturns.settles hready).1).letsThrough hany
  · intro h
    obtain ⟨config', hsettles⟩ := settles_of_noneRefuses hacyclic h
    obtain ⟨handler', hreturns, -⟩ := fireReturns_of_settles hready hsettles
    exact ⟨handler', hreturns⟩

/-- An automatic row without a guard in each state that has one: every call returns. -/
theorem fireReturns_of_unguarded {table : Table S D P} (hacyclic : Acyclic table)
    (h : ∀ state, hasAny table state = true →
      ∃ row ∈ candidates table state anyEvent, row.conditionfn = none)
    {handler : Handler S D P} (hready : handler.Ready) (ev : ℤ) (param : P) :
    ∃ handler', FireReturns table ev param handler handler' := by
  obtain ⟨config', hsettles⟩ := settles_of_noneRefuses hacyclic
    (noneRefuses_of_unguarded h (handler.config.dispatch table ev param))
  obtain ⟨handler', hreturns, -⟩ := fireReturns_of_settles hready hsettles
  exact ⟨handler', hreturns⟩

/-- A single automatic row, from `true` to `false`. -/
def oneRow (conditionfn : Option (Unit → Unit → Bool × Unit)) : Table Bool Unit Unit :=
  [{ startState := true
     event := anyEvent
     fn := none
     nextState := false
     conditionfn := conditionfn }]

theorem oneRow_acyclic (conditionfn : Option (Unit → Unit → Bool × Unit)) :
    Acyclic (oneRow conditionfn) := by
  have hedge : ∀ {state state' : Bool},
      Relation.TransGen (AutomaticRow (oneRow conditionfn)) state state' →
        state = true ∧ state' = false := by
    intro state state' hpath
    induction hpath with
    | single hrow =>
        obtain ⟨row, hmem, -, rfl, rfl⟩ := hrow
        rw [List.mem_singleton.1 hmem]
        exact ⟨rfl, rfl⟩
    | tail _ hrow ih =>
        obtain ⟨row, hmem, -, rfl, rfl⟩ := hrow
        rw [List.mem_singleton.1 hmem] at ih
        have hclash : true = false := ih.2
        cases hclash
  intro state hcycle
  obtain ⟨htrue, hfalse⟩ := hedge hcycle
  rw [htrue] at hfalse
  exact absurd hfalse (by decide)

/-- Without a guard the row is taken and the call returns. -/
theorem fireEvent_oneRow :
    ∃ handler', FireReturns (oneRow none) 0 ()
      (Initialize { fsmData := (), currentState := true } true) handler' := by
  refine (fireReturns_iff (oneRow none) (oneRow_acyclic none) () true true 0 ()).2
    (noneRefuses_of_unguarded ?_ _)
  decide

/-- No state of `oneRow` but `false` settles when the guard refuses. -/
theorem oneRow_refused {config config' : Config Bool Unit Unit}
    (h : Settles (oneRow (some fun data _ => (false, data))) () config config') :
    config.state = false := by
  induction h with
  | @quiet config hnone =>
      cases hstate : config.state with
      | false => rfl
      | true =>
          rw [hstate] at hnone
          cases hnone
  | @step config _ hsome _ ih =>
      cases hstate : config.state with
      | false => rfl
      | true =>
          rw [Config.dispatch, hstate] at ih
          exact ih

/-- **No cycle and no return**: the guard of the only automatic row refuses for ever. -/
theorem fireEvent_spins :
    Acyclic (oneRow (some fun data _ => (false, data))) ∧
      ¬∃ handler', FireReturns (oneRow (some fun data _ => (false, data))) 0 ()
        (Initialize { fsmData := (), currentState := true } true) handler' := by
  refine ⟨oneRow_acyclic _, ?_⟩
  rintro ⟨handler', hreturns⟩
  have hsettles := (hreturns.settles (initialize_ready () true true)).1
  exact absurd (oneRow_refused hsettles) (by decide)

end FsmHandler

end NewCPP.Stm
