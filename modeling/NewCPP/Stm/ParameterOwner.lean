import Mathlib.Data.List.Forall2
import NewCPP.Stm.Exceptions

/-!
# Who owns a parameter

The caller of `fire_event` hands over a pointer.  The engine gives it to guards and actions,
keeps it in the queue for the automatic events that follow, and deletes it.

* `parameters_owned` — in calls that return, each parameter is deleted once, at the end of
  its own call, and nothing is given a parameter that has been deleted.
* `runStateMachine_deleted` — the deletions among the uses are those that the engine records.

The uses of a call are what it does with parameters, in order.  They are read off the run of
the engine in `NewCPP.Stm.Exceptions`: its tables let guards and actions end in an
exception, and a call that returns is one in which none does.  An action that calls the
handler does not return (`NewCPP.Stm.NestedEvents`).

## Design notes

**Parameters** are told apart by their values: the calls of a run have different ones, as
pointers from `new` have.

**The record.**  `deleted` is written by the model of the engine where the source has `delete`,
and nothing reads it; the uses are a separate reading of the same run, and the two agree.
-/

namespace NewCPP.Stm

universe u v w

/-- What the engine does with a parameter. -/
inductive Use (P : Type w) where
  | guard (param : P)
  | action (param : P)
  | delete (param : P)
  deriving DecidableEq, Repr

namespace Use

variable {P : Type w}

/-- The parameter that is used. -/
def param : Use P → P
  | guard param | action param | delete param => param

/-- The parameter is lent to a guard or an action. -/
def Lends (param : P) (use : Use P) : Prop :=
  use = .guard param ∨ use = .action param

/-- The parameters that are deleted, in order. -/
def deletions : List (Use P) → List P
  | [] => []
  | .delete param :: uses => param :: deletions uses
  | .guard _ :: uses | .action _ :: uses => deletions uses

@[simp] theorem deletions_append (uses uses' : List (Use P)) :
    deletions (uses ++ uses') = deletions uses ++ deletions uses' := by
  induction uses with
  | nil => rfl
  | cons use uses ih =>
      cases use with
      | delete param => exact congrArg (param :: ·) ih
      | _ => exact ih

theorem deletions_of_lends {param : P} {uses : List (Use P)}
    (h : ∀ use ∈ uses, Lends param use) : deletions uses = [] := by
  induction uses with
  | nil => rfl
  | cons use uses ih =>
      have hrest := ih fun use' hmem => h use' (List.mem_cons_of_mem _ hmem)
      obtain rfl | rfl := h use List.mem_cons_self
      · exact hrest
      · exact hrest

theorem Lends.param_eq {param : P} {use : Use P} (h : Lends param use) :
    use.param = param := by
  obtain rfl | rfl := h
  · rfl
  · rfl

theorem Lends.ne_delete {param : P} {use : Use P} (h : Lends param use) (param' : P) :
    use ≠ .delete param' := by
  obtain rfl | rfl := h
  · exact nofun
  · exact nofun

end Use

namespace Throwing

variable {S : Type u} {D : Type v} {P : Type w}

/-! ## The uses of a run -/

/-- What taking a row uses: the parameter of the action, if there is one. -/
def takeUses (row : ThrowingRow S D P) (param : P) : List (Use P) :=
  match row.fn with
  | some _ => [.action param]
  | none => []

variable [DecidableEq S]

/-- The uses of `ProcessEvent`. -/
def processUses (ev : ℤ) (param : P) :
    List (ThrowingRow S D P) → ThrowingHandler S D P → List (Use P)
  | [], _ => []
  | row :: rows, handler =>
      if handler.currentState = row.startState ∧ ev = row.event then
        match row.conditionfn with
        | none => takeUses row param
        | some conditionfn =>
            let left := conditionfn handler.fsmData param
            let handler := { handler with fsmData := left.1 }
            .guard param :: match left.2 with
              | none => []
              | some true => takeUses row param
              | some false => processUses ev param rows handler
      else processUses ev param rows handler

/-- The use of `popEvent`. -/
def popUses (table : List (ThrowingRow S D P)) (param : P) (handler : ThrowingHandler S D P) :
    List (Use P) :=
  if FsmHandler.hasAny table handler.currentState then [] else [.delete param]

/-- The uses of `RunStateMachine`. -/
def runUses (table : List (ThrowingRow S D P)) : ℕ → ThrowingHandler S D P → List (Use P)
  | 0, _ => []
  | fuel + 1, handler =>
      match handler.eventQueue with
      | [] => []
      | (ev, param) :: _ =>
          match processEvent ev param table handler with
          | (none, _) => processUses ev param table handler
          | (some _, handler') =>
              processUses ev param table handler ++ popUses table param handler' ++
                runUses table fuel (handler'.popEvent table param)

/-- The uses of a call of `fire_event`. -/
def fireUses (table : List (ThrowingRow S D P)) (fuel : ℕ) (ev : ℤ) (param : P)
    (handler : ThrowingHandler S D P) : List (Use P) :=
  if handler.isInitialized then
    let handler := { handler with eventQueue := handler.eventQueue ++ [(ev, param)] }
    if handler.isPendingEvent then [] else runUses table fuel handler
  else []

/-- Calls one after another, each of which returns, with the uses of each and the handler that
they leave. -/
inductive Fires (table : List (ThrowingRow S D P)) :
    List (ℤ × P) → ThrowingHandler S D P → List (List (Use P)) → ThrowingHandler S D P → Prop
  | nil {handler : ThrowingHandler S D P} : Fires table [] handler [] handler
  | cons {ev : ℤ} {param : P} {calls : List (ℤ × P)} {handler after : ThrowingHandler S D P}
      {traces : List (List (Use P))} (fuel : ℕ)
      (returns : (fireEvent table fuel ev param handler).ended = .returned)
      (rest : Fires table calls (fireEvent table fuel ev param handler).handler traces after) :
      Fires table ((ev, param) :: calls) handler
        (fireUses table fuel ev param handler :: traces) after

/-! ## Deletions are those of the engine -/

omit [DecidableEq S] in
theorem takeRow_deleted (row : ThrowingRow S D P) (param : P)
    (handler : ThrowingHandler S D P) :
    (takeRow row param handler).2.deleted = handler.deleted := by
  unfold takeRow
  cases row.fn with
  | none => rfl
  | some fn =>
      dsimp only
      split <;> rfl

theorem processEvent_deleted (ev : ℤ) (param : P) (rows : List (ThrowingRow S D P)) :
    ∀ handler : ThrowingHandler S D P,
      (processEvent ev param rows handler).2.deleted = handler.deleted := by
  induction rows with
  | nil => exact fun _ => rfl
  | cons row rows ih =>
      intro handler
      rw [processEvent]
      split
      · split
        · exact takeRow_deleted row param handler
        · dsimp only
          split
          · rfl
          · exact takeRow_deleted row param _
          · exact ih _
      · exact ih handler

/-- Guards and actions are lent the parameter of the event that is processed. -/
theorem processUses_lends (ev : ℤ) (param : P) (rows : List (ThrowingRow S D P)) :
    ∀ handler : ThrowingHandler S D P, ∀ use ∈ processUses ev param rows handler,
      Use.Lends param use := by
  have htake (row : ThrowingRow S D P) : ∀ use ∈ takeUses row param, Use.Lends param use := by
    intro use hmem
    unfold takeUses at hmem
    split at hmem
    · exact Or.inr (List.mem_singleton.mp hmem)
    · exact absurd hmem List.not_mem_nil
  induction rows with
  | nil => exact fun _ _ hmem => absurd hmem List.not_mem_nil
  | cons row rows ih =>
      intro handler use hmem
      rw [processUses] at hmem
      split at hmem
      · split at hmem
        · exact htake row use hmem
        · obtain rfl | hmem := List.mem_cons.mp hmem
          · exact Or.inl rfl
          · split at hmem
            · exact absurd hmem List.not_mem_nil
            · exact htake row use hmem
            · exact ih _ use hmem
      · exact ih handler use hmem

/-- The uses delete what the engine records as deleted. -/
theorem runStateMachine_deleted (table : List (ThrowingRow S D P)) (fuel : ℕ) :
    ∀ handler : ThrowingHandler S D P,
      (runStateMachine table fuel handler).handler.deleted =
        handler.deleted ++ Use.deletions (runUses table fuel handler) := by
  induction fuel with
  | zero => exact fun _ => (List.append_nil _).symm
  | succ fuel ih =>
      intro handler
      rw [runStateMachine, runUses]
      cases hqueue : handler.eventQueue with
      | nil => exact (List.append_nil _).symm
      | cons event events =>
          obtain ⟨ev, param⟩ := event
          have hlent := Use.deletions_of_lends (processUses_lends ev param table handler)
          have hkept := processEvent_deleted ev param table handler
          dsimp only
          generalize processEvent ev param table handler = processed at hkept ⊢
          obtain ⟨result, handler'⟩ := processed
          cases result with
          | none =>
              dsimp only at hkept ⊢
              rw [hkept, hlent, List.append_nil]
          | some result =>
              dsimp only at hkept ⊢
              rw [ih, Use.deletions_append, Use.deletions_append, hlent, List.nil_append,
                popUses]
              cases hany : FsmHandler.hasAny table handler'.currentState with
              | true =>
                  rw [FsmHandler.popEvent_of_any hany, if_pos rfl]
                  exact congrArg (· ++ _) hkept
              | false =>
                  rw [FsmHandler.popEvent_of_none hany, if_neg Bool.false_ne_true,
                    List.append_assoc, hkept]
                  rfl

theorem fireEvent_deleted (table : List (ThrowingRow S D P)) (fuel : ℕ) (ev : ℤ) (param : P)
    (handler : ThrowingHandler S D P) :
    (fireEvent table fuel ev param handler).handler.deleted =
      handler.deleted ++ Use.deletions (fireUses table fuel ev param handler) := by
  rw [fireEvent, fireUses]
  split
  · dsimp only
    split
    · exact (List.append_nil _).symm
    · exact runStateMachine_deleted table fuel _
  · exact (List.append_nil _).symm

/-- What the engine has deleted over calls one after another. -/
theorem Fires.deleted_eq {table : List (ThrowingRow S D P)} {calls : List (ℤ × P)}
    {handler after : ThrowingHandler S D P} {traces : List (List (Use P))}
    (h : Fires table calls handler traces after) :
    after.deleted = handler.deleted ++ Use.deletions traces.flatten := by
  induction h with
  | nil => exact (List.append_nil _).symm
  | cons fuel _ _ ih =>
      rw [ih, fireEvent_deleted, List.flatten_cons, Use.deletions_append, List.append_assoc]

/-! ## One call -/

/-- **A loop over one event** lends its parameter, to the automatic events too, and deletes
it as the last thing it does. -/
theorem runUses_returned (table : List (ThrowingRow S D P)) (param : P) (fuel : ℕ) :
    ∀ {handler : ThrowingHandler S D P} {ev : ℤ}, Queued (ev, param) handler →
      handler.isPendingEvent = false →
      (runStateMachine table fuel handler).ended = .returned →
      ∃ lent, (∀ use ∈ lent, Use.Lends param use) ∧
        runUses table fuel handler = lent ++ [.delete param] := by
  induction fuel with
  | zero => exact fun _ _ h => by cases h
  | succ fuel ih =>
      intro handler ev hqueued hpending hreturned
      obtain ⟨hqueue, hinit, hflag⟩ := processEvent_rest ev param table hpending
      have hlent := processUses_lends ev param table handler
      rw [hqueued.queue] at hqueue
      rw [hqueued.initialized] at hinit
      rw [runStateMachine, hqueued.queue] at hreturned
      rw [runUses, hqueued.queue]
      dsimp only at hreturned ⊢
      generalize processEvent ev param table handler = processed at *
      obtain ⟨result, handler'⟩ := processed
      cases result with
      | none => cases hreturned
      | some result =>
          have hidle : handler'.isPendingEvent = false := hflag rfl
          dsimp only at hqueue hinit hreturned ⊢
          rw [popUses]
          cases hany : FsmHandler.hasAny table handler'.currentState with
          | true =>
              -- the parameter goes on to the automatic event
              rw [FsmHandler.popEvent_of_any hany, hqueue] at hreturned ⊢
              obtain ⟨lent, hrest, heq⟩ := @ih
                { handler' with eventQueue := [(anyEvent, param)] } anyEvent
                ⟨hinit, rfl⟩ hidle hreturned
              refine ⟨processUses ev param table handler ++ lent, fun use hmem => ?_, ?_⟩
              · rcases List.mem_append.mp hmem with hmem | hmem
                · exact hlent use hmem
                · exact hrest use hmem
              · rw [if_pos rfl, List.append_nil, List.append_assoc, ← heq]
                rfl
          | false =>
              rw [FsmHandler.popEvent_of_none hany, hqueue] at hreturned ⊢
              refine ⟨processUses ev param table handler, hlent, ?_⟩
              rw [if_neg Bool.false_ne_true]
              cases fuel with
              | zero => cases hreturned
              | succ fuel => exact List.append_nil _

/-- A call on a handler that is ready. -/
theorem fireUses_returned {table : List (ThrowingRow S D P)}
    {handler : ThrowingHandler S D P} (h : handler.Ready) {fuel : ℕ} {ev : ℤ} {param : P}
    (hreturned : (fireEvent table fuel ev param handler).ended = .returned) :
    ∃ lent, (∀ use ∈ lent, Use.Lends param use) ∧
      fireUses table fuel ev param handler = lent ++ [.delete param] := by
  have hqueued : Queued (ev, param)
      { handler with eventQueue := handler.eventQueue ++ [(ev, param)] } :=
    ⟨h.initialized, by rw [h.queue]; rfl⟩
  have hfree : ¬handler.isPendingEvent = true := by
    rw [h.pending]
    exact Bool.false_ne_true
  rw [fireEvent, if_pos h.initialized] at hreturned
  rw [fireUses, if_pos h.initialized]
  dsimp only at hreturned ⊢
  rw [if_neg hfree] at hreturned ⊢
  exact runUses_returned table param fuel hqueued h.pending hreturned

/-! ## Calls one after another -/

/-- Each call lends its own parameter and deletes it at its end. -/
def OwnParameter (call : ℤ × P) (uses : List (Use P)) : Prop :=
  ∃ lent, (∀ use ∈ lent, Use.Lends call.2 use) ∧ uses = lent ++ [.delete call.2]

theorem Fires.own {table : List (ThrowingRow S D P)} {calls : List (ℤ × P)}
    {handler after : ThrowingHandler S D P} {traces : List (List (Use P))}
    (hfires : Fires table calls handler traces after) (h : handler.Ready) :
    List.Forall₂ OwnParameter calls traces := by
  induction hfires with
  | nil => exact List.Forall₂.nil
  | cons fuel hreturns _ ih =>
      have hready := (fireEvent_ends h ⟨fuel, rfl, rfl⟩).1 hreturns
      exact List.Forall₂.cons (fireUses_returned h hreturns) (ih hready)

omit [DecidableEq S] in
theorem OwnParameter.param_eq {call : ℤ × P} {uses : List (Use P)}
    (h : OwnParameter call uses) : ∀ use ∈ uses, use.param = call.2 := by
  obtain ⟨lent, hlent, rfl⟩ := h
  intro use hmem
  rcases List.mem_append.mp hmem with hmem | hmem
  · exact (hlent use hmem).param_eq
  · rw [List.mem_singleton.mp hmem]
    rfl

omit [DecidableEq S] in
theorem OwnParameter.deletions_eq {call : ℤ × P} {uses : List (Use P)}
    (h : OwnParameter call uses) : Use.deletions uses = [call.2] := by
  obtain ⟨lent, hlent, rfl⟩ := h
  rw [Use.deletions_append, Use.deletions_of_lends hlent]
  rfl

omit [DecidableEq S] in
/-- A deletion is the last use of a call. -/
theorem OwnParameter.alive {call : ℤ × P} {uses : List (Use P)}
    (h : OwnParameter call uses) :
    uses.Pairwise fun earlier later => earlier ≠ .delete later.param := by
  obtain ⟨lent, hlent, rfl⟩ := h
  refine List.pairwise_append.mpr ⟨?_, List.pairwise_singleton _ _, ?_⟩
  · exact List.pairwise_iff_forall_sublist.mpr fun hsub =>
      (hlent _ (hsub.subset List.mem_cons_self)).ne_delete _
  · exact fun earlier hmem later _ => (hlent earlier hmem).ne_delete _

/-- What the engine owes the parameters of its calls. -/
structure Owned (calls : List (ℤ × P)) (traces : List (List (Use P))) : Prop where
  /-- A call deletes its own parameter and no other, once. -/
  own_call : List.Forall₂ (fun call uses => Use.deletions uses = [call.2]) calls traces
  /-- Over all calls each parameter is deleted once. -/
  once : Use.deletions traces.flatten = calls.map Prod.snd
  /-- No use of a parameter comes after its deletion. -/
  alive : traces.flatten.Pairwise fun earlier later => earlier ≠ .delete later.param

omit [DecidableEq S] in
theorem owned_of_own {calls : List (ℤ × P)} {traces : List (List (Use P))}
    (hown : (calls.map Prod.snd).Nodup) (h : List.Forall₂ OwnParameter calls traces) :
    Owned calls traces := by
  -- the parameters of the uses are carried along, for the calls that come later
  suffices hall : Owned calls traces ∧
      ∀ use ∈ traces.flatten, use.param ∈ calls.map Prod.snd from hall.1
  induction h with
  | nil => exact ⟨⟨List.Forall₂.nil, rfl, List.Pairwise.nil⟩, fun _ h => absurd h List.not_mem_nil⟩
  | @cons call uses calls traces hcall _ ih =>
      obtain ⟨hnew, hnodup⟩ := List.nodup_cons.mp hown
      obtain ⟨hrest, hparams⟩ := ih hnodup
      refine ⟨⟨List.Forall₂.cons hcall.deletions_eq hrest.own_call, ?_, ?_⟩, ?_⟩
      · rw [List.flatten_cons, Use.deletions_append, hcall.deletions_eq, hrest.once]
        rfl
      · rw [List.flatten_cons]
        refine List.pairwise_append.mpr ⟨hcall.alive, hrest.alive, ?_⟩
        rintro earlier hearlier later hlater rfl
        refine hnew ?_
        have hsame : later.param = call.2 := hcall.param_eq (.delete later.param) hearlier
        rw [← hsame]
        exact hparams later hlater
      · intro use hmem
        rw [List.flatten_cons] at hmem
        rcases List.mem_append.mp hmem with hmem | hmem
        · rw [hcall.param_eq use hmem]
          exact List.mem_cons_self
        · exact List.mem_cons_of_mem _ (hparams use hmem)

/-- **The engine owns the parameters it is given.**  Calls on an initialized handler, each
with a parameter of its own and each of which returns: every parameter is deleted once, in
its own call, and no guard or action gets a parameter that has been deleted, however many
automatic events it goes through.  What the engine has deleted by the end are the parameters of
the calls. -/
theorem parameters_owned {table : List (ThrowingRow S D P)} {calls : List (ℤ × P)}
    {handler after : ThrowingHandler S D P} {traces : List (List (Use P))}
    (h : handler.Ready) (hown : (calls.map Prod.snd).Nodup)
    (hfires : Fires table calls handler traces after) :
    Owned calls traces ∧ after.deleted = handler.deleted ++ calls.map Prod.snd := by
  have howned : Owned calls traces := owned_of_own hown (hfires.own h)
  refine ⟨howned, ?_⟩
  rw [hfires.deleted_eq, howned.once]

/-- An event and an automatic one that takes its parameter over, behind a guard. -/
def relayTable : List (ThrowingRow Bool Unit ℕ) :=
  [{ startState := true, event := 0, fn := some fun _ _ => ((), some ()), nextState := false,
      conditionfn := none },
   { startState := false, event := anyEvent, fn := some fun _ _ => ((), some ()),
      nextState := true, conditionfn := some fun _ _ => ((), some true) }]

/-- A handler for it, initialized. -/
def relayHandler : ThrowingHandler Bool Unit ℕ :=
  FsmHandler.Initialize { fsmData := (), currentState := true } true

theorem relayTable_owned :
    Owned [(0, 1), (0, 2)]
        [[.action 1, .guard 1, .action 1, .delete 1],
          [.action 2, .guard 2, .action 2, .delete 2]] ∧
      (fireEvent relayTable 5 0 2
        (fireEvent relayTable 5 0 1 relayHandler).handler).handler.deleted = [1, 2] := by
  have hready : relayHandler.Ready := ⟨rfl, rfl, rfl⟩
  have hfires : Fires relayTable [(0, 1), (0, 2)] relayHandler
      [[.action 1, .guard 1, .action 1, .delete 1],
        [.action 2, .guard 2, .action 2, .delete 2]]
      (fireEvent relayTable 5 0 2 (fireEvent relayTable 5 0 1 relayHandler).handler).handler :=
    Fires.cons 5 rfl (Fires.cons 5 rfl Fires.nil)
  exact parameters_owned hready (by decide) hfires

end Throwing

end NewCPP.Stm
