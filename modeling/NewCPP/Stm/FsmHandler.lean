import Mathlib.Data.Int.Order.Basic
import Mathlib.Data.List.Basic
import Mathlib.Tactic.Common

/-!
# The state machine engine

`TransitionRow` and `FsmHandler` as the headers have them: a table of rows, a queue of
events and a loop that processes them.

## Design notes

**Table.**  The engine is generic in states, machine data and parameters, and so is the
model.  `fn` and `conditionfn` may be null.  Both take the machine data by reference, so
a guard may change it too.  In a `Table` both return and neither calls the handler;
`NewCPP.Stm.NestedEvents` is about those that do, with the same rows and handler.

**Parameters.**  A parameter is a pointer.  The engine passes it on and deletes it when
no automatic transition takes it over; `deleted` is what it has deleted so far.

**Log.**  `executed` lists the actions that ran, with their parameters.  Nothing the code
does reads it or `deleted`.

**The loop.**  `RunStateMachine` runs until the queue is empty, which may never happen,
so it takes fuel and yields nothing when the fuel is spent.
-/

namespace NewCPP.Stm

universe u v w x y

/-- `ANY_EVENT`, the event of automatic transitions. -/
def anyEvent : ℤ := -1

/-- A row of the transition table: states in `S`, actions in `F`, guards in `G`. -/
structure TransitionRow (S : Type u) (F : Type v) (G : Type w) where
  startState : S
  event : ℤ
  fn : Option F
  nextState : S
  conditionfn : Option G

/-- A transition table whose actions and guards return and do not call the handler. -/
abbrev Table (S : Type u) (D : Type v) (P : Type w) :=
  List (TransitionRow S (D → P → D) (D → P → Bool × D))

/-- The state of an `FsmHandler`, with the machine data it refers to. -/
structure FsmHandler (S : Type u) (D : Type v) (P : Type w) (F : Type x) where
  fsmData : D
  currentState : S
  eventQueue : List (ℤ × P) := []
  isPendingEvent : Bool := false
  isInitialized : Bool := false
  executed : List (F × P) := []
  deleted : List P := []

/-- A handler with a `Table`. -/
abbrev Handler (S : Type u) (D : Type v) (P : Type w) := FsmHandler S D P (D → P → D)

namespace FsmHandler

variable {S : Type u} {D : Type v} {P : Type w} {F : Type x} {G : Type y}

/-- The state in which the handler begins.  In lower case the word is a keyword. -/
def Initialize (handler : FsmHandler S D P F) (state : S) : FsmHandler S D P F :=
  { handler with currentState := state, isInitialized := true }

/-- Between two calls: initialized, nothing queued, no action running. -/
structure Ready (handler : FsmHandler S D P F) : Prop where
  initialized : handler.isInitialized = true
  queue : handler.eventQueue = []
  pending : handler.isPendingEvent = false

/-- The current state has an automatic row. -/
def hasAny [DecidableEq S] (table : List (TransitionRow S F G)) (state : S) : Bool :=
  table.any fun row => state = row.startState && row.event = anyEvent

/-- `PushAnyIfGuard`: it looks for a row and does not ask its guard. -/
def pushAnyIfGuard [DecidableEq S] (table : List (TransitionRow S F G)) (rescue : P)
    (handler : FsmHandler S D P F) : Bool × FsmHandler S D P F :=
  if hasAny table handler.currentState then
    (true, { handler with eventQueue := (anyEvent, rescue) :: handler.eventQueue })
  else (false, handler)

/-- After `ProcessEvent`: take the event off the queue, then push the automatic event or
delete the parameter. -/
def popEvent [DecidableEq S] (table : List (TransitionRow S F G)) (rescue : P)
    (handler : FsmHandler S D P F) : FsmHandler S D P F :=
  let handler := { handler with eventQueue := handler.eventQueue.tail }
  let pushed := pushAnyIfGuard table rescue handler
  if pushed.1 then pushed.2 else { pushed.2 with deleted := pushed.2.deleted ++ [rescue] }

theorem popEvent_of_any [DecidableEq S] {table : List (TransitionRow S F G)}
    {handler : FsmHandler S D P F} (h : hasAny table handler.currentState = true)
    (rescue : P) :
    handler.popEvent table rescue =
      { handler with eventQueue := (anyEvent, rescue) :: handler.eventQueue.tail } := by
  simp only [popEvent, pushAnyIfGuard, h, if_true]

theorem popEvent_of_none [DecidableEq S] {table : List (TransitionRow S F G)}
    {handler : FsmHandler S D P F} (h : hasAny table handler.currentState = false)
    (rescue : P) :
    handler.popEvent table rescue = { handler with
      eventQueue := handler.eventQueue.tail
      deleted := handler.deleted ++ [rescue] } := by
  simp only [popEvent, pushAnyIfGuard, h, Bool.false_eq_true, if_false]

/-! ## Actions and guards that return -/

variable (row : TransitionRow S (D → P → D) (D → P → Bool × D)) (param : P)

/-- A satisfied row: run the action, if there is one, then change the state. -/
def takeRow (handler : Handler S D P) : Handler S D P :=
  let handler := { handler with isPendingEvent := true }
  let handler :=
    match row.fn with
    | some fn =>
        { handler with
          fsmData := fn handler.fsmData param
          executed := handler.executed ++ [(fn, param)] }
    | none => handler
  { handler with isPendingEvent := false, currentState := row.nextState }

/-- `iHasConditionSatisfied`, and the data after the guard. -/
def condition (data : D) : Bool × D :=
  match row.conditionfn with
  | some conditionfn => conditionfn data param
  | none => (false, data)

variable [DecidableEq S]

/-- `ProcessEvent` over the rows that are left. -/
def processEvent (ev : ℤ) (param : P) : Table S D P → Handler S D P → Bool × Handler S D P
  | [], handler => (false, handler)
  | row :: rows, handler =>
      if handler.currentState = row.startState then
        if ev = row.event then
          let checked := condition row param handler.fsmData
          let handler := { handler with fsmData := checked.2 }
          -- a refused row leaves the data its guard left, and the scan goes on
          if checked.1 || row.conditionfn.isNone then (true, takeRow row param handler)
          else processEvent ev param rows handler
        else processEvent ev param rows handler
      else processEvent ev param rows handler

theorem processEvent_cons (ev : ℤ) (rows : Table S D P) (handler : Handler S D P) :
    processEvent ev param (row :: rows) handler =
      if handler.currentState = row.startState ∧ ev = row.event then
        let checked := condition row param handler.fsmData
        let handler := { handler with fsmData := checked.2 }
        if checked.1 || row.conditionfn.isNone then (true, takeRow row param handler)
        else processEvent ev param rows handler
      else processEvent ev param rows handler := by
  rw [processEvent, ite_and]

/-- The body of the loop for the event at the front. -/
def dispatchFront (table : Table S D P) (ev : ℤ) (param : P) (handler : Handler S D P) :
    Handler S D P :=
  popEvent table param (processEvent ev param table handler).2

/-- `while (_EventQueue.size() > 0)`. -/
def runStateMachine (table : Table S D P) : ℕ → Handler S D P → Option (Handler S D P)
  | 0, _ => none
  | fuel + 1, handler =>
      match handler.eventQueue with
      | [] => some handler
      | (ev, param) :: _ => runStateMachine table fuel (dispatchFront table ev param handler)

/-- `fire_event`: the event is queued, and unless an action runs the queue is worked off. -/
def fireEvent (table : Table S D P) (fuel : ℕ) (ev : ℤ) (param : P)
    (handler : Handler S D P) : Option (Handler S D P) :=
  if handler.isInitialized then
    let handler := { handler with eventQueue := handler.eventQueue ++ [(ev, param)] }
    if handler.isPendingEvent then some handler else runStateMachine table fuel handler
  else some handler

/-- The call returns, with this handler. -/
def FireReturns (table : Table S D P) (ev : ℤ) (param : P)
    (handler handler' : Handler S D P) : Prop :=
  ∃ fuel, fireEvent table fuel ev param handler = some handler'

end FsmHandler

end NewCPP.Stm
