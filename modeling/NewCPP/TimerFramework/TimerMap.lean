import NewCPP.TimerFramework.RecordedRun

/-!
# The timer list as a map

The worker adds to its list, removes from it and starts and stops timers in six functions.
Over any sequence of events they amount to a map from ids to timers: a start inserts or
replaces, a stop erases, and a callback erases a timer that is not cyclic.

* `timerList_refines` — between two events the list is that map; what is in it has been
  started since it was last stopped, what has left it has been stopped
* `running_listed` — a timer that is started and not stopped is in the list unless a
  timer with id 0 was started: `AddTimer` refuses it, and `StartTimer` starts it all the same

While the worker waits in a join its event is half done.  `target` is the map that the list
will be.

## Design notes

**The abstract map** is `reference`, a function of the events that the worker has taken up, as
`RecordedRun` lists them; it has one line for each kind of event.

**Calls.**  What is running is read off the calls of `Timer::Start` and `Timer::Stop` in the
record.  `ListIsMap` and `Kept` tie them to the timers: a timer whose last call was a start is
the one that the map has, or it was refused.
-/

namespace NewCPP.TimerFramework

namespace Worker

/-! ## The map -/

/-- What an event does to the map of timers. -/
def refStep (timers : ℕ → Option Timer) : Event → ℕ → Option Timer
  | .timerStart timer => Function.update timers timer.id (some timer)
  | .timerStop id => Function.update timers id none
  | .timerCallback id _ =>
      match timers id with
      | none => timers
      | some timer => if timer.cyclic then timers else Function.update timers id none
  | .message => timers

/-- The map after these events. -/
def reference (events : List Event) : ℕ → Option Timer :=
  events.foldl refStep fun _ => none

/-- What is left to do to the map when a timer has been stopped. -/
def finish (timers : ℕ → Option Timer) : AfterStop → ℕ → Option Timer
  | .remove id => Function.update timers id none
  | .replace new => Function.update timers new.id (some new)
  | .restart => timers

/-- The map that the list will be when the event in progress is done. -/
def target (w : Worker) : ℕ → Option Timer :=
  match w.place with
  | .idle => w.getTimer
  | .joining _ next => finish w.getTimer next
  | .starting new => Function.update w.getTimer new.id (some new)

theorem UniqueIds.getTimer_of_mem {w : Worker} (h : w.UniqueIds) {timer : Timer}
    (hmem : timer ∈ w.timerList) : w.getTimer timer.id = some timer := by
  cases hfind : w.getTimer timer.id with
  | none => exact absurd rfl (getTimer_eq_none.mp hfind timer hmem)
  | some other =>
      obtain ⟨hother, hid⟩ := of_getTimer hfind
      rw [List.inj_on_of_nodup_map h hother hmem hid]

theorem UniqueIds.getTimer_removeTimer {w : Worker} (h : w.UniqueIds) (id : ℕ) :
    (w.removeTimer id).getTimer = Function.update w.getTimer id none := by
  funext other
  by_cases hother : other = id
  · subst hother
    rw [Function.update_self]
    exact getTimer_eq_none.mpr (h.listed_removeTimer other)
  · rw [Function.update_of_ne hother]
    cases hfind : w.getTimer other with
    | none =>
        refine getTimer_eq_none.mpr fun timer hmem => ?_
        exact getTimer_eq_none.mp hfind timer (List.mem_of_mem_eraseP hmem)
    | some timer =>
        obtain ⟨hmem, rfl⟩ := of_getTimer hfind
        exact (h.removeTimer id).getTimer_of_mem (mem_removeTimer_of_ne hmem hother)

/-- A timer that `AddTimer` does not refuse. -/
theorem addTimer_of_absent {w : Worker} {new : Timer} (hid : new.id ≠ 0)
    (habsent : w.getTimer new.id = none) :
    w.addTimer new = { w with timerList := w.timerList ++ [new] } := by
  rw [addTimer, if_pos ⟨hid, by rw [habsent]; rfl⟩]

theorem getTimer_addTimer {w : Worker} {new : Timer} (hid : new.id ≠ 0)
    (habsent : w.getTimer new.id = none) :
    (w.addTimer new).getTimer = Function.update w.getTimer new.id (some new) := by
  rw [addTimer_of_absent hid habsent]
  funext other
  rw [getTimer, List.find?_append]
  by_cases hother : other = new.id
  · subst hother
    have habsent' : w.timerList.find? (fun timer => timer.id = new.id) = none := habsent
    rw [Function.update_self, habsent', Option.none_or, List.find?_singleton]
    simp
  · rw [Function.update_of_ne hother, List.find?_singleton,
      if_neg (by simpa using fun h => hother h.symm), Option.or_none]
    rfl

/-! ## The invariant -/

/-- The worker has taken the timer up and not yet called `Start` on it. -/
def AboutToStart (w : Worker) (timer : Timer) : Prop :=
  w.place = .starting timer ∨ ∃ old, w.place = .joining old (.replace timer)

theorem not_aboutToStart {w : Worker} (hidle : w.place = .idle) (timer : Timer) :
    ¬w.AboutToStart timer := by
  rintro (hplace | ⟨_, hplace⟩)
  · rw [hidle] at hplace
    cases hplace
  · rw [hidle] at hplace
    cases hplace

theorem aboutToStart_starting {w : Worker} {new : Timer} (hplace : w.place = .starting new)
    (timer : Timer) : w.AboutToStart timer ↔ new = timer := by
  rw [AboutToStart, hplace, Place.starting.injEq, or_iff_left]
  rintro ⟨_, hplace⟩
  cases hplace

theorem aboutToStart_joining {w : Worker} {old : Timer} {next : AfterStop}
    (hplace : w.place = .joining old next) (timer : Timer) :
    w.AboutToStart timer ↔ next = .replace timer := by
  rw [AboutToStart, hplace, or_iff_right fun h => by cases h]
  constructor
  · rintro ⟨_, hplace⟩
    cases hplace
    rfl
  · rintro rfl
    exact ⟨old, rfl⟩

/-- No `TIMERSTART` among the events carries the id 0. -/
def NonzeroIds (events : List Event) : Prop :=
  ∀ timer, .timerStart timer ∈ events → timer.id ≠ 0

/-- **The invariant** of recorded runs. -/
structure Kept (events : List Event) (calls : List TimerCall) (w : Worker) : Prop where
  unique : w.UniqueIds
  ids : ∀ timer ∈ w.timerList, timer.id ≠ 0
  arrived : ∀ timer ∈ w.timerList, .timerStart timer ∈ events
  joining : ∀ timer next, w.place = .joining timer next → w.Stops timer next
  starting : ∀ new, w.place = .starting new → w.getTimer new.id = none
  begun : ∀ timer, .timerStart timer ∈ events ↔ .start timer ∈ calls ∨ w.AboutToStart timer
  stopped : ∀ timer, .stop timer ∈ calls → timer.id ≠ 0
  started : ∀ timer, timer.id ≠ 0 →
    (Started calls timer ↔ timer ∈ w.timerList ∧ ∀ next, w.place ≠ .joining timer next)
  running : ∀ timer, (w.timers timer).isRunning = true ↔ Started calls timer
  refines : NonzeroIds events → w.target = reference events

theorem kept_constructed : Kept [] [] {} where
  unique := List.nodup_nil
  ids _ h := absurd h List.not_mem_nil
  arrived _ h := absurd h List.not_mem_nil
  joining _ _ h := by cases h
  starting _ h := by cases h
  begun timer := by
    refine ⟨fun h => absurd h List.not_mem_nil, ?_⟩
    rintro (h | h | ⟨_, h⟩)
    · exact absurd h List.not_mem_nil
    · cases h
    · cases h
  stopped _ h := absurd h List.not_mem_nil
  started timer _ := ⟨fun h => absurd h (not_started_nil timer),
    fun h => absurd h.1 List.not_mem_nil⟩
  running timer := ⟨fun h => absurd h Bool.false_ne_true,
    fun h => absurd h (not_started_nil timer)⟩
  refines _ := rfl

theorem target_congr {w w' : Worker} (hlist : w'.timerList = w.timerList)
    (hplace : w'.place = w.place) : w'.target = w.target := by
  have hget : w'.getTimer = w.getTimer := by
    funext id
    rw [getTimer, getTimer, hlist]
  rw [target, target, hplace, hget]

/-- What clients and timers' threads do. -/
theorem Kept.outside {events : List Event} {calls : List TimerCall} {w w' : Worker}
    (h : Kept events calls w) (hlist : w'.timerList = w.timerList)
    (hplace : w'.place = w.place)
    (hrunning : ∀ timer, (w'.timers timer).isRunning = (w.timers timer).isRunning) :
    Kept events calls w' where
  unique := by
    rw [UniqueIds, hlist]
    exact h.unique
  ids := by
    rw [hlist]
    exact h.ids
  arrived := by
    rw [hlist]
    exact h.arrived
  joining timer next hplace' := by
    rw [hplace] at hplace'
    obtain ⟨hmem, hfor⟩ := h.joining timer next hplace'
    exact ⟨by rw [hlist]; exact hmem, hfor⟩
  starting new hplace' := by
    rw [hplace] at hplace'
    rw [getTimer, hlist]
    exact h.starting new hplace'
  begun timer := by
    rw [AboutToStart, hplace]
    exact h.begun timer
  stopped := h.stopped
  started timer hid := by
    rw [hlist, hplace]
    exact h.started timer hid
  running timer := by
    rw [hrunning]
    exact h.running timer
  refines hids := by
    rw [target_congr hlist hplace]
    exact h.refines hids

/-- An event that finds nothing to do: it is not a start, and the map stays. -/
theorem Kept.ignores {events : List Event} {calls : List TimerCall} {w : Worker}
    (h : Kept events calls w) {event : Event} (hevent : ∀ timer, event ≠ .timerStart timer)
    (hmap : w.target = reference events → refStep (reference events) event =
      reference events) :
    Kept (events ++ [event]) calls w where
  unique := h.unique
  ids := h.ids
  arrived timer hmem := List.mem_append_left _ (h.arrived timer hmem)
  joining := h.joining
  starting := h.starting
  begun timer := by
    rw [List.mem_append, List.mem_singleton, or_iff_left (fun heq => hevent timer heq.symm)]
    exact h.begun timer
  stopped := h.stopped
  started := h.started
  running := h.running
  refines hids := by
    have htarget := h.refines fun timer hmem => hids timer (List.mem_append_left _ hmem)
    rw [reference, List.foldl_append, ← reference]
    exact htarget.trans (hmap htarget).symm

/-- A start for an id that is not listed. -/
theorem Kept.beginStart {events : List Event} {calls : List TimerCall} {w : Worker}
    (h : Kept events calls w) (hidle : w.place = .idle) {new : Timer}
    (habsent : w.getTimer new.id = none) :
    Kept (events ++ [.timerStart new]) calls { w with place := .starting new } where
  unique := h.unique
  ids := h.ids
  arrived timer hmem := List.mem_append_left _ (h.arrived timer hmem)
  joining _ _ hplace := by cases hplace
  starting _ hplace := by
    cases hplace
    exact habsent
  begun timer := by
    rw [List.mem_append, List.mem_singleton, Event.timerStart.injEq, h.begun,
      or_iff_left (not_aboutToStart hidle timer), aboutToStart_starting rfl, eq_comm]
  stopped := h.stopped
  started timer hid := by
    have hstarted := h.started timer hid
    simp only [hidle, ne_eq, reduceCtorEq, not_false_eq_true, implies_true, and_true]
      at hstarted ⊢
    exact hstarted
  running := h.running
  refines hids := by
    have htarget := h.refines fun timer hmem => hids timer (List.mem_append_left _ hmem)
    rw [target, hidle] at htarget
    rw [reference, List.foldl_append, ← reference, ← htarget]
    rfl

/-- `Timer::Stop` is called, for an event that stops a listed timer. -/
theorem Kept.beginStop {events : List Event} {calls : List TimerCall} {w : Worker}
    (h : Kept events calls w) (hidle : w.place = .idle) {timer : Timer} {next : AfterStop}
    (hstops : w.Stops timer next) {event : Event}
    (hevent : ∀ new, event = .timerStart new ↔ next = .replace new)
    (hmap : refStep w.getTimer event = finish w.getTimer next) :
    Kept (events ++ [event]) (calls ++ [.stop timer])
      { w.setTimer timer (w.timers timer).stop with place := .joining timer next } where
  unique := h.unique
  ids := h.ids
  arrived other hmem := List.mem_append_left _ (h.arrived other hmem)
  joining _ _ hplace := by
    cases hplace
    exact hstops
  starting _ hplace := by cases hplace
  begun other := by
    rw [List.mem_append, List.mem_append, List.mem_singleton, List.mem_singleton, h.begun,
      or_iff_left (not_aboutToStart hidle other), aboutToStart_joining rfl, ← hevent,
      or_iff_left (show TimerCall.start other ≠ .stop timer from nofun), eq_comm]
  stopped other hmem := by
    rcases List.mem_append.mp hmem with hmem | hmem
    · exact h.stopped other hmem
    · cases List.mem_singleton.mp hmem
      exact h.ids timer hstops.1
  started other hid := by
    have hstarted := h.started other hid
    simp only [hidle, ne_eq, reduceCtorEq, not_false_eq_true, implies_true, and_true]
      at hstarted
    rw [started_stop, hstarted]
    constructor
    · rintro ⟨hne, hmem⟩
      exact ⟨hmem, fun _ hplace => hne (by cases hplace; rfl)⟩
    · rintro ⟨hmem, hplace⟩
      exact ⟨fun heq => hplace next (by rw [heq]), hmem⟩
  running other := by
    rw [started_stop, ← h.running other]
    by_cases hother : other = timer
    · subst hother
      simp [setTimer, TimerState.stop]
    · simp [setTimer, Function.update_of_ne hother, Ne.symm hother]
  refines hids := by
    have htarget := h.refines fun other hmem => hids other (List.mem_append_left _ hmem)
    rw [target, hidle] at htarget
    rw [reference, List.foldl_append, ← reference, ← htarget]
    exact hmap.symm

/-- Where ids are unique, removing the id of a listed timer removes that timer. -/
theorem UniqueIds.mem_removeTimer {w : Worker} (h : w.UniqueIds) {timer : Timer}
    (hmem : timer ∈ w.timerList) (other : Timer) :
    other ∈ (w.removeTimer timer.id).timerList ↔ other ∈ w.timerList ∧ other ≠ timer := by
  constructor
  · intro hother
    refine ⟨List.mem_of_mem_eraseP hother, ?_⟩
    rintro rfl
    exact h.listed_removeTimer other.id other hother rfl
  · rintro ⟨hother, hne⟩
    refine mem_removeTimer_of_ne hother fun hid => hne ?_
    exact List.inj_on_of_nodup_map h hother hmem hid

/-- The worker takes a stopped timer off the list. -/
theorem Kept.removed {events : List Event} {calls : List TimerCall} {w : Worker}
    (h : Kept events calls w) {timer : Timer} {next : AfterStop}
    (hjoining : w.place = .joining timer next) {place : Place}
    (hplace : ∀ other next, place ≠ .joining other next)
    (habout : ∀ other, ({ w with place := place } : Worker).AboutToStart other ↔
      next = .replace other)
    (hstarting : ∀ new, place = .starting new → new.id = timer.id)
    (htarget : w.target =
      ({ w.removeTimer timer.id with place := place } : Worker).target) :
    Kept events calls { w.removeTimer timer.id with place := place } where
  unique := h.unique.removeTimer timer.id
  ids other hmem := h.ids other (List.mem_of_mem_eraseP hmem)
  arrived other hmem := h.arrived other (List.mem_of_mem_eraseP hmem)
  joining other next hplace' := absurd hplace' (hplace other next)
  starting new hplace' := by
    rw [hstarting new hplace']
    exact getTimer_eq_none.mpr (h.unique.listed_removeTimer timer.id)
  begun other := by
    rw [h.begun, aboutToStart_joining hjoining, ← habout]
    rfl
  stopped := h.stopped
  started other hid := by
    have hmem := h.unique.mem_removeTimer (h.joining timer next hjoining).1 other
    rw [h.started other hid, hjoining]
    refine Iff.trans ?_ (and_congr_left' hmem.symm)
    simp only [ne_eq, Place.joining.injEq, not_and]
    constructor
    · rintro ⟨hother, hne⟩
      exact ⟨⟨hother, fun heq => hne next heq.symm rfl⟩, fun next => hplace other next⟩
    · rintro ⟨⟨hother, hne⟩, -⟩
      exact ⟨hother, fun _ heq => absurd heq.symm hne⟩
  running := h.running
  refines hids := by
    rw [← htarget]
    exact h.refines hids

theorem stop_mem_append_start {calls : List TimerCall} {other new : Timer} :
    .stop other ∈ calls ++ [.start new] ↔ .stop other ∈ calls := by
  rw [List.mem_append, List.mem_singleton, or_iff_left]
  rintro ⟨⟩

/-- A timer that is started runs. -/
theorem running_start {calls : List TimerCall} {timers : Timer → TimerState}
    (h : ∀ other, (timers other).isRunning = true ↔ Started calls other)
    (timer other : Timer) :
    (Function.update timers timer (timers timer).start other).isRunning = true ↔
      Started (calls ++ [.start timer]) other := by
  rw [started_start, ← h other]
  by_cases hother : other = timer
  · subst hother
    rw [Function.update_self, TimerState.isRunning_start]
    exact ⟨fun _ => Or.inl rfl, fun _ => rfl⟩
  · rw [Function.update_of_ne hother, or_iff_right fun heq => hother heq.symm]

/-- What follows the join. -/
theorem Kept.afterStop {events : List Event} {calls : List TimerCall} {w : Worker}
    (h : Kept events calls w) {timer : Timer} {next : AfterStop}
    (hjoining : w.place = .joining timer next) :
    Kept events (calls ++ afterStopCalls timer next) (w.afterStop timer next) := by
  obtain ⟨hmem, hfor⟩ := h.joining timer next hjoining
  have hget := h.unique.getTimer_removeTimer timer.id
  cases next with
  | remove id =>
      have hid : id = timer.id := hfor
      subst hid
      rw [afterStopCalls, List.append_nil]
      refine h.removed hjoining (fun _ _ h => by cases h) (fun other => ?_)
        (fun _ h => by cases h) ?_
      · exact ⟨fun habout => absurd habout (not_aboutToStart rfl other), fun h => by cases h⟩
      · rw [target, hjoining]
        exact hget.symm
  | replace new =>
      have hid : new.id = timer.id := hfor
      rw [afterStopCalls, List.append_nil, Worker.afterStop, hid]
      refine h.removed hjoining (fun _ _ h => by cases h) (fun other => ?_) ?_ ?_
      · rw [aboutToStart_starting rfl, AfterStop.replace.injEq]
      · rintro _ ⟨⟩
        exact hid
      · rw [target, hjoining]
        change Function.update w.getTimer new.id (some new) =
          Function.update (w.removeTimer timer.id).getTimer new.id (some new)
        rw [hget, hid, Function.update_idem]
  | restart =>
      have hrestart (other : Timer) : AfterStop.restart ≠ .replace other := by
        rintro ⟨⟩
      refine ⟨h.unique, h.ids, h.arrived, fun _ _ h => (by cases h), fun _ h => (by cases h),
        fun other => ?_, fun other hstop => ?_, fun other hid => ?_, fun other => ?_,
        fun hids => ?_⟩
      · rw [h.begun, aboutToStart_joining hjoining, or_iff_left (hrestart other),
          or_iff_left (not_aboutToStart rfl other), afterStopCalls, List.mem_append,
          List.mem_singleton, TimerCall.start.injEq, iff_self_or]
        rintro rfl
        have hbegun := (h.begun other).mp (h.arrived other hmem)
        rwa [aboutToStart_joining hjoining, or_iff_left (hrestart other)] at hbegun
      · exact h.stopped other (stop_mem_append_start.mp hstop)
      · rw [afterStopCalls, started_start, h.started other hid, hjoining]
        simp only [ne_eq, Place.joining.injEq, not_and]
        constructor
        · rintro (rfl | ⟨hother, -⟩)
          · exact ⟨hmem, fun _ h => by cases h⟩
          · exact ⟨hother, fun _ h => by cases h⟩
        · rintro ⟨hother, -⟩
          by_cases heq : timer = other
          · exact Or.inl heq
          · exact Or.inr ⟨hother, fun _ heq' => absurd heq' heq⟩
      · exact running_start h.running timer other
      · have htarget := h.refines hids
        rw [target, hjoining] at htarget
        exact htarget

/-- The rest of a start, with a timer that `AddTimer` may refuse. -/
theorem Kept.addAndStart {events : List Event} {calls : List TimerCall} {w : Worker}
    (h : Kept events calls w) {new : Timer} (hplace : w.place = .starting new) :
    Kept events (calls ++ [.start new]) (w.addAndStart new) := by
  have habsent := h.starting new hplace
  have hmem (other : Timer) : other ∈ (w.addAndStart new).timerList ↔
      other ∈ w.timerList ∨ (new.id ≠ 0 ∧ other = new) := by
    change other ∈ (w.addTimer new).timerList ↔ _
    by_cases hid : new.id = 0
    · rw [addTimer, if_neg (fun hadds => hadds.1 hid), or_iff_left (fun hadds => hadds.1 hid)]
    · rw [addTimer_of_absent hid habsent, List.mem_append, List.mem_singleton,
        and_iff_right hid]
  have harrived : .timerStart new ∈ events :=
    (h.begun new).mpr (Or.inr ((aboutToStart_starting hplace new).mpr rfl))
  refine ⟨h.unique.addTimer new, fun other hother => ?_, fun other hother => ?_,
    fun _ _ h => (by cases h), fun _ h => (by cases h), fun other => ?_,
    fun other hstop => ?_, fun other hid => ?_, fun other => ?_, fun hids => ?_⟩
  · rcases (hmem other).mp hother with hother | ⟨hid, rfl⟩
    · exact h.ids other hother
    · exact hid
  · rcases (hmem other).mp hother with hother | ⟨-, rfl⟩
    · exact h.arrived other hother
    · exact harrived
  · rw [h.begun, aboutToStart_starting hplace, or_iff_left (not_aboutToStart rfl other),
      List.mem_append, List.mem_singleton, TimerCall.start.injEq, eq_comm]
  · exact h.stopped other (stop_mem_append_start.mp hstop)
  · rw [started_start, h.started other hid, hplace, hmem]
    constructor
    · rintro (rfl | ⟨hother, -⟩)
      · exact ⟨Or.inr ⟨hid, rfl⟩, fun _ h => by cases h⟩
      · exact ⟨Or.inl hother, fun _ h => by cases h⟩
    · rintro ⟨hother | ⟨-, rfl⟩, -⟩
      · exact Or.inr ⟨hother, fun _ h => by cases h⟩
      · exact Or.inl rfl
  · have htimers : (w.addTimer new).timers = w.timers := by
      rw [addTimer]
      split
      · rfl
      · rfl
    show (Function.update (w.addTimer new).timers new
      ((w.addTimer new).timers new).start other).isRunning = true ↔ _
    rw [htimers]
    exact running_start h.running new other
  · have htarget := h.refines hids
    rw [target, hplace] at htarget
    rw [← htarget]
    exact getTimer_addTimer (hids new harrived) habsent

/-- `Timer::Stop`, with or without a join. -/
theorem Kept.stop {events : List Event} {calls : List TimerCall} {w : Worker}
    (h : Kept events calls w) (hidle : w.place = .idle) {timer : Timer} {next : AfterStop}
    (hstops : w.Stops timer next) {event : Event}
    (hevent : ∀ new, event = .timerStart new ↔ next = .replace new)
    (hmap : refStep w.getTimer event = finish w.getTimer next) :
    Kept (events ++ [event]) (calls ++ w.stopCalls timer next) (w.stop timer next) := by
  have hbegun := h.beginStop hidle hstops hevent hmap
  have hthread : ((w.setTimer timer (w.timers timer).stop).timers timer).thread =
      (w.timers timer).thread := by
    rw [setTimer]
    dsimp only
    rw [Function.update_self, TimerState.stop]
  rw [stopCalls, Worker.stop, hthread]
  cases (w.timers timer).thread with
  | none =>
      have hafter := hbegun.afterStop rfl
      rw [List.append_assoc] at hafter
      dsimp only
      cases next with
      | remove id => exact hafter
      | replace new => exact hafter
      | restart => exact hafter
  | some phase => exact hbegun

/-- Between two events the list is the map so far. -/
theorem getTimer_eq_reference {events : List Event} {w : Worker} (hidle : w.place = .idle)
    (hrefines : w.target = reference events) : w.getTimer = reference events := by
  rw [← hrefines, target, hidle]

theorem Kept.startTimer {events : List Event} {calls : List TimerCall} {w : Worker}
    (h : Kept events calls w) (hidle : w.place = .idle) (new : Timer) :
    Kept (events ++ [.timerStart new]) (calls ++ w.dispatchCalls (.timerStart new))
      (w.startTimer new) := by
  rw [dispatchCalls, Worker.startTimer]
  cases hfind : w.getTimer new.id with
  | none =>
      dsimp only
      rw [List.append_nil]
      exact h.beginStart hidle hfind
  | some timer =>
      obtain ⟨hmem, hid⟩ := of_getTimer hfind
      have hstops : w.Stops timer (.replace new) := ⟨hmem, hid.symm⟩
      refine h.stop hidle hstops (fun other => ?_) rfl
      rw [Event.timerStart.injEq, AfterStop.replace.injEq]

/-- An event for a timer that is not in the list. -/
theorem Kept.absent {events : List Event} {calls : List TimerCall} {w : Worker}
    (h : Kept events calls w) (hidle : w.place = .idle) {id : ℕ} (hfind : w.getTimer id = none)
    {event : Event} (hevent : ∀ timer, event ≠ .timerStart timer)
    (hmap : reference events id = none → refStep (reference events) event = reference events) :
    Kept (events ++ [event]) calls w := by
  refine h.ignores hevent fun hrefines => hmap ?_
  rwa [getTimer_eq_reference hidle hrefines] at hfind

theorem Kept.stopTimer {events : List Event} {calls : List TimerCall} {w : Worker}
    (h : Kept events calls w) (hidle : w.place = .idle) (id : ℕ) :
    Kept (events ++ [.timerStop id]) (calls ++ w.dispatchCalls (.timerStop id))
      (w.stopTimer id) := by
  rw [dispatchCalls, Worker.stopTimer]
  cases hfind : w.getTimer id with
  | none =>
      dsimp only
      rw [List.append_nil]
      refine h.absent hidle hfind (fun _ h => by cases h) fun hnone => ?_
      rw [refStep, ← hnone, Function.update_eq_self]
  | some timer =>
      obtain ⟨hmem, hid⟩ := of_getTimer hfind
      have hstops : w.Stops timer (.remove id) := ⟨hmem, hid.symm⟩
      exact h.stop hidle hstops (fun _ => iff_of_false (by rintro ⟨⟩) (by rintro ⟨⟩)) rfl

theorem Kept.handleCallback {events : List Event} {calls : List TimerCall} {w : Worker}
    (h : Kept events calls w) (hidle : w.place = .idle) (id : ℕ) (elapsed : Timer) :
    Kept (events ++ [.timerCallback id elapsed])
      (calls ++ w.dispatchCalls (.timerCallback id elapsed)) (w.handleCallback id elapsed) := by
  rw [dispatchCalls, Worker.handleCallback]
  cases hfind : w.getTimer id with
  | none =>
      dsimp only
      rw [List.append_nil]
      refine h.absent hidle hfind (fun _ h => by cases h) fun hnone => ?_
      rw [refStep, hnone]
  | some timer =>
      obtain ⟨hmem, hid⟩ := of_getTimer hfind
      -- the invocation leaves the timers alone
      have hcalled : Kept events calls
          { w with invoked := w.invoked ++ [{ timer := timer, elapsed := elapsed }] } :=
        h.outside rfl rfl fun _ => rfl
      have hmap : refStep w.getTimer (.timerCallback id elapsed) =
          finish w.getTimer (if timer.cyclic then .restart else .remove id) := by
        rw [refStep, hfind]
        dsimp only
        split
        · rfl
        · rfl
      dsimp only
      cases hcyclic : timer.cyclic with
      | true =>
          rw [hcyclic, if_pos rfl] at hmap
          rw [if_pos rfl, if_pos rfl]
          have hstops : w.Stops timer .restart := ⟨hmem, trivial⟩
          exact hcalled.stop hidle hstops
            (fun _ => iff_of_false (by rintro ⟨⟩) (by rintro ⟨⟩)) hmap
      | false =>
          rw [hcyclic, if_neg Bool.false_ne_true] at hmap
          rw [if_neg Bool.false_ne_true, if_neg Bool.false_ne_true, Worker.stopTimer]
          have hagain : ({ w with
              invoked := w.invoked ++ [{ timer := timer, elapsed := elapsed }] } :
                Worker).getTimer id = some timer := hfind
          have hstops : w.Stops timer (.remove id) := ⟨hmem, hid.symm⟩
          rw [hagain]
          exact hcalled.stop hidle hstops
            (fun _ => iff_of_false (by rintro ⟨⟩) (by rintro ⟨⟩)) hmap

/-- **The worker takes up an event.** -/
theorem Kept.dispatch {events : List Event} {calls : List TimerCall} {w : Worker}
    (h : Kept events calls w) (hidle : w.place = .idle) (event : Event) :
    Kept (events ++ [event]) (calls ++ w.dispatchCalls event) (w.dispatch event) := by
  cases event with
  | timerStart new => exact h.startTimer hidle new
  | timerStop id => exact h.stopTimer hidle id
  | timerCallback id elapsed => exact h.handleCallback hidle id elapsed
  | message =>
      rw [dispatchCalls, List.append_nil]
      exact h.ignores (fun _ h => by cases h) fun _ => rfl

theorem Kept.logged {events events' : List Event} {calls calls' : List TimerCall}
    {w w' : Worker} (h : Kept events calls w) (hlast : Logged w w' events' calls') :
    Kept (events ++ events') (calls ++ calls') w' := by
  cases hlast with
  | outside list place running =>
      rw [List.append_nil, List.append_nil]
      exact h.outside list place running
  | dispatch event rest idle front =>
      have hpopped : Kept events calls { w with queue := rest } :=
        h.outside rfl rfl fun _ => rfl
      exact hpopped.dispatch idle event
  | join timer next place exited =>
      rw [List.append_nil]
      have hjoined : Kept events calls
          (w.setTimer timer { w.timers timer with thread := none }) :=
        h.outside rfl rfl (isRunning_setTimer w rfl)
      exact hjoined.afterStop place
  | start new place =>
      rw [List.append_nil]
      exact h.addAndStart place

theorem Recorded.kept {events : List Event} {calls : List TimerCall} {w : Worker}
    (h : Recorded events calls w) : Kept events calls w := by
  induction h with
  | constructed => exact kept_constructed
  | step _ hlast ih => exact ih.logged hlast

/-! ## The list is a map -/

/-- What the list is, after these events and calls. -/
structure ListIsMap (events : List Event) (calls : List TimerCall) (w : Worker) : Prop where
  /-- No two timers have one id, also in the middle of an event. -/
  unique : w.UniqueIds
  /-- A timer that has left the list has been stopped, and not started since; it does not run. -/
  left : ∀ timer, .start timer ∈ calls → timer ∉ w.timerList →
    .stop timer ∈ calls ∧ ¬Started calls timer ∧ (w.timers timer).isRunning = false
  /-- Between two events the list is the map. -/
  map : w.place = .idle → w.getTimer = reference events
  /-- Every timer in it has been started after it was last stopped, and runs. -/
  listed : w.place = .idle → ∀ timer ∈ w.timerList,
    Started calls timer ∧ (w.timers timer).isRunning = true
  /-- And every timer that arrived has been started. -/
  arrived : w.place = .idle → ∀ timer, .timerStart timer ∈ events → .start timer ∈ calls

/-- **The timer list refines a finite map**, over every run whose starts have ids other than
0: starts, stops and callbacks in any order, with any reuse of ids and of timers. -/
theorem timerList_refines {events : List Event} {calls : List TimerCall} {w : Worker}
    (h : Recorded events calls w) (hids : NonzeroIds events) : ListIsMap events calls w := by
  have hkept := h.kept
  have hid (timer : Timer) (hstart : .start timer ∈ calls) : timer.id ≠ 0 :=
    hids timer ((hkept.begun timer).mpr (Or.inl hstart))
  refine ⟨hkept.unique, fun timer hstart hgone => ?_, fun hidle => ?_,
    fun hidle timer hmem => ?_, fun hidle timer hevent => ?_⟩
  · have hnot : ¬Started calls timer := fun hstarted =>
      hgone ((hkept.started timer (hid timer hstart)).mp hstarted).1
    refine ⟨(started_or_stopped calls hstart).resolve_left hnot, hnot, ?_⟩
    rw [← Bool.not_eq_true, hkept.running]
    exact hnot
  · have htarget := hkept.refines hids
    rwa [target, hidle] at htarget
  · have hstarted : Started calls timer := by
      refine (hkept.started timer (hkept.ids timer hmem)).mpr ⟨hmem, fun next hplace => ?_⟩
      rw [hidle] at hplace
      cases hplace
    exact ⟨hstarted, (hkept.running timer).mpr hstarted⟩
  · exact ((hkept.begun timer).mp hevent).resolve_right (not_aboutToStart hidle timer)

/-- Timer 0 was started, and the worker waits for its thread, which sleeps. -/
def joiningAsleep : Worker :=
  ({ armed.stopTimerEntry 1 with queue := [] } : Worker).dispatch (.timerStop 1)

/-- The thread has found `_abortMutex` unlocked. -/
def joinedAsleep : Worker :=
  joiningAsleep.setTimer (oneShot 0)
    { joiningAsleep.timers (oneShot 0) with thread := some .exited, abortLocked := true }

/-- The same timer once its thread is gone and it has left the list. -/
def stoppedAsleep : Worker :=
  (joinedAsleep.setTimer (oneShot 0)
    { joinedAsleep.timers (oneShot 0) with thread := none }).afterStop (oneShot 0) (.remove 1)

theorem armed_recorded :
    Recorded [.timerStart (oneShot 0)] [.start (oneShot 0)] armed := by
  have hsend : Logged {} (({} : Worker).startTimerEntry 1 false) [] [] :=
    .outside rfl rfl fun _ => rfl
  exact ((Recorded.constructed.step hsend).step
    (.dispatch (.timerStart (oneShot 0)) [] rfl rfl)).step (.start (oneShot 0) rfl)

theorem stoppedAsleep_isMap :
    ListIsMap [.timerStart (oneShot 0), .timerStop 1] [.start (oneShot 0), .stop (oneShot 0)]
      stoppedAsleep := by
  have hsend : Logged armed (armed.stopTimerEntry 1) [] [] := .outside rfl rfl fun _ => rfl
  have hdispatch : Logged (armed.stopTimerEntry 1) joiningAsleep [.timerStop 1]
      [.stop (oneShot 0)] := .dispatch (.timerStop 1) [] rfl rfl
  have habort : Logged joiningAsleep joinedAsleep [] [] :=
    .outside rfl rfl (isRunning_setTimer _ rfl)
  have hjoin : Logged joinedAsleep stoppedAsleep [] [] :=
    .join (oneShot 0) (.remove 1) rfl rfl
  have hrun : Recorded [.timerStart (oneShot 0), .timerStop 1]
      [.start (oneShot 0), .stop (oneShot 0)] stoppedAsleep :=
    (((armed_recorded.step hsend).step hdispatch).step habort).step hjoin
  refine timerList_refines hrun fun timer hmem => ?_
  rcases List.mem_pair.mp hmem with heq | heq
  · cases heq
    exact Nat.one_ne_zero
  · cases heq

/-! ## Timers that escape -/

/-- Every timer that was started and not stopped since is in the list, where a stop of its
id finds it. -/
def NoneEscapes (calls : List TimerCall) (w : Worker) : Prop :=
  ∀ timer, Started calls timer → timer ∈ w.timerList ∧ w.getTimer timer.id = some timer

/-- **When no running timer escapes**: as long as no start carries the id 0, in every state
of the run; and where the worker is between two events, only then. -/
theorem running_listed {events : List Event} {calls : List TimerCall} {w : Worker}
    (h : Recorded events calls w) :
    (NonzeroIds events → NoneEscapes calls w) ∧
      (w.place = .idle → NoneEscapes calls w → NonzeroIds events) := by
  have hkept := h.kept
  refine ⟨fun hids timer hstarted => ?_, fun hidle hnone timer hevent hid => ?_⟩
  · have hid := hids timer ((hkept.begun timer).mpr (Or.inl hstarted.mem))
    have hmem := ((hkept.started timer hid).mp hstarted).1
    exact ⟨hmem, hkept.unique.getTimer_of_mem hmem⟩
  · -- the timer with id 0 has been started, and nothing stops it
    have hstart := ((hkept.begun timer).mp hevent).resolve_right (not_aboutToStart hidle timer)
    have hstarted := (started_or_stopped calls hstart).resolve_right
      fun hstop => hkept.stopped timer hstop hid
    exact hkept.ids timer (hnone timer hstarted).1 hid

/-- A timer with id 0. -/
def nullTimer : Timer := { object := 0, id := 0, cyclic := false }

/-- It has been taken up by the worker. -/
def escaped : Worker :=
  (({ ({} : Worker).startTimerEntry 0 false with queue := [] } : Worker).dispatch
    (.timerStart nullTimer)).addAndStart nullTimer

theorem escaped_recorded : Recorded [.timerStart nullTimer] [.start nullTimer] escaped := by
  have hsend : Logged {} (({} : Worker).startTimerEntry 0 false) [] [] :=
    .outside rfl rfl fun _ => rfl
  exact ((Recorded.constructed.step hsend).step
    (.dispatch (.timerStart nullTimer) [] rfl rfl)).step (.start nullTimer rfl)

theorem armed_running_listed :
    (NonzeroIds [.timerStart (oneShot 0)] → NoneEscapes [.start (oneShot 0)] armed) ∧
      (armed.place = .idle → NoneEscapes [.start (oneShot 0)] armed →
        NonzeroIds [.timerStart (oneShot 0)]) :=
  running_listed armed_recorded

/-- The timer with id 0 runs and is not in the list. -/
theorem not_noneEscapes :
    ¬∀ (events : List Event) (calls : List TimerCall) (w : Worker),
      Recorded events calls w → NoneEscapes calls w := by
  intro h
  have hstarted : Started [.start nullTimer] nullTimer := ⟨[], [], rfl, List.not_mem_nil⟩
  exact absurd (h _ _ _ escaped_recorded nullTimer hstarted).1 List.not_mem_nil

end Worker

end NewCPP.TimerFramework
