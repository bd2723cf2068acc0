import NewCPP.Deployment.FolderMonitor
import Mathlib.Data.List.Induction

/-!
# Handing files over

What a monitor has done, as a log of the events that it has parsed and of the calls of the
consumer, and what its list of files says about that log.

* `Follows` — the list of files as a function of the log, as an invariant.
* `mem_process_iff` — which files `process` hands over.
* `handed_over_once` — a file is handed over at most once for each creation, not after it
  is deleted, and only when nothing has touched it for the timeout.
* `one_entry_iff` — in which runs the list of files has one entry for each path.

## Design notes

**Steps.**  A round of the loop of `parseEvents` is a step, so that a path that has two
entries within one call counts as well.  `FolderWatch.monitor_run` takes a call apart.

**The log.**  The latest entry is in front.
-/

namespace NewCPP.Deployment

/-! ## Runs of the monitor -/

/-- What the log of a monitor says. -/
inductive LogEntry where
  | event (time : ℕ) (event : InotifyEvent)
  /-- A call of the consumer, with the timeout that was set. -/
  | call (time : ℕ) (path : List Char) (fileReadyTimeout : ℤ)
  deriving DecidableEq

/-- The calls of one `process`, the latest in front. -/
def calls (time : ℕ) (timeout : ℤ) (paths : List (List Char)) : List LogEntry :=
  paths.map fun path => .call time path timeout

/-- What the monitor sees: single events, and calls of its owner. -/
inductive MonitorStep where
  | event (event : InotifyEvent)
  | process
  | wait (time : ℕ)
  | setFileReadyTimeout (timeout : ℤ)
  deriving DecidableEq

/-- A monitor with its clock and the log, the last entry first. -/
structure MonitorRun where
  clock : ℕ := 0
  monitor : FolderMonitor
  log : List LogEntry := []

namespace MonitorRun

/-- What a step does, and what the log says of it. -/
def perform (run : MonitorRun) : MonitorStep → MonitorRun
  | .event event =>
      { run with
        monitor := run.monitor.handleEvent run.clock event
        log := .event run.clock event :: run.log }
  | .process =>
      let processed := run.monitor.process run.clock
      { run with
        monitor := processed.2
        log := calls run.clock run.monitor.fileReadyTimeout processed.1.reverse ++ run.log }
  | .wait time => { run with clock := run.clock + time }
  | .setFileReadyTimeout timeout =>
      { run with monitor := { run.monitor with fileReadyTimeout := timeout } }

/-- What a list of steps does. -/
def run (start : MonitorRun) (steps : List MonitorStep) : MonitorRun :=
  steps.foldl perform start

/-- A new monitor. -/
def start (descriptor : ℕ) : MonitorRun :=
  { monitor := FolderMonitor.create descriptor }

@[simp] theorem run_nil (start : MonitorRun) : start.run [] = start := rfl

@[simp] theorem run_cons (start : MonitorRun) (step : MonitorStep) (steps : List MonitorStep) :
    start.run (step :: steps) = (start.perform step).run steps := rfl

theorem run_append (start : MonitorRun) (first second : List MonitorStep) :
    start.run (first ++ second) = (start.run first).run second :=
  List.foldl_append

end MonitorRun

namespace FolderWatch

/-- The steps of the monitor in an action at its folder. -/
def steps (watch : FolderWatch) : WatchAction → List MonitorStep
  | .arrive _ => []
  | .wait time => [.wait time]
  | .setFileReadyTimeout timeout => [.setFileReadyTimeout timeout]
  | .handleIncommingEvents => (watch.monitor.incoming watch.pending).1.map .event
  | .process => [.process]

/-- Single events are what one read of all of them is. -/
theorem run_events (clock : ℕ) (monitor : FolderMonitor) (log : List LogEntry)
    (events : List InotifyEvent) :
    ∃ later, (⟨clock, monitor, log⟩ : MonitorRun).run (events.map .event) =
      ⟨clock, monitor.parseEvents clock events, later⟩ := by
  induction events generalizing monitor log with
  | nil => exact ⟨log, rfl⟩
  | cons event events ih => exact ih _ _

/-- Every action is a run of the monitor. -/
theorem monitor_perform (watch : FolderWatch) (log : List LogEntry) (action : WatchAction) :
    ∃ later, (⟨watch.clock, watch.monitor, log⟩ : MonitorRun).run (watch.steps action) =
      ⟨(watch.perform action).clock, (watch.perform action).monitor, later⟩ := by
  cases action with
  | arrive event => exact ⟨log, rfl⟩
  | wait time => exact ⟨log, rfl⟩
  | setFileReadyTimeout timeout => exact ⟨log, rfl⟩
  | handleIncommingEvents => exact run_events watch.clock watch.monitor log _
  | process => exact ⟨_, rfl⟩

/-- Every run of a folder is a run of its monitor. -/
theorem monitor_run (watch : FolderWatch) (log : List LogEntry)
    (schedule : List WatchAction) : ∃ steps later,
      (⟨watch.clock, watch.monitor, log⟩ : MonitorRun).run steps =
        ⟨(watch.run schedule).clock, (watch.run schedule).monitor, later⟩ := by
  induction schedule generalizing watch log with
  | nil => exact ⟨[], log, rfl⟩
  | cons action schedule ih =>
      obtain ⟨middle, hmiddle⟩ := watch.monitor_perform log action
      obtain ⟨steps, later, hlater⟩ := ih (watch.perform action) middle
      refine ⟨watch.steps action ++ steps, later, ?_⟩
      rw [MonitorRun.run_append, hmiddle, hlater, run_cons]

end FolderWatch

/-! ## What the log says of a path -/

/-- The events of a log, the last one first. -/
def events : List LogEntry → List InotifyEvent
  | [] => []
  | .event _ event :: log => event :: events log
  | .call _ _ _ :: log => events log

/-- The time of the latest event of the path.  That a watch is gone is an event of none. -/
def lastTouched (path : List Char) : List LogEntry → Option ℕ
  | [] => none
  | .event time event :: log =>
      if event.name = path ∧ event.mask ≠ .inIgnored then some time else lastTouched path log
  | .call _ _ _ :: log => lastTouched path log

/-- The consumer has been called for the path since it was created. -/
def handedOver (path : List Char) : List LogEntry → Bool
  | [] => false
  | .event _ event :: log =>
      if event.name = path ∧ event.mask = .inCreate then false else handedOver path log
  | .call _ called _ :: log => called = path || handedOver path log

/-- The path is to be handed over: it has been created and not deleted, has not been handed
over since, is not in use, and nothing has touched it for more than the timeout. -/
structure Due (log : List LogEntry) (path : List Char) (now : ℕ) (timeout : ℤ) : Prop where
  present : inFolder path (events log) = true
  fresh : handedOver path log = false
  closed : lastOpened path (events log) = false
  quiet : ∃ touched, lastTouched path log = some touched ∧ touched ≤ now ∧
    timeout < ((now - touched) / 1000000 : ℕ)

/-- Every call was for a path that was due. -/
def AllDue : List LogEntry → Prop
  | [] => True
  | .event _ _ :: log => AllDue log
  | .call now path timeout :: log => Due log path now timeout ∧ AllDue log

/-- The calls of the consumer for the path. -/
def callsFor (path : List Char) : List LogEntry → ℕ
  | [] => 0
  | .event _ _ :: log => callsFor path log
  | .call _ called _ :: log => callsFor path log + if called = path then 1 else 0

/-- Nothing creates the path. -/
def NotCreated (path : List Char) (log : List LogEntry) : Prop :=
  ∀ event ∈ events log, event.mask = .inCreate → event.name ≠ path

section Calls

variable (time : ℕ) (timeout : ℤ) (paths : List (List Char)) (log : List LogEntry)

/-- Calls are no events. -/
theorem events_calls : events (calls time timeout paths ++ log) = events log := by
  induction paths with
  | nil => rfl
  | cons path paths ih => exact ih

/-- Calls do not touch a file. -/
theorem lastTouched_calls (path : List Char) :
    lastTouched path (calls time timeout paths ++ log) = lastTouched path log := by
  induction paths with
  | nil => rfl
  | cons called paths ih => exact ih

variable {paths} {path : List Char}

/-- A call for the path hands it over. -/
theorem handedOver_of_mem (h : path ∈ paths) :
    handedOver path (calls time timeout paths ++ log) = true := by
  induction paths with
  | nil => cases h
  | cons called paths ih =>
      change (decide (called = path) || handedOver path (calls time timeout paths ++ log)) = _
      rcases List.mem_cons.1 h with rfl | hmem
      · rw [decide_eq_true rfl, Bool.true_or]
      · rw [ih hmem, Bool.or_true]

/-- Calls for other paths do not. -/
theorem handedOver_of_not_mem (h : path ∉ paths) :
    handedOver path (calls time timeout paths ++ log) = handedOver path log := by
  induction paths with
  | nil => rfl
  | cons called paths ih =>
      rw [List.mem_cons, not_or] at h
      change (decide (called = path) || handedOver path (calls time timeout paths ++ log)) = _
      rw [decide_eq_false (Ne.symm h.1), Bool.false_or, ih h.2]

end Calls

/-- Calls for different paths that are due. -/
theorem allDue_calls {now : ℕ} {timeout : ℤ} {paths : List (List Char)} {log : List LogEntry}
    (hlog : AllDue log) (hnodup : paths.Nodup)
    (hdue : ∀ path ∈ paths, Due log path now timeout) :
    AllDue (calls now timeout paths ++ log) := by
  induction paths with
  | nil => exact hlog
  | cons path paths ih =>
      rw [List.nodup_cons] at hnodup
      rw [List.forall_mem_cons] at hdue
      obtain ⟨⟨hpresent, hfresh, hclosed, hquiet⟩, hdue⟩ := hdue
      refine ⟨⟨?_, ?_, ?_, ?_⟩, ih hnodup.2 hdue⟩
      · exact (congrArg (inFolder path) (events_calls now timeout paths log)).trans hpresent
      · exact (handedOver_of_not_mem now timeout log hnodup.1).trans hfresh
      · exact (congrArg (lastOpened path) (events_calls now timeout paths log)).trans hclosed
      · obtain ⟨touched, htime, hle⟩ := hquiet
        exact ⟨touched, (lastTouched_calls now timeout paths log path).trans htime, hle⟩

/-! ## The list of files -/

/-- What the list of files says about the log. -/
structure Follows (run : MonitorRun) : Prop where
  tracks : Tracks (events run.log) run.monitor.watchedFiles
  listed : ∀ path, inFolder path (events run.log) = true →
    path ∈ run.monitor.watchedFiles.map WatchedFile.path
  consumed : ∀ file ∈ run.monitor.watchedFiles, file.consumed = handedOver file.path run.log
  touched : ∀ file ∈ run.monitor.watchedFiles,
    lastTouched file.path run.log = some file.lastAccessTime ∧ file.lastAccessTime ≤ run.clock
  due : AllDue run.log

namespace FolderMonitor

/-- Where a file is from that is on the list after an event. -/
theorem mem_handleEvent {monitor : FolderMonitor}
    (hnodup : (monitor.watchedFiles.map WatchedFile.path).Nodup) {now : ℕ}
    {event : InotifyEvent} (hfresh : event.mask = .inCreate →
      event.name ∉ monitor.watchedFiles.map WatchedFile.path)
    {file : WatchedFile} (h : file ∈ (monitor.handleEvent now event).watchedFiles) :
    (file ∈ monitor.watchedFiles ∧ (file.path ≠ event.name ∨ event.mask = .inIgnored)) ∨
      (event.mask = .inCreate ∧ file = { lastAccessTime := now, path := event.name }) ∨
      ∃ old ∈ monitor.watchedFiles, old.path = event.name ∧
        (event.mask ≠ .inCreate ∧ event.mask ≠ .inDelete ∧ event.mask ≠ .inIgnored) ∧
        file = old.handleStateChange event.mask now := by
  rw [handleEvent] at h
  split at h
  · rename_i hmask
    exact Or.inl ⟨h, Or.inr hmask⟩
  · rename_i hmask
    rcases List.mem_append.1 h with hold | hnew
    · refine Or.inl ⟨hold, Or.inl fun heq => hfresh hmask ?_⟩
      rw [← heq]
      exact List.mem_map_of_mem hold
    · exact Or.inr (Or.inl ⟨hmask, List.mem_singleton.1 hnew⟩)
  · obtain ⟨hold, hne⟩ := mem_eraseP_path hnodup h
    exact Or.inl ⟨hold, Or.inl hne⟩
  · rename_i hignored hcreate hdelete
    rcases mem_modifyFile hnodup h with ⟨old, hold, hpath, rfl⟩ | ⟨hold, hne⟩
    · exact Or.inr (Or.inr ⟨old, hold, hpath, ⟨hcreate, hdelete, hignored⟩, rfl⟩)
    · exact Or.inl ⟨hold, Or.inl hne⟩

/-- An event takes no path from the list but the one it deletes. -/
theorem mem_path_handleEvent {monitor : FolderMonitor} {path : List Char}
    (h : path ∈ monitor.watchedFiles.map WatchedFile.path) (now : ℕ) {event : InotifyEvent}
    (hdelete : event.name ≠ path ∨ event.mask ≠ .inDelete) :
    path ∈ (monitor.handleEvent now event).watchedFiles.map WatchedFile.path := by
  rw [handleEvent]
  split
  · exact h
  · rw [List.map_append]
    exact List.mem_append_left _ h
  · rename_i hmask
    obtain ⟨file, hfile, rfl⟩ := List.mem_map.1 h
    have hne : file.path ≠ event.name := fun heq =>
      hdelete.elim (fun hne => hne heq.symm) fun hne => hne hmask
    have hkept : file ∈ monitor.watchedFiles.eraseP fun file => file.path = event.name :=
      (List.mem_eraseP_of_neg (by simpa using hne)).2 hfile
    exact List.mem_map_of_mem hkept
  · rwa [map_path_modifyFile (Tracks.path_handleStateChange event.mask now)]

end FolderMonitor

theorem WatchedFile.consumed_handleStateChange (mask : EventMask) (now : ℕ)
    (file : WatchedFile) : (file.handleStateChange mask now).consumed = file.consumed := by
  cases mask <;> rfl

theorem WatchedFile.lastAccessTime_handleStateChange (mask : EventMask) (now : ℕ)
    (file : WatchedFile) : (file.handleStateChange mask now).lastAccessTime = now := by
  cases mask <;> rfl

/-- An event of another path, or that a watch is gone, says nothing about a path. -/
theorem lastTouched_of_ne {event : InotifyEvent} {path : List Char}
    (h : path ≠ event.name ∨ event.mask = .inIgnored) (time : ℕ) (log : List LogEntry) :
    lastTouched path (.event time event :: log) = lastTouched path log :=
  if_neg fun hevent => h.elim (fun hne => hne hevent.1.symm) hevent.2

/-- An event about a file touches it. -/
theorem lastTouched_of_eq {event : InotifyEvent} (h : event.mask ≠ .inIgnored) (time : ℕ)
    (log : List LogEntry) :
    lastTouched event.name (.event time event :: log) = some time :=
  if_pos ⟨rfl, h⟩

/-- Only the creation of a file makes it one that was not handed over. -/
theorem handedOver_of_ne {event : InotifyEvent} {path : List Char}
    (h : path ≠ event.name ∨ event.mask ≠ .inCreate) (time : ℕ) (log : List LogEntry) :
    handedOver path (.event time event :: log) = handedOver path log :=
  if_neg fun hevent => h.elim (fun hne => hne hevent.1.symm) fun hne => hne hevent.2

namespace Follows

variable {run : MonitorRun}

theorem start (descriptor : ℕ) : Follows (.start descriptor) :=
  ⟨Tracks.nil _, fun _ h => (by cases h), fun _ h => (by cases h), fun _ h => (by cases h),
    trivial⟩

/-- A path that is not in the folder has no entry. -/
theorem not_mem (h : Follows run) {path : List Char}
    (hpath : inFolder path (events run.log) = false) :
    path ∉ run.monitor.watchedFiles.map WatchedFile.path := by
  intro hmem
  rw [h.tracks.present path hmem] at hpath
  cases hpath

/-- An event keeps the monitor in step with its log. -/
theorem event (h : Follows run) {event : InotifyEvent}
    (honce : CreatedOnce (event :: events run.log)) :
    Follows (run.perform (.event event)) := by
  have horigin := fun file (hfile : file ∈ (run.perform (.event event)).monitor.watchedFiles) =>
    FolderMonitor.mem_handleEvent h.tracks.nodup
      (fun hmask => h.not_mem (honce.1 hmask)) hfile
  refine ⟨h.tracks.handleEvent run.clock honce, fun path hpath => ?_, fun file hfile => ?_,
    fun file hfile => ?_, h.due⟩
  · -- an entry goes only with the event that deletes its path
    change inFolder path (event :: events run.log) = true at hpath
    by_cases hname : event.name = path
    · subst hname
      rw [inFolder, if_neg (not_not.2 rfl)] at hpath
      cases hmask : event.mask with
      | inCreate => simp [MonitorRun.perform, FolderMonitor.handleEvent, hmask]
      | inDelete =>
          rw [hmask] at hpath
          cases hpath
      | _ =>
          rw [hmask] at hpath
          exact FolderMonitor.mem_path_handleEvent (h.listed _ hpath) _
            (Or.inr (by rw [hmask]; decide))
    · rw [inFolder_of_ne hname] at hpath
      exact FolderMonitor.mem_path_handleEvent (h.listed path hpath) _ (Or.inl hname)
  · -- only the entry of a created file starts anew
    change file.consumed = handedOver file.path (.event run.clock event :: run.log)
    rcases horigin file hfile with ⟨hold, hother⟩ | ⟨hmask, rfl⟩ | ⟨old, hold, -, hmask, rfl⟩
    · rw [handedOver_of_ne (hother.imp_right fun hmask => (by rw [hmask]; decide))]
      exact h.consumed file hold
    · simp [handedOver, hmask]
    · rw [handedOver_of_ne (Or.inr hmask.1), Tracks.path_handleStateChange,
        WatchedFile.consumed_handleStateChange]
      exact h.consumed old hold
  · change lastTouched file.path (.event run.clock event :: run.log) = _ ∧ _ ≤ run.clock
    rcases horigin file hfile with ⟨hold, hother⟩ | ⟨hmask, rfl⟩ |
      ⟨old, hold, hpath, hmask, rfl⟩
    · rw [lastTouched_of_ne hother]
      exact h.touched file hold
    · exact ⟨lastTouched_of_eq (by rw [hmask]; decide) _ _, Nat.le_refl _⟩
    · rw [Tracks.path_handleStateChange, WatchedFile.lastAccessTime_handleStateChange, hpath]
      exact ⟨lastTouched_of_eq hmask.2.2 _ _, Nat.le_refl _⟩

/-- The monitor finds a file ready exactly when it is due by the log. -/
theorem ready_iff (h : Follows run) {file : WatchedFile}
    (hfile : file ∈ run.monitor.watchedFiles) :
    run.monitor.ready run.clock file = true ↔
      Due run.log file.path run.clock run.monitor.fileReadyTimeout := by
  obtain ⟨htouched, hle⟩ := h.touched file hfile
  rw [FolderMonitor.ready, h.consumed file hfile, h.tracks.inUse file hfile]
  simp only [Bool.and_eq_true, Bool.not_eq_true', WatchedFile.notTouchedIn, gt_iff_lt,
    decide_eq_true_iff]
  constructor
  · rintro ⟨⟨hfresh, hclosed⟩, hquiet⟩
    exact ⟨h.tracks.present _ (List.mem_map_of_mem hfile), hfresh, hclosed, _, htouched, hle,
      hquiet⟩
  · rintro ⟨-, hfresh, hclosed, touched, htime, -, hquiet⟩
    obtain rfl := Option.some.inj (htime.symm.trans htouched)
    exact ⟨⟨hfresh, hclosed⟩, hquiet⟩

/-- `process` hands over what is due, and nothing else. -/
theorem mem_process_iff (h : Follows run) (path : List Char) :
    path ∈ (run.monitor.process run.clock).1 ↔
      Due run.log path run.clock run.monitor.fileReadyTimeout := by
  simp only [FolderMonitor.process, List.mem_map, List.mem_filter]
  constructor
  · rintro ⟨file, ⟨hfile, hready⟩, rfl⟩
    exact (h.ready_iff hfile).1 hready
  · intro hdue
    obtain ⟨file, hfile, rfl⟩ := List.mem_map.1 (h.listed path hdue.present)
    exact ⟨file, ⟨hfile, (h.ready_iff hfile).2 hdue⟩, rfl⟩

/-- No file is handed over twice in one call. -/
theorem nodup_process (h : Follows run) : (run.monitor.process run.clock).1.Nodup :=
  h.tracks.nodup.sublist (List.filter_sublist.map _)

/-- A call keeps the monitor in step with its log. -/
theorem process (h : Follows run) : Follows (run.perform .process) := by
  have hevents : events (run.perform .process).log = events run.log := events_calls _ _ _ _
  have hfiles : (run.perform .process).monitor.watchedFiles =
      (run.monitor.process run.clock).2.watchedFiles := rfl
  have hpaths : (run.perform .process).monitor.watchedFiles.map WatchedFile.path =
      run.monitor.watchedFiles.map WatchedFile.path := by
    simp only [hfiles, FolderMonitor.process, List.map_map]
    refine List.map_congr_left fun file _ => ?_
    simp only [Function.comp]
    split <;> rfl
  refine ⟨?_, ?_, fun file hfile => ?_, fun file hfile => ?_, ?_⟩
  · rw [hevents]
    exact h.tracks.process run.clock
  · rw [hevents, hpaths]
    exact h.listed
  · -- what has been handed over is marked, and nothing else is
    obtain ⟨old, hold, rfl⟩ := List.mem_map.1 hfile
    by_cases hready : run.monitor.ready run.clock old = true
    · rw [if_pos hready]
      have hmem := (h.mem_process_iff old.path).2 ((h.ready_iff hold).1 hready)
      exact (handedOver_of_mem _ _ _ (List.mem_reverse.2 hmem)).symm
    · rw [if_neg hready]
      have hmem : old.path ∉ (run.monitor.process run.clock).1 := fun hmem =>
        hready ((h.ready_iff hold).2 ((h.mem_process_iff _).1 hmem))
      exact (h.consumed old hold).trans
        (handedOver_of_not_mem _ _ _ (mt List.mem_reverse.1 hmem)).symm
  · obtain ⟨old, hold, rfl⟩ := List.mem_map.1 hfile
    have htouched := (lastTouched_calls run.clock run.monitor.fileReadyTimeout
      (run.monitor.process run.clock).1.reverse run.log old.path).trans (h.touched old hold).1
    split
    · exact ⟨htouched, (h.touched old hold).2⟩
    · exact ⟨htouched, (h.touched old hold).2⟩
  · exact allDue_calls h.due (List.nodup_reverse.2 h.nodup_process) fun path hpath =>
      (h.mem_process_iff path).1 (List.mem_reverse.1 hpath)

/-- What every step keeps, where no path is created twice. -/
theorem perform (h : Follows run) (step : MonitorStep)
    (honce : CreatedOnce (events (run.perform step).log)) : Follows (run.perform step) := by
  cases step with
  | event event => exact h.event honce
  | process => exact h.process
  | wait time =>
      exact ⟨h.tracks, h.listed, h.consumed, fun file hfile =>
        ⟨(h.touched file hfile).1, Nat.le_add_right_of_le (h.touched file hfile).2⟩, h.due⟩
  | setFileReadyTimeout timeout => exact ⟨h.tracks, h.listed, h.consumed, h.touched, h.due⟩

end Follows

/-- Events stay in the log. -/
theorem MonitorRun.events_perform (run : MonitorRun) (step : MonitorStep) :
    ∃ later, events (run.perform step).log = later ++ events run.log := by
  cases step with
  | event event => exact ⟨[event], rfl⟩
  | process => exact ⟨[], events_calls _ _ _ _⟩
  | wait time => exact ⟨[], rfl⟩
  | setFileReadyTimeout timeout => exact ⟨[], rfl⟩

theorem MonitorRun.events_run (run : MonitorRun) (steps : List MonitorStep) :
    ∃ later, events (run.run steps).log = later ++ events run.log := by
  induction steps generalizing run with
  | nil => exact ⟨[], rfl⟩
  | cons step steps ih =>
      obtain ⟨first, hfirst⟩ := run.events_perform step
      obtain ⟨later, hlater⟩ := ih (run.perform step)
      refine ⟨later ++ first, ?_⟩
      rw [run_cons, hlater, hfirst, List.append_assoc]

/-- A whole run keeps the monitor in step with its log. -/
theorem Follows.run {start : MonitorRun} (h : Follows start) {steps : List MonitorStep}
    (honce : CreatedOnce (events (start.run steps).log)) : Follows (start.run steps) := by
  induction steps generalizing start with
  | nil => exact h
  | cons step steps ih =>
      obtain ⟨later, hlater⟩ := (start.perform step).events_run steps
      rw [MonitorRun.run_cons] at honce ⊢
      rw [hlater] at honce
      exact ih (h.perform step honce.of_append) (hlater ▸ honce)

/-! ## Once for each creation -/

theorem AllDue.of_append {later earlier : List LogEntry} (h : AllDue (later ++ earlier)) :
    AllDue earlier := by
  induction later with
  | nil => exact h
  | cons entry later ih =>
      cases entry with
      | event time event => exact ih h
      | call now path timeout => exact ih h.2

theorem NotCreated.of_cons {path : List Char} {entry : LogEntry} {log : List LogEntry}
    (h : NotCreated path (entry :: log)) : NotCreated path log := by
  cases entry with
  | event time event => exact fun other hother => h other (List.mem_cons_of_mem _ hother)
  | call now called timeout => exact h

/-- The calls for a path since a time at which it was not handed over. -/
theorem callsFor_eq {path : List Char} {later earlier : List LogEntry}
    (hdue : AllDue (later ++ earlier)) (hearlier : handedOver path earlier = false)
    (hcreated : NotCreated path later) :
    callsFor path later = if handedOver path (later ++ earlier) then 1 else 0 := by
  induction later with
  | nil => simp [callsFor, hearlier]
  | cons entry later ih =>
      cases entry with
      | event time event =>
          have hother : path ≠ event.name ∨ event.mask ≠ .inCreate := by
            by_cases hmask : event.mask = .inCreate
            · exact Or.inl (hcreated event List.mem_cons_self hmask).symm
            · exact Or.inr hmask
          rw [callsFor, List.cons_append, handedOver_of_ne hother]
          exact ih hdue hcreated.of_cons
      | call now called timeout =>
          have hrest := ih hdue.2 hcreated.of_cons
          rw [callsFor, hrest, List.cons_append, handedOver]
          by_cases hcalled : called = path
          · subst hcalled
            have hfresh : handedOver called (later ++ earlier) = false := hdue.1.fresh
            simp [hfresh]
          · simp [hcalled]

/-- A file that is not there comes only by being created. -/
theorem inFolder_of_notCreated {path : List Char} {later earlier : List LogEntry}
    (hearlier : inFolder path (events earlier) = false) (hcreated : NotCreated path later) :
    inFolder path (events (later ++ earlier)) = false := by
  induction later with
  | nil => exact hearlier
  | cons entry later ih =>
      have hrest := ih hcreated.of_cons
      cases entry with
      | event time event =>
          change inFolder path (event :: events (later ++ earlier)) = false
          by_cases hname : event.name = path
          · have hmask : event.mask ≠ .inCreate := fun hmask =>
              hcreated event List.mem_cons_self hmask hname
            rw [inFolder, if_neg (not_not.2 hname), hrest]
            cases hevent : event.mask with
            | inCreate => exact absurd hevent hmask
            | _ => rfl
          · rwa [inFolder_of_ne hname]
      | call now called timeout => exact hrest

/-- A path that is not in the folder is not handed over until it is created. -/
theorem callsFor_eq_zero {path : List Char} {later earlier : List LogEntry}
    (hdue : AllDue (later ++ earlier)) (hearlier : inFolder path (events earlier) = false)
    (hcreated : NotCreated path later) : callsFor path later = 0 := by
  induction later with
  | nil => rfl
  | cons entry later ih =>
      cases entry with
      | event time event => exact ih hdue hcreated.of_cons
      | call now called timeout =>
          have hpresent : inFolder called (events (later ++ earlier)) = true := hdue.1.present
          have hne : called ≠ path := by
            rintro rfl
            rw [inFolder_of_notCreated hearlier hcreated.of_cons] at hpresent
            cases hpresent
          rw [callsFor, if_neg hne, ih hdue.2 hcreated.of_cons]

/-- The time since a path was touched, in nanoseconds. -/
theorem Due.elapsed {log : List LogEntry} {path : List Char} {now : ℕ} {timeout : ℤ}
    (h : Due log path now timeout) : ∃ touched, lastTouched path log = some touched ∧
      touched ≤ now ∧ timeout * 1000000 < (now : ℤ) - touched := by
  obtain ⟨touched, htime, hle, hquiet⟩ := h.quiet
  refine ⟨touched, htime, hle, ?_⟩
  omega

/-- What the log says about the path. -/
def about (path : List Char) : List LogEntry → List LogEntry
  | [] => []
  | .event time event :: log =>
      if event.name = path then .event time event :: about path log else about path log
  | .call time called timeout :: log =>
      if called = path then .call time called timeout :: about path log else about path log

/-- Other paths have no say in whether a path is due. -/
theorem due_about_iff (log : List LogEntry) (path : List Char) (now : ℕ) (timeout : ℤ) :
    Due (about path log) path now timeout ↔ Due log path now timeout := by
  have hsame : inFolder path (events (about path log)) = inFolder path (events log) ∧
      handedOver path (about path log) = handedOver path log ∧
      lastOpened path (events (about path log)) = lastOpened path (events log) ∧
      lastTouched path (about path log) = lastTouched path log := by
    induction log with
    | nil => exact ⟨rfl, rfl, rfl, rfl⟩
    | cons entry log ih =>
        obtain ⟨hpresent, hfresh, hclosed, hquiet⟩ := ih
        cases entry with
        | event time event =>
            by_cases hname : event.name = path
            · simp [about, events, inFolder, handedOver, lastOpened, lastTouched, hname,
                hpresent, hfresh, hclosed, hquiet]
            · simp [about, events, inFolder, handedOver, lastOpened, lastTouched, hname,
                hpresent, hfresh, hclosed, hquiet]
        | call time called timeout =>
            by_cases hcalled : called = path
            · simp [about, events, handedOver, lastTouched, hcalled, hpresent, hclosed, hquiet]
            · simp [about, events, handedOver, lastTouched, hcalled, hpresent, hfresh, hclosed,
                hquiet]
  obtain ⟨hpresent, hfresh, hclosed, hquiet⟩ := hsame
  constructor
  · intro h
    exact ⟨hpresent ▸ h.present, hfresh ▸ h.fresh, hclosed ▸ h.closed, hquiet ▸ h.quiet⟩
  · intro h
    exact ⟨hpresent.trans h.present, hfresh.trans h.fresh, hclosed.trans h.closed,
      hquiet.symm ▸ h.quiet⟩

/-- **Once for each creation.**  Where no path is created twice without being deleted
between: from an `IN_CREATE` of a path to the next one the consumer is called for it at
most once; from an `IN_DELETE` to the next `IN_CREATE` not at all; and each call comes more
than the timeout after the latest event of its path.  Whether `process` hands a path over
depends on what the log says about this path alone. -/
theorem handed_over_once (descriptor : ℕ) (steps : List MonitorStep)
    (honce : CreatedOnce (events ((MonitorRun.start descriptor).run steps).log)) :
    let run := (MonitorRun.start descriptor).run steps
    (∀ later time event earlier, run.log = later ++ .event time event :: earlier →
        event.mask = .inCreate → NotCreated event.name later →
          callsFor event.name later ≤ 1) ∧
      (∀ later time event earlier, run.log = later ++ .event time event :: earlier →
        event.mask = .inDelete → NotCreated event.name later →
          callsFor event.name later = 0) ∧
      (∀ later now path timeout earlier, run.log = later ++ .call now path timeout :: earlier →
        ∃ touched, lastTouched path earlier = some touched ∧ touched ≤ now ∧
          timeout * 1000000 < (now : ℤ) - touched) ∧
      (run.monitor.process run.clock).1.Nodup ∧
        ∀ path, path ∈ (run.monitor.process run.clock).1 ↔
          Due (about path run.log) path run.clock run.monitor.fileReadyTimeout := by
  intro run
  have hfollows : Follows run := (Follows.start descriptor).run honce
  have hdue := hfollows.due
  refine ⟨fun later time event earlier hlog hmask hcreated => ?_,
    fun later time event earlier hlog hmask hcreated => ?_,
    fun later now path timeout earlier hlog => ?_, hfollows.nodup_process,
    fun path => (hfollows.mem_process_iff path).trans (due_about_iff _ _ _ _).symm⟩
  · rw [hlog] at hdue
    rw [callsFor_eq hdue (if_pos ⟨rfl, hmask⟩) hcreated]
    split <;> decide
  · rw [hlog] at hdue
    refine callsFor_eq_zero hdue ?_ hcreated
    simp [events, inFolder, hmask]
  · rw [hlog] at hdue
    exact hdue.of_append.1.elapsed

/-- A file is written, handed over, deleted and written once more. -/
def writtenTwice : List MonitorStep :=
  let written : List MonitorStep :=
    [.event ⟨.inCreate, FolderWatch.packageName⟩, .event ⟨.inOpen, FolderWatch.packageName⟩,
      .event ⟨.inCloseWrite, FolderWatch.packageName⟩, .wait 3000000000, .process, .process]
  written ++ .event ⟨.inDelete, FolderWatch.packageName⟩ :: written

/-- A file that is written and handed over, deleted, and written again. -/
theorem handed_over_written_twice :
    let run := (MonitorRun.start 3).run writtenTwice
    callsFor FolderWatch.packageName run.log = 2 ∧
      ∃ touched, lastTouched FolderWatch.packageName (run.log.drop 1) = some touched ∧
        touched ≤ 6000000000 ∧ 2000 * 1000000 < (6000000000 : ℤ) - touched :=
  ⟨by decide, (handed_over_once 3 writtenTwice (by decide)).2.2.1 [] 6000000000
    FolderWatch.packageName 2000 _ (by decide)⟩

/-! ## One entry for each path -/

/-- No two entries have the same path, and an event that opens or closes a file would reach
every entry with its path. -/
structure OneEntry (run : MonitorRun) : Prop where
  nodup : (run.monitor.watchedFiles.map WatchedFile.path).Nodup
  reached : ∀ event : InotifyEvent, event.mask.isOpen = true ∨ event.mask.isClose = true →
    ∀ file ∈ (run.monitor.handleEvent run.clock event).watchedFiles,
      file.path = event.name → file.inUse = event.mask.isOpen

/-- The three kinds that open or close a file. -/
theorem EventMask.isOpen_or_isClose {mask : EventMask}
    (h : mask.isOpen = true ∨ mask.isClose = true) :
    mask = .inOpen ∨ mask = .inCloseWrite ∨ mask = .inCloseNowrite := by
  simpa only [isOpen, isClose, Bool.or_eq_true, decide_eq_true_iff] using h

/-- Distinct paths are enough. -/
theorem OneEntry.of_nodup {run : MonitorRun}
    (h : (run.monitor.watchedFiles.map WatchedFile.path).Nodup) : OneEntry run := by
  refine ⟨h, fun event hevent file hfile hpath => ?_⟩
  rw [FolderMonitor.handleEvent] at hfile
  rcases EventMask.isOpen_or_isClose hevent with hmask | hmask | hmask <;>
    rw [hmask] at hfile ⊢ <;>
    rcases FolderMonitor.mem_modifyFile h hfile with ⟨old, -, -, rfl⟩ | ⟨-, hne⟩
  all_goals first | rfl | exact absurd hpath hne

/-- A second `IN_CREATE` of a path that is in the folder makes a second entry. -/
theorem inFolder_eq_false_of_nodup {run : MonitorRun} (h : Follows run) {event : InotifyEvent}
    (hmask : event.mask = .inCreate)
    (hnodup : ((run.monitor.handleEvent run.clock event).watchedFiles.map
      WatchedFile.path).Nodup) :
    inFolder event.name (events run.log) = false := by
  rw [Bool.eq_false_iff]
  intro hpresent
  have hfiles : (run.monitor.handleEvent run.clock event).watchedFiles.map WatchedFile.path =
      run.monitor.watchedFiles.map WatchedFile.path ++ [event.name] := by
    simp [FolderMonitor.handleEvent, hmask]
  rw [hfiles] at hnodup
  exact (List.nodup_append.1 hnodup).2.2 _ (h.listed _ hpresent) _ (List.mem_singleton_self _)
    rfl

/-- **One entry for each path** throughout a run, if and only if no path is created a second
time before the event of its deletion has been parsed. -/
theorem one_entry_iff (descriptor : ℕ) (steps : List MonitorStep) :
    (∀ first rest, steps = first ++ rest → OneEntry ((MonitorRun.start descriptor).run first)) ↔
      CreatedOnce (events ((MonitorRun.start descriptor).run steps).log) := by
  constructor
  · intro hall
    -- the steps but the last follow the log, so that a second creation would show in the last
    induction steps using List.reverseRecOn with
    | nil => trivial
    | append_singleton steps step ih =>
        have honce := ih fun first rest hsteps =>
          hall first (rest ++ [step]) (by rw [hsteps, List.append_assoc])
        rw [MonitorRun.run_append, MonitorRun.run_cons, MonitorRun.run_nil]
        cases step with
        | event event =>
            refine ⟨fun hmask => ?_, honce⟩
            have hlast := (hall (steps ++ [.event event]) [] (List.append_nil _).symm).nodup
            rw [MonitorRun.run_append] at hlast
            exact inFolder_eq_false_of_nodup ((Follows.start descriptor).run honce) hmask hlast
        | process =>
            rw [MonitorRun.perform, events_calls]
            exact honce
        | wait time => exact honce
        | setFileReadyTimeout timeout => exact honce
  · rintro honce first rest rfl
    rw [MonitorRun.run_append] at honce
    obtain ⟨later, hlater⟩ := ((MonitorRun.start descriptor).run first).events_run rest
    rw [hlater] at honce
    exact OneEntry.of_nodup ((Follows.start descriptor).run honce.of_append).tracks.nodup

/-- A file that was moved out of the folder is created again. -/
theorem not_one_entry_moved_out : ¬∀ descriptor steps,
    OneEntry ((MonitorRun.start descriptor).run steps) := by
  intro h
  have hnodup := (h 3 [.event ⟨.inCreate, FolderWatch.packageName⟩,
    .event ⟨.inCreate, FolderWatch.packageName⟩]).nodup
  revert hnodup
  decide

end NewCPP.Deployment
