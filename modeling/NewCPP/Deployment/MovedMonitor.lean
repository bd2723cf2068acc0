import NewCPP.Deployment.FolderMonitor
import Mathlib.Algebra.Order.BigOperators.Group.List
import Mathlib.Algebra.Order.Group.Nat

/-!
# Moving a folder monitor

`SystemObservable` keeps a monitor that was move-constructed from the one that it is given.
The move takes along the files, the descriptor and the timeout, and leaves the event buffer
of the new monitor empty, so that no event ever fits into it.

* `moved_calls` — the two monitors call the consumer alike in every run in which the
  original finds nothing that it could read; and unless an event is pending that does not
  fit into the buffer of the original either, there is a run in which they do not.  Where
  they do call alike in every run, nothing that the original still reads makes a file due.
* `calls_moved_start` — a monitor that is moved before its first event calls nobody.

## Design notes

**Two runs.**  `watch.moved` is the same folder with the moved monitor.  Both run the same
schedule of events, waits and calls.

**Being stuck.**  The events are read in order, so that an event that does not fit holds up all
those behind it.  Of the events before it some may fit and still change nothing, as an
`IN_OPEN` of a path that is not watched does: what the two monitors do alike is then not
decided by the sizes of the events.
-/

namespace NewCPP.Deployment

namespace FolderWatch

/-- The folder, watched by a monitor that was move-constructed from its monitor. -/
def moved (watch : FolderWatch) : FolderWatch :=
  { watch with monitor := watch.monitor.move.1 }

/-- No pending event could be read: the first one, if any, does not fit into the buffer. -/
def NothingFits (watch : FolderWatch) : Prop :=
  watch.monitor.descriptor ≠ none → ∀ event ∈ watch.pending.head?,
    watch.monitor.eventBuffer < event.size

/-- The condition, at every call of `handleIncommingEvents` in a run. -/
def NothingFitsAtHandle : FolderWatch → List WatchAction → Prop
  | _, [] => True
  | watch, action :: schedule =>
      (action = .handleIncommingEvents → watch.NothingFits) ∧
        NothingFitsAtHandle (watch.perform action) schedule

/-! ## Calls that read nothing -/

/-- Then a read takes nothing. -/
theorem incoming_of_nothingFits {watch : FolderWatch} (h : watch.NothingFits) :
    watch.monitor.incoming watch.pending = ([], watch.pending) := by
  rw [FolderMonitor.incoming]
  split
  · rfl
  · rename_i fd hfd
    have hhead := h (by simp [hfd])
    cases hpending : watch.pending with
    | nil => rfl
    | cons event pending =>
        rw [hpending] at hhead
        exact if_neg (Nat.not_le.2 (hhead event rfl))

/-- A call that reads nothing changes nothing. -/
theorem perform_handle_of_nothingFits {watch : FolderWatch} (h : watch.NothingFits) :
    watch.perform .handleIncommingEvents = watch := by
  simp only [perform, FolderMonitor.handleIncommingEvents, incoming_of_nothingFits h]
  rfl

/-- Into no buffer nothing fits. -/
theorem nothingFits_of_empty {watch : FolderWatch} (h : watch.monitor.eventBuffer = 0) :
    watch.NothingFits := by
  intro _ event _
  rw [h]
  exact Nat.add_pos_left (by decide) _

/-- Parsing changes the files only. -/
theorem parseEvents_eq (now : ℕ) (monitor : FolderMonitor) (events : List InotifyEvent) :
    monitor.parseEvents now events =
      { monitor with watchedFiles := (monitor.parseEvents now events).watchedFiles } := by
  rw [FolderMonitor.parseEvents]
  induction events generalizing monitor with
  | nil => rfl
  | cons event events ih =>
      rw [List.foldl_cons, ih, FolderMonitor.handleEvent]
      split <;> rfl

/-- Nothing that happens changes the buffer. -/
theorem eventBuffer_perform (watch : FolderWatch) (action : WatchAction) :
    (watch.perform action).monitor.eventBuffer = watch.monitor.eventBuffer := by
  cases action with
  | handleIncommingEvents =>
      rw [perform, FolderMonitor.handleIncommingEvents, parseEvents_eq]
  | _ => rfl

/-! ## Runs of both monitors -/

/-- Every action but one does the same to both monitors. -/
theorem moved_perform {watch : FolderWatch} {action : WatchAction}
    (h : action = .handleIncommingEvents → watch.NothingFits) :
    watch.moved.perform action = (watch.perform action).moved := by
  cases action with
  | handleIncommingEvents =>
      rw [perform_handle_of_nothingFits (h rfl),
        perform_handle_of_nothingFits (nothingFits_of_empty rfl)]
  | _ => rfl

/-- Under the condition the moved monitor does what the other does, step by step. -/
theorem moved_run {watch : FolderWatch} {schedule : List WatchAction}
    (h : NothingFitsAtHandle watch schedule) :
    watch.moved.run schedule = (watch.run schedule).moved := by
  induction schedule generalizing watch with
  | nil => rfl
  | cons action schedule ih =>
      rw [run_cons, run_cons, moved_perform h.1, ih h.2]

/-! ## The moved monitor alone -/

/-- Nothing but an event makes one of the files due. -/
def Settled (watch : FolderWatch) : Prop :=
  ∀ file ∈ watch.monitor.watchedFiles, file.consumed = true ∨ file.inUse = true

/-- A call of `process` that finds nothing to hand over changes nothing. -/
theorem process_of_settled {watch : FolderWatch} (h : watch.Settled) :
    watch.perform .process = watch := by
  have hready (file : WatchedFile) (hfile : file ∈ watch.monitor.watchedFiles) :
      watch.monitor.ready watch.clock file = false := by
    rcases h file hfile with hconsumed | huse
    · simp [FolderMonitor.ready, hconsumed]
    · simp [FolderMonitor.ready, huse]
  have hfilter : watch.monitor.watchedFiles.filter (watch.monitor.ready watch.clock) = [] := by
    simpa using hready
  have hmap : (watch.monitor.watchedFiles.map fun file =>
      if watch.monitor.ready watch.clock file then { file with consumed := true } else file) =
        watch.monitor.watchedFiles := by
    refine (List.map_congr_left fun file hfile => ?_).trans (List.map_id' _)
    exact if_neg (by simp [hready file hfile])
  simp only [perform, FolderMonitor.process, hfilter, hmap, List.map_nil, List.append_nil]

/-- A monitor that reads nothing and whose files are settled calls nobody. -/
theorem calls_run_of_settled {watch : FolderWatch} (hbuffer : watch.monitor.eventBuffer = 0)
    (h : watch.Settled) (schedule : List WatchAction) :
    (watch.run schedule).calls = watch.calls := by
  induction schedule generalizing watch with
  | nil => rfl
  | cons action schedule ih =>
      have hnext := watch.eventBuffer_perform action
      rw [run_cons]
      cases action with
      | handleIncommingEvents =>
          rw [perform_handle_of_nothingFits (nothingFits_of_empty hbuffer)]
          exact ih hbuffer h
      | process =>
          rw [process_of_settled h]
          exact ih hbuffer h
      | arrive event => exact ih hbuffer h
      | wait time => exact ih hbuffer h
      | setFileReadyTimeout timeout => exact ih hbuffer h

/-- **The observed monitor is deaf.**  A monitor that is moved before its first event never
calls the consumer. -/
theorem calls_moved_start (descriptor : ℕ) (schedule : List WatchAction) :
    ((start descriptor).moved.run schedule).calls = [] := by
  refine calls_run_of_settled rfl ?_ schedule
  intro file hfile
  cases hfile

/-! ## A run that tells them apart -/

/-- No file was touched for the timeout before the end of a wait. -/
def DueAfter (watch : FolderWatch) (time : ℕ) : Prop :=
  ∀ file ∈ watch.monitor.watchedFiles,
    file.notTouchedIn watch.monitor.fileReadyTimeout (watch.clock + time) = true

/-- Some wait is long enough. -/
theorem exists_dueAfter (watch : FolderWatch) : ∃ time, watch.DueAfter time := by
  refine ⟨(watch.monitor.watchedFiles.map WatchedFile.lastAccessTime).sum +
    (watch.monitor.fileReadyTimeout.toNat + 1) * 1000000, fun file hfile => ?_⟩
  have hsum : file.lastAccessTime ≤
      (watch.monitor.watchedFiles.map WatchedFile.lastAccessTime).sum :=
    List.le_sum_of_mem (List.mem_map_of_mem hfile)
  generalize (watch.monitor.watchedFiles.map WatchedFile.lastAccessTime).sum = latest at hsum ⊢
  have helapsed : watch.monitor.fileReadyTimeout.toNat + 1 ≤
      (watch.clock + (latest + (watch.monitor.fileReadyTimeout.toNat + 1) * 1000000) -
        file.lastAccessTime) / 1000000 := by
    rw [Nat.le_div_iff_mul_le (by decide)]
    omega
  rw [WatchedFile.notTouchedIn, decide_eq_true_iff]
  omega

/-- After a wait all files are handed over that are not in use. -/
theorem settled_process {watch : FolderWatch} {time : ℕ} (hdue : watch.DueAfter time) :
    (watch.run [.wait time, .process]).Settled := by
  intro file hfile
  obtain ⟨old, hold, rfl⟩ := List.mem_map.1 hfile
  have htouched := hdue old hold
  split
  · exact Or.inl rfl
  · rename_i hready
    by_contra hsettled
    rw [not_or, Bool.not_eq_true, Bool.not_eq_true] at hsettled
    refine hready ?_
    simp [FolderMonitor.ready, perform, htouched, hsettled.1, hsettled.2]

/-- The kernel's queue is read to its end, if every event fits into the buffer. -/
theorem exists_drained {watch : FolderWatch} (hdescriptor : watch.monitor.descriptor ≠ none)
    (hfit : ∀ event ∈ watch.pending, event.size ≤ watch.monitor.eventBuffer) :
    ∃ n, watch.run (List.replicate n .handleIncommingEvents) =
      { watch with
        monitor := watch.monitor.parseEvents watch.clock watch.pending
        pending := []
        read := watch.pending.reverse ++ watch.read } := by
  induction hlength : watch.pending.length using Nat.strong_induction_on generalizing watch with
  | h length ih =>
      cases hpending : watch.pending with
      | nil =>
          refine ⟨0, ?_⟩
          obtain ⟨clock, monitor, pending, read, calls⟩ := watch
          subst hpending
          rfl
      | cons event pending =>
          obtain ⟨fd, hfd⟩ := Option.ne_none_iff_exists'.1 hdescriptor
          have hincoming : watch.monitor.incoming watch.pending =
              readEvents watch.monitor.eventBuffer watch.pending := by
            rw [FolderMonitor.incoming, hfd]
          have happend := FolderMonitor.incoming_append watch.monitor watch.pending
          have hread : (watch.monitor.incoming watch.pending).1 ≠ [] := by
            rw [hincoming, hpending, readEvents,
              if_pos (hfit event (hpending ▸ List.mem_cons_self))]
            exact List.cons_ne_nil _ _
          have hlt : (watch.monitor.incoming watch.pending).2.length < length := by
            rw [← hlength, ← congrArg List.length happend, List.length_append]
            exact Nat.lt_add_of_pos_left (List.length_pos_iff.2 hread)
          have hmonitor := parseEvents_eq watch.clock watch.monitor
            (watch.monitor.incoming watch.pending).1
          have hdescriptor' : (watch.perform .handleIncommingEvents).monitor.descriptor ≠ none := by
            rw [perform, FolderMonitor.handleIncommingEvents, hmonitor]
            exact hdescriptor
          have hfit' : ∀ event ∈ (watch.perform .handleIncommingEvents).pending,
              event.size ≤ (watch.perform .handleIncommingEvents).monitor.eventBuffer := by
            intro event hevent
            rw [eventBuffer_perform]
            exact hfit event (happend ▸ List.mem_append_right _ hevent)
          obtain ⟨n, hn⟩ := ih _ hlt hdescriptor' hfit' rfl
          refine ⟨n + 1, ?_⟩
          have hparse : watch.monitor.parseEvents watch.clock watch.pending =
              (watch.monitor.parseEvents watch.clock
                (watch.monitor.incoming watch.pending).1).parseEvents watch.clock
                  (watch.monitor.incoming watch.pending).2 := by
            simp only [FolderMonitor.parseEvents]
            rw [← List.foldl_append, happend]
          have hread : watch.pending.reverse ++ watch.read =
              (watch.monitor.incoming watch.pending).2.reverse ++
                ((watch.monitor.incoming watch.pending).1.reverse ++ watch.read) := by
            rw [← List.append_assoc, ← List.reverse_append, happend]
          rw [List.replicate_succ, run_cons, hn, ← hpending, hparse, hread]
          rfl

/-- A file that is neither in use nor handed over is handed over after a wait. -/
theorem calls_lt_of_unused {watch : FolderWatch} {time : ℕ} (hdue : watch.DueAfter time)
    {file : WatchedFile} (hfile : file ∈ watch.monitor.watchedFiles)
    (hconsumed : file.consumed = false) (huse : file.inUse = false) :
    watch.calls.length < (watch.run [.wait time, .process]).calls.length := by
  have hready : watch.monitor.ready (watch.clock + time) file = true := by
    simp [FolderMonitor.ready, hconsumed, huse, hdue file hfile]
  have hcalls : (watch.run [.wait time, .process]).calls.length = watch.calls.length +
      (watch.monitor.watchedFiles.filter
        (watch.monitor.ready (watch.clock + time))).length := by
    simp [perform, FolderMonitor.process]
  rw [hcalls]
  exact Nat.lt_add_of_pos_right
    (List.length_pos_of_mem (List.mem_filter.2 ⟨hfile, hready⟩))

/-- A file whose creation is the last event that is read. -/
theorem exists_unused {watch : FolderWatch} (hdescriptor : watch.monitor.descriptor ≠ none)
    (hbuffer : watch.monitor.eventBuffer = eventBuffSize)
    (hfit : ∀ event ∈ watch.pending, event.size ≤ eventBuffSize) :
    ∃ schedule, (watch.run schedule).calls = watch.calls ∧
      ∃ file ∈ (watch.run schedule).monitor.watchedFiles,
        file.consumed = false ∧ file.inUse = false := by
  have hcreated : ∀ event ∈ (watch.perform (.arrive ⟨.inCreate, []⟩)).pending,
      event.size ≤ (watch.perform (.arrive ⟨.inCreate, []⟩)).monitor.eventBuffer := by
    intro event hevent
    rw [eventBuffer_perform, hbuffer]
    rcases List.mem_append.1 hevent with hold | hnew
    · exact hfit event hold
    · obtain rfl := List.mem_singleton.1 hnew
      decide
  have hopen : (watch.perform (.arrive ⟨.inCreate, []⟩)).monitor.descriptor ≠ none :=
    hdescriptor
  obtain ⟨n, hn⟩ := exists_drained hopen hcreated
  refine ⟨.arrive ⟨.inCreate, []⟩ :: List.replicate n .handleIncommingEvents, ?_⟩
  rw [run_cons, hn]
  refine ⟨rfl, { lastAccessTime := watch.clock, path := [] }, ?_, rfl, rfl⟩
  simp [perform, FolderMonitor.parseEvents, FolderMonitor.handleEvent]

/-- After all files that are due have been handed over, the moved monitor calls nobody. -/
theorem calls_moved_run_append {watch : FolderWatch} {time : ℕ} (hdue : watch.DueAfter time)
    (schedule : List WatchAction) :
    (watch.moved.run ([.wait time, .process] ++ schedule)).calls =
      (watch.run [.wait time, .process]).calls := by
  rw [run_append, moved_run (by simp [NothingFitsAtHandle])]
  have hbuffer : (watch.run [.wait time, .process]).moved.monitor.eventBuffer = 0 := rfl
  have hsettled : (watch.run [.wait time, .process]).moved.Settled := settled_process hdue
  exact calls_run_of_settled hbuffer hsettled schedule

/-- Where both monitors call alike in every run, no file becomes due that was not. -/
theorem settled_of_calls_eq {watch : FolderWatch} {time : ℕ} (hdue : watch.DueAfter time)
    (hall : ∀ schedule, (watch.moved.run schedule).calls = (watch.run schedule).calls)
    (schedule : List WatchAction) :
    ((watch.run [.wait time, .process]).run schedule).Settled := by
  intro file hfile
  by_contra hsettled
  rw [not_or, Bool.not_eq_true, Bool.not_eq_true] at hsettled
  -- the original hands this file over after one more wait, and the moved monitor calls nobody
  obtain ⟨later, hlater⟩ := ((watch.run [.wait time, .process]).run schedule).exists_dueAfter
  have hlt := calls_lt_of_unused hlater hfile hsettled.1 hsettled.2
  have hcalls (last : List WatchAction) :
      (((watch.run [.wait time, .process]).run schedule).run last).calls =
        (watch.run [.wait time, .process]).calls := by
    rw [← run_append, ← run_append, ← hall]
    exact calls_moved_run_append hdue (schedule ++ last)
  have hbefore := hcalls []
  rw [run_nil] at hbefore
  rw [hcalls, hbefore] at hlt
  exact Nat.lt_irrefl _ hlt

/-- **Moving a monitor.**  The consumer is called alike in every run in which no call of
`handleIncommingEvents` finds a pending event that fits into the buffer; and that it is
called alike in every run is true only where an event is pending that does not fit, and where
nothing that is read, now or later, makes a file due. -/
theorem moved_calls (watch : FolderWatch) :
    (∀ schedule, NothingFitsAtHandle watch schedule →
        (watch.moved.run schedule).calls = (watch.run schedule).calls) ∧
      (watch.monitor.descriptor ≠ none → watch.monitor.eventBuffer = eventBuffSize →
        (∀ schedule, (watch.moved.run schedule).calls = (watch.run schedule).calls) →
          ∃ event ∈ watch.pending, eventBuffSize < event.size) ∧
      ∀ time, watch.DueAfter time →
        (∀ schedule, (watch.moved.run schedule).calls = (watch.run schedule).calls) →
          ∀ schedule, ((watch.run [.wait time, .process]).run schedule).Settled := by
  refine ⟨fun schedule h => ?_, fun hdescriptor hbuffer hall => ?_,
    fun _ hdue hall => settled_of_calls_eq hdue hall⟩
  · rw [moved_run h]
    rfl
  · by_contra hfit
    simp only [not_exists, not_and, Nat.not_lt] at hfit
    obtain ⟨time, hdue⟩ := watch.exists_dueAfter
    obtain ⟨schedule, -, file, hfile, hconsumed, huse⟩ :=
      @exists_unused (watch.run [.wait time, .process]) hdescriptor hbuffer hfit
    rcases settled_of_calls_eq hdue hall schedule file hfile with hconsumed' | huse'
    · rw [hconsumed] at hconsumed'
      cases hconsumed'
    · rw [huse] at huse'
      cases huse'

/-- An event that does not fit stays the first one, and the monitor reads nothing any more. -/
theorem nothingFitsAtHandle_of_head {watch : FolderWatch} {event : InotifyEvent}
    (hhead : watch.pending.head? = some event) (hbig : watch.monitor.eventBuffer < event.size)
    (schedule : List WatchAction) : NothingFitsAtHandle watch schedule := by
  induction schedule generalizing watch with
  | nil => trivial
  | cons action schedule ih =>
      have hnothing : watch.NothingFits := by
        intro _ first hfirst
        rw [hhead] at hfirst
        cases hfirst
        exact hbig
      refine ⟨fun _ => hnothing, ih ?_ (eventBuffer_perform watch action ▸ hbig)⟩
      cases action with
      | handleIncommingEvents => rw [perform_handle_of_nothingFits hnothing, hhead]
      | arrive later =>
          show (watch.pending ++ [later]).head? = some event
          rw [List.head?_append, hhead, Option.some_or]
      | _ => exact hhead

/-- The monitor has read the events of a file that was written and closed. -/
def readFolder : FolderWatch :=
  (start 3).run (written.take 5)

/-- An event with a name of 64 bytes is pending. -/
def stuckFolder : FolderWatch :=
  (start 3).perform (.arrive ⟨.inCreate, List.replicate eventBuffSize 'n'⟩)

/-- A file whose events were read before the move is handed over by both monitors, and where
the first pending event does not fit they do the same for ever. -/
theorem moved_calls_written :
    ((readFolder.run (written.drop 4)).calls.map ConsumerCall.path = [packageName] ∧
      (readFolder.moved.run (written.drop 4)).calls = (readFolder.run (written.drop 4)).calls) ∧
      (∃ event ∈ stuckFolder.pending, eventBuffSize < event.size) ∧
        ∀ schedule, ((stuckFolder.run [.wait 0, .process]).run schedule).Settled := by
  have hall (schedule : List WatchAction) :
      (stuckFolder.moved.run schedule).calls = (stuckFolder.run schedule).calls :=
    (moved_calls stuckFolder).1 schedule
      (@nothingFitsAtHandle_of_head stuckFolder _ rfl (by decide) schedule)
  refine ⟨⟨by decide, (moved_calls readFolder).1 _ ?_⟩,
    (moved_calls stuckFolder).2.1 (by decide) rfl hall,
    (moved_calls stuckFolder).2.2 0 ?_ hall⟩
  · refine ⟨fun _ _ event hevent => ?_, ?_⟩
    · cases hevent
    · simp [NothingFitsAtHandle]
  · intro file hfile
    cases hfile

/-- A file that is written and closed is handed over by the original only. -/
theorem not_moved_calls : ¬∀ (watch : FolderWatch) schedule,
    (watch.moved.run schedule).calls = (watch.run schedule).calls := by
  intro h
  exact absurd (h (start 3) written) (by decide)

end FolderWatch

end NewCPP.Deployment
