import Mathlib.Data.Int.Notation
import Mathlib.Data.List.Basic
import Mathlib.Data.List.Nodup
import Mathlib.Tactic.Common

/-!
# The folder monitor

`FolderMonitor` reads the events of an inotify descriptor and keeps a list of the files of
a folder; `process` hands a file over once it is not in use and nothing has touched it for
a while.

* `Tracks` — what the list of files says about the events read, as an invariant.
* `closedAtCalls_iff` — in which runs no file is handed over that somebody has open.
  `inUse` is cleared by any close, also where others have opened the file.

## Design notes

**Events.**  inotify sets one of the bits of `mask` in an event, so that the mask is an
enumeration.  A name is the `len` bytes behind the event, padding included.

**Reading.**  `read` returns the pending events that fit into the buffer, and fails
without consuming anything if the first one does not.  Of the buffer only its size matters.

**Time.**  The clock counts nanoseconds.  No time passes during a call.

**Histories.**  The events that have been read, and those that have arrived, are kept with
the latest first.
-/

namespace NewCPP.Deployment

/-! ## Events -/

/-- The kinds of events that the monitor tells apart. -/
inductive EventMask where
  | inCreate
  | inDelete
  | inOpen
  | inCloseWrite
  | inCloseNowrite
  | inIgnored
  /-- An event that is not watched for, such as an overflow of the queue. -/
  | other
  deriving DecidableEq

/-- What is left of an `inotify_event`: its kind and the name in the folder. -/
structure InotifyEvent where
  mask : EventMask
  name : List Char
  deriving DecidableEq

/-- `sizeof(inotify_event)`. -/
def inotifyEventSize : ℕ := 16

/-- The bytes that the event takes in a buffer. -/
def InotifyEvent.size (event : InotifyEvent) : ℕ :=
  inotifyEventSize + event.name.length

/-- The events that a `read` of `size` bytes returns, and those that it leaves. -/
def readEvents (size : ℕ) : List InotifyEvent → List InotifyEvent × List InotifyEvent
  | [] => ([], [])
  | event :: pending =>
      if event.size ≤ size then
        let rest := readEvents (size - event.size) pending
        (event :: rest.1, rest.2)
      else ([], event :: pending)

/-! ## The monitor -/

/-- A file of the folder and the time of its last event; it is `consumed` once it was handed
over. -/
structure WatchedFile where
  consumed : Bool := false
  lastAccessTime : ℕ
  inUse : Bool := false
  path : List Char
  deriving DecidableEq

namespace WatchedFile

/-- Of the time since the last access only the whole milliseconds count. -/
def notTouchedIn (file : WatchedFile) (unusedTime : ℤ) (now : ℕ) : Bool :=
  ((now - file.lastAccessTime) / 1000000 : ℕ) > unusedTime

/-- Every event is an access; some of them also say whether the file is in use. -/
def handleStateChange (event : EventMask) (now : ℕ) (file : WatchedFile) : WatchedFile :=
  let file := { file with lastAccessTime := now }
  match event with
  | .inOpen => { file with inUse := true }
  | .inCloseWrite | .inCloseNowrite => { file with inUse := false }
  | _ => file

end WatchedFile

/-- The bytes of the buffer, `EVENT_BUFF_SIZE`. -/
def eventBuffSize : ℕ := inotifyEventSize * 4

/-- The default, in the unit of the clock. -/
def fileReadyTimeout : ℤ := 2 * 1000

/-- The members of the class, without the folder's path and the handler. -/
structure FolderMonitor where
  /-- `none` stands for −1. -/
  descriptor : Option ℕ := none
  fileReadyTimeout : ℤ := fileReadyTimeout
  /-- The size of the buffer. -/
  eventBuffer : ℕ := 0
  watchedFiles : List WatchedFile := []
  deriving DecidableEq

namespace FolderMonitor

/-- The constructor, where inotify returns this descriptor. -/
def create (descriptor : ℕ) : FolderMonitor :=
  { descriptor := some descriptor, eventBuffer := eventBuffSize }

/-- The move constructor: the new monitor, and what it leaves of the other. -/
def move (other : FolderMonitor) : FolderMonitor × FolderMonitor :=
  let monitor : FolderMonitor := { watchedFiles := other.watchedFiles }
  ({ monitor with
      descriptor := other.descriptor
      fileReadyTimeout := other.fileReadyTimeout },
    { other with
      watchedFiles := []
      descriptor := monitor.descriptor
      fileReadyTimeout := monitor.fileReadyTimeout })

/-- A change of the file that `getWatchedFileIterator` finds, if any. -/
def modifyFile (path : List Char) (change : WatchedFile → WatchedFile) :
    List WatchedFile → List WatchedFile
  | [] => []
  | file :: files =>
      if file.path = path then change file :: files
      else file :: modifyFile path change files

/-- One round of the loop of `parseEvents`. -/
def handleEvent (now : ℕ) (monitor : FolderMonitor) (event : InotifyEvent) : FolderMonitor :=
  match event.mask with
  | .inIgnored => monitor
  | .inCreate =>
      { monitor with
        watchedFiles :=
          monitor.watchedFiles ++ [{ lastAccessTime := now, path := event.name }] }
  | .inDelete =>
      { monitor with
        watchedFiles := monitor.watchedFiles.eraseP fun file => file.path = event.name }
  | mask =>
      { monitor with
        watchedFiles := modifyFile event.name (WatchedFile.handleStateChange mask now)
          monitor.watchedFiles }

/-- The events of one read, one after the other. -/
def parseEvents (now : ℕ) (monitor : FolderMonitor) (events : List InotifyEvent) :
    FolderMonitor :=
  events.foldl (handleEvent now) monitor

/-- What `read` returns to the monitor, and what stays pending. -/
def incoming (monitor : FolderMonitor) (pending : List InotifyEvent) :
    List InotifyEvent × List InotifyEvent :=
  match monitor.descriptor with
  | none => ([], pending)
  | some _ => readEvents monitor.eventBuffer pending

/-- One read and the events it brought. -/
def handleIncommingEvents (now : ℕ) (monitor : FolderMonitor) (pending : List InotifyEvent) :
    FolderMonitor :=
  monitor.parseEvents now (monitor.incoming pending).1

/-- The test that `process` makes. -/
def ready (monitor : FolderMonitor) (now : ℕ) (file : WatchedFile) : Bool :=
  !file.consumed && !file.inUse && file.notTouchedIn monitor.fileReadyTimeout now

/-- `process`: the paths that it passes to the consumer, and the monitor after it. -/
def process (now : ℕ) (monitor : FolderMonitor) : List (List Char) × FolderMonitor :=
  ((monitor.watchedFiles.filter (monitor.ready now)).map WatchedFile.path,
    { monitor with
      watchedFiles := monitor.watchedFiles.map fun file =>
        if monitor.ready now file then { file with consumed := true } else file })

end FolderMonitor

/-! ## Runs -/

/-- A call of the consumer, and the events that have arrived by then. -/
structure ConsumerCall where
  path : List Char
  arrived : List InotifyEvent
  deriving DecidableEq

/-- The monitor at its folder. -/
structure FolderWatch where
  clock : ℕ := 0
  monitor : FolderMonitor
  /-- The events that the kernel holds for the descriptor, in order. -/
  pending : List InotifyEvent := []
  /-- The events that have been read. -/
  read : List InotifyEvent := []
  calls : List ConsumerCall := []
  deriving DecidableEq

/-- What happens to a watched folder: events arrive, time passes, and the owner makes calls. -/
inductive WatchAction where
  | arrive (event : InotifyEvent)
  | wait (time : ℕ)
  | setFileReadyTimeout (timeout : ℤ)
  | handleIncommingEvents
  | process
  deriving DecidableEq

namespace FolderWatch

/-- All events that have arrived, the last one first. -/
def arrived (watch : FolderWatch) : List InotifyEvent :=
  watch.pending.reverse ++ watch.read

/-- What one of these actions does. -/
def perform (watch : FolderWatch) : WatchAction → FolderWatch
  | .arrive event => { watch with pending := watch.pending ++ [event] }
  | .wait time => { watch with clock := watch.clock + time }
  | .setFileReadyTimeout timeout =>
      { watch with monitor := { watch.monitor with fileReadyTimeout := timeout } }
  | .handleIncommingEvents =>
      let incoming := watch.monitor.incoming watch.pending
      { watch with
        monitor := watch.monitor.handleIncommingEvents watch.clock watch.pending
        pending := incoming.2
        read := incoming.1.reverse ++ watch.read }
  | .process =>
      let processed := watch.monitor.process watch.clock
      { watch with
        monitor := processed.2
        calls := watch.calls ++ processed.1.map fun path => ⟨path, watch.arrived⟩ }

/-- What a list of them does. -/
def run (watch : FolderWatch) (schedule : List WatchAction) : FolderWatch :=
  schedule.foldl perform watch

@[simp] theorem run_nil (watch : FolderWatch) : watch.run [] = watch := rfl

@[simp] theorem run_cons (watch : FolderWatch) (action : WatchAction)
    (schedule : List WatchAction) :
    watch.run (action :: schedule) = (watch.perform action).run schedule := rfl

theorem run_append (watch : FolderWatch) (first second : List WatchAction) :
    watch.run (first ++ second) = (watch.run first).run second :=
  List.foldl_append

end FolderWatch

/-! ## Histories of a path -/

/-- Somebody opened the file. -/
def EventMask.isOpen (mask : EventMask) : Bool :=
  mask = .inOpen

/-- `mask & IN_CLOSE`. -/
def EventMask.isClose (mask : EventMask) : Bool :=
  mask = .inCloseWrite || mask = .inCloseNowrite

/-- The events of a kind for the path since it was created. -/
def countSince (kind : EventMask → Bool) (path : List Char) : List InotifyEvent → ℕ
  | [] => 0
  | event :: history =>
      if event.name ≠ path then countSince kind path history
      else if event.mask = .inCreate then 0
      else countSince kind path history + if kind event.mask then 1 else 0

/-- How often a file was opened since it was created. -/
def opens : List Char → List InotifyEvent → ℕ :=
  countSince EventMask.isOpen

/-- How often it was closed since then. -/
def closes : List Char → List InotifyEvent → ℕ :=
  countSince EventMask.isClose

/-- The latest of the events that open, close or create the file is an `IN_OPEN`. -/
def lastOpened (path : List Char) : List InotifyEvent → Bool
  | [] => false
  | event :: history =>
      if event.name ≠ path then lastOpened path history
      else
        match event.mask with
        | .inOpen => true
        | .inCloseWrite | .inCloseNowrite | .inCreate => false
        | _ => lastOpened path history

/-- The latest of the events that create or delete the file is an `IN_CREATE`. -/
def inFolder (path : List Char) : List InotifyEvent → Bool
  | [] => false
  | event :: history =>
      if event.name ≠ path then inFolder path history
      else
        match event.mask with
        | .inCreate => true
        | .inDelete => false
        | _ => inFolder path history

/-- No path is created a second time before it is deleted. -/
def CreatedOnce : List InotifyEvent → Prop
  | [] => True
  | event :: history =>
      (event.mask = .inCreate → inFolder event.name history = false) ∧ CreatedOnce history

instance decidableCreatedOnce : ∀ history, Decidable (CreatedOnce history)
  | [] => inferInstanceAs (Decidable True)
  | _ :: history =>
      have := decidableCreatedOnce history
      inferInstanceAs (Decidable (_ ∧ _))

/-- What held of a longer history held before. -/
theorem CreatedOnce.of_append {later history : List InotifyEvent}
    (h : CreatedOnce (later ++ history)) : CreatedOnce history := by
  induction later with
  | nil => exact h
  | cons event later ih => exact ih h.2

/-! ## The list of files -/

/-- The files are those that are in the folder, each once, and `inUse` says whether the
latest that happened to one is that it was opened. -/
structure Tracks (history : List InotifyEvent) (files : List WatchedFile) : Prop where
  nodup : (files.map WatchedFile.path).Nodup
  present : ∀ path ∈ files.map WatchedFile.path, inFolder path history = true
  inUse : ∀ file ∈ files, file.inUse = lastOpened file.path history

namespace FolderMonitor

/-- What changes a file leaves its path. -/
theorem map_path_modifyFile {change : WatchedFile → WatchedFile}
    (h : ∀ file, (change file).path = file.path) (path : List Char)
    (files : List WatchedFile) :
    (modifyFile path change files).map WatchedFile.path = files.map WatchedFile.path := by
  induction files with
  | nil => rfl
  | cons file files ih =>
      rw [modifyFile]
      split
      · simp [h]
      · simp [ih]

/-- Where paths do not repeat, the file with the path is changed and no other. -/
theorem mem_modifyFile {change : WatchedFile → WatchedFile} {path : List Char}
    {files : List WatchedFile} (hnodup : (files.map WatchedFile.path).Nodup)
    {file : WatchedFile} (h : file ∈ modifyFile path change files) :
    (∃ old ∈ files, old.path = path ∧ file = change old) ∨ file ∈ files ∧ file.path ≠ path := by
  induction files with
  | nil => cases h
  | cons head files ih =>
      rw [List.map_cons, List.nodup_cons] at hnodup
      rw [modifyFile] at h
      split at h
      · rename_i hpath
        rcases List.mem_cons.1 h with rfl | hmem
        · exact Or.inl ⟨head, List.mem_cons_self, hpath, rfl⟩
        · refine Or.inr ⟨List.mem_cons_of_mem _ hmem, fun heq => hnodup.1 ?_⟩
          rw [hpath, ← heq]
          exact List.mem_map_of_mem hmem
      · rename_i hpath
        rcases List.mem_cons.1 h with rfl | hmem
        · exact Or.inr ⟨List.mem_cons_self, hpath⟩
        · refine (ih hnodup.2 hmem).imp ?_ fun hold => ⟨List.mem_cons_of_mem _ hold.1, hold.2⟩
          rintro ⟨old, hold, heq⟩
          exact ⟨old, List.mem_cons_of_mem _ hold, heq⟩

/-- Where paths do not repeat, no file with the path is left. -/
theorem mem_eraseP_path {path : List Char} {files : List WatchedFile}
    (hnodup : (files.map WatchedFile.path).Nodup) {file : WatchedFile}
    (h : file ∈ files.eraseP fun file => file.path = path) : file ∈ files ∧ file.path ≠ path := by
  refine ⟨List.mem_of_mem_eraseP h, ?_⟩
  rintro rfl
  induction files with
  | nil => cases h
  | cons head files ih =>
      rw [List.map_cons, List.nodup_cons] at hnodup
      rw [List.eraseP_cons] at h
      by_cases hpath : head.path = file.path
      · simp only [hpath, decide_true, cond_true] at h
        exact hnodup.1 (hpath ▸ List.mem_map_of_mem h)
      · simp only [hpath, decide_false, cond_false] at h
        rcases List.mem_cons.1 h with rfl | hmem
        · exact hpath rfl
        · exact ih hnodup.2 hmem

end FolderMonitor

/-- An event about another file changes nothing about this one. -/
theorem inFolder_of_ne {event : InotifyEvent} {path : List Char} (h : event.name ≠ path)
    (history : List InotifyEvent) : inFolder path (event :: history) = inFolder path history :=
  if_pos h

/-- Nor does it say whether this one is open. -/
theorem lastOpened_of_ne {event : InotifyEvent} {path : List Char} (h : event.name ≠ path)
    (history : List InotifyEvent) :
    lastOpened path (event :: history) = lastOpened path history :=
  if_pos h

namespace Tracks

variable {history : List InotifyEvent} {files : List WatchedFile}

theorem nil (history : List InotifyEvent) : Tracks history [] :=
  ⟨List.nodup_nil, by simp, by simp⟩

theorem ignored (h : Tracks history files) {event : InotifyEvent}
    (hmask : event.mask = .inIgnored) : Tracks (event :: history) files := by
  refine ⟨h.nodup, fun path hpath => ?_, fun file hfile => ?_⟩
  · rw [← h.present path hpath]
    simp [inFolder, hmask]
  · rw [h.inUse file hfile]
    simp [lastOpened, hmask]

/-- A new file is watched from its creation on. -/
theorem create (h : Tracks history files) {event : InotifyEvent} (now : ℕ)
    (hmask : event.mask = .inCreate) (hfresh : inFolder event.name history = false) :
    Tracks (event :: history)
      (files ++ [{ lastAccessTime := now, path := event.name }]) := by
  have hnew : event.name ∉ files.map WatchedFile.path := by
    intro hmem
    rw [h.present _ hmem] at hfresh
    cases hfresh
  have hne {path : List Char} (hpath : path ∈ files.map WatchedFile.path) :
      event.name ≠ path := by
    rintro rfl
    exact hnew hpath
  constructor
  · rw [List.map_append, List.nodup_append]
    refine ⟨h.nodup, List.nodup_singleton _, fun path hpath last hlast => ?_⟩
    obtain rfl : last = event.name := by simpa using hlast
    exact (hne hpath).symm
  · intro path hpath
    rw [List.map_append, List.mem_append] at hpath
    rcases hpath with hold | hlast
    · rw [inFolder_of_ne (hne hold)]
      exact h.present path hold
    · obtain rfl : path = event.name := by simpa using hlast
      simp [inFolder, hmask]
  · intro file hfile
    rcases List.mem_append.1 hfile with hold | hlast
    · rw [lastOpened_of_ne (hne (List.mem_map_of_mem hold))]
      exact h.inUse file hold
    · obtain rfl := List.mem_singleton.1 hlast
      simp [lastOpened, hmask]

/-- A file that is no longer watched is no longer tracked. -/
theorem erase (h : Tracks history files) (event : InotifyEvent) : Tracks (event :: history)
      (files.eraseP fun file => file.path = event.name) := by
  refine ⟨h.nodup.sublist (List.eraseP_sublist.map _), fun path hpath => ?_,
    fun file hfile => ?_⟩
  · obtain ⟨file, hfile, rfl⟩ := List.mem_map.1 hpath
    obtain ⟨hmem, hne⟩ := FolderMonitor.mem_eraseP_path h.nodup hfile
    rw [inFolder_of_ne hne.symm]
    exact h.present _ (List.mem_map_of_mem hmem)
  · obtain ⟨hmem, hne⟩ := FolderMonitor.mem_eraseP_path h.nodup hfile
    rw [lastOpened_of_ne hne.symm]
    exact h.inUse file hmem

theorem path_handleStateChange (mask : EventMask) (now : ℕ) (file : WatchedFile) :
    (file.handleStateChange mask now).path = file.path := by
  cases mask <;> rfl

/-- The other events change the file that they name. -/
theorem change (h : Tracks history files) {event : InotifyEvent} (now : ℕ)
    (hcreate : event.mask ≠ .inCreate) (hdelete : event.mask ≠ .inDelete) :
    Tracks (event :: history)
      (FolderMonitor.modifyFile event.name
        (WatchedFile.handleStateChange event.mask now) files) := by
  have hpaths := FolderMonitor.map_path_modifyFile (path_handleStateChange event.mask now)
    event.name files
  refine ⟨hpaths ▸ h.nodup, fun path hpath => ?_, fun file hfile => ?_⟩
  · rw [hpaths] at hpath
    rw [← h.present path hpath, inFolder]
    cases hmask : event.mask <;> simp_all
  · rcases FolderMonitor.mem_modifyFile h.nodup hfile with ⟨old, hold, hpath, rfl⟩ | ⟨hold, hne⟩
    · have huse := h.inUse old hold
      rw [path_handleStateChange, hpath, lastOpened, if_neg (not_not.2 rfl), ← hpath, ← huse]
      cases hmask : event.mask with
      | inCreate => exact absurd hmask hcreate
      | inDelete => exact absurd hmask hdelete
      | inOpen => rfl
      | inCloseWrite => rfl
      | inCloseNowrite => rfl
      | inIgnored => rfl
      | other => rfl
    · rw [lastOpened_of_ne hne.symm]
      exact h.inUse file hold

/-- What an event does to the list of files. -/
theorem handleEvent {monitor : FolderMonitor} (h : Tracks history monitor.watchedFiles)
    (now : ℕ) {event : InotifyEvent} (honce : CreatedOnce (event :: history)) :
    Tracks (event :: history) (monitor.handleEvent now event).watchedFiles := by
  rw [FolderMonitor.handleEvent]
  split
  · rename_i hmask
    exact h.ignored hmask
  · rename_i hmask
    exact h.create now hmask (honce.1 hmask)
  · exact h.erase event
  · rename_i hcreate hdelete
    exact h.change now hcreate hdelete

/-- One read of several events. -/
theorem parseEvents {monitor : FolderMonitor} (h : Tracks history monitor.watchedFiles)
    (now : ℕ) {events : List InotifyEvent}
    (honce : CreatedOnce (events.reverse ++ history)) :
    Tracks (events.reverse ++ history) (monitor.parseEvents now events).watchedFiles := by
  induction events generalizing monitor history with
  | nil => exact h
  | cons event events ih =>
      rw [List.reverse_cons, List.append_assoc, List.singleton_append] at honce ⊢
      exact ih (h.handleEvent now honce.of_append) honce

/-- Handing files over changes none of what is tracked. -/
theorem process {monitor : FolderMonitor} (h : Tracks history monitor.watchedFiles)
    (now : ℕ) : Tracks history (monitor.process now).2.watchedFiles := by
  have hpaths : (monitor.process now).2.watchedFiles.map WatchedFile.path =
      monitor.watchedFiles.map WatchedFile.path := by
    simp only [FolderMonitor.process, List.map_map]
    refine List.map_congr_left fun file _ => ?_
    simp only [Function.comp]
    split <;> rfl
  refine ⟨hpaths ▸ h.nodup, fun path hpath => h.present path (hpaths ▸ hpath),
    fun file hfile => ?_⟩
  obtain ⟨old, hold, rfl⟩ := List.mem_map.1 hfile
  have huse := h.inUse old hold
  split <;> exact huse

end Tracks

/-! ## Handing over -/

/-- A read takes events from the front and leaves the rest. -/
theorem readEvents_append (size : ℕ) (pending : List InotifyEvent) :
    (readEvents size pending).1 ++ (readEvents size pending).2 = pending := by
  induction pending generalizing size with
  | nil => rfl
  | cons event pending ih =>
      rw [readEvents]
      split
      · exact congrArg (event :: ·) (ih _)
      · rfl

theorem FolderMonitor.incoming_append (monitor : FolderMonitor) (pending : List InotifyEvent) :
    (monitor.incoming pending).1 ++ (monitor.incoming pending).2 = pending := by
  rw [incoming]
  split
  · rfl
  · exact readEvents_append _ pending

namespace FolderWatch

/-- The monitor of a new object at its folder. -/
def start (descriptor : ℕ) : FolderWatch :=
  { monitor := FolderMonitor.create descriptor }

/-- Reading events does not make any arrive. -/
theorem arrived_handleIncommingEvents (watch : FolderWatch) :
    (watch.perform .handleIncommingEvents).arrived = watch.arrived := by
  simp only [arrived, perform]
  rw [← List.append_assoc, ← List.reverse_append, FolderMonitor.incoming_append]

/-- What has arrived stays arrived. -/
theorem arrived_perform (watch : FolderWatch) (action : WatchAction) :
    ∃ later, (watch.perform action).arrived = later ++ watch.arrived := by
  cases action with
  | arrive event => exact ⟨[event], by simp [arrived, perform]⟩
  | wait time => exact ⟨[], rfl⟩
  | setFileReadyTimeout timeout => exact ⟨[], rfl⟩
  | handleIncommingEvents => exact ⟨[], watch.arrived_handleIncommingEvents⟩
  | process => exact ⟨[], rfl⟩

theorem arrived_run (watch : FolderWatch) (schedule : List WatchAction) :
    ∃ later, (watch.run schedule).arrived = later ++ watch.arrived := by
  induction schedule generalizing watch with
  | nil => exact ⟨[], rfl⟩
  | cons action schedule ih =>
      obtain ⟨first, hfirst⟩ := watch.arrived_perform action
      obtain ⟨later, hlater⟩ := ih (watch.perform action)
      refine ⟨later ++ first, ?_⟩
      rw [run_cons, hlater, hfirst, List.append_assoc]

/-- What every action preserves. -/
theorem tracks_perform {watch : FolderWatch}
    (h : Tracks watch.read watch.monitor.watchedFiles) (action : WatchAction)
    (honce : CreatedOnce (watch.perform action).arrived) :
    Tracks (watch.perform action).read (watch.perform action).monitor.watchedFiles := by
  cases action with
  | arrive event => exact h
  | wait time => exact h
  | setFileReadyTimeout timeout => exact h
  | handleIncommingEvents => exact h.parseEvents watch.clock honce.of_append
  | process => exact h.process watch.clock

/-- Every call of the consumer was for a path with no more `IN_OPEN` than `IN_CLOSE` events
since its creation. -/
def ClosedAtCalls (watch : FolderWatch) : Prop :=
  ∀ call ∈ watch.calls, opens call.path call.arrived ≤ closes call.path call.arrived

/-- Of the files that are due, those with an opener left were opened last: the latest that
was read of them is an `IN_OPEN`. -/
def OpenersLast (watch : FolderWatch) : Prop :=
  ∀ file ∈ watch.monitor.watchedFiles, file.consumed = false →
    file.notTouchedIn watch.monitor.fileReadyTimeout watch.clock = true →
      closes file.path watch.arrived < opens file.path watch.arrived →
        lastOpened file.path watch.read = true

/-- The condition, at every call of `process` in a run. -/
def OpenersLastAtProcess : FolderWatch → List WatchAction → Prop
  | _, [] => True
  | watch, action :: schedule =>
      (action = .process → watch.OpenersLast) ∧
        OpenersLastAtProcess (watch.perform action) schedule

/-- A call of `process` hands over no open file exactly where the condition holds. -/
theorem closedAtCalls_process_iff {watch : FolderWatch}
    (h : Tracks watch.read watch.monitor.watchedFiles) :
    (watch.perform .process).ClosedAtCalls ↔ watch.ClosedAtCalls ∧ watch.OpenersLast := by
  have hready (file : WatchedFile) (hfile : file ∈ watch.monitor.watchedFiles) :
      watch.monitor.ready watch.clock file = true ↔
        file.consumed = false ∧
          file.notTouchedIn watch.monitor.fileReadyTimeout watch.clock = true ∧
            lastOpened file.path watch.read = false := by
    rw [FolderMonitor.ready, h.inUse file hfile]
    simp [and_assoc, and_comm]
  simp only [ClosedAtCalls, perform, FolderMonitor.process, List.map_map, List.mem_append,
    List.mem_map, List.mem_filter, Function.comp]
  constructor
  · intro hall
    refine ⟨fun call hcall => hall call (Or.inl hcall), ?_⟩
    intro file hfile hconsumed htouched hopen
    by_contra hlast
    rw [Bool.not_eq_true] at hlast
    have hcall := hall ⟨file.path, watch.arrived⟩
      (Or.inr ⟨file, ⟨hfile, (hready file hfile).2 ⟨hconsumed, htouched, hlast⟩⟩, rfl⟩)
    exact absurd hopen (Nat.not_lt.2 hcall)
  · rintro ⟨hcalls, hlast⟩ call (hcall | ⟨file, ⟨hfile, hfileReady⟩, rfl⟩)
    · exact hcalls call hcall
    · obtain ⟨hconsumed, htouched, hclosed⟩ := (hready file hfile).1 hfileReady
      by_contra hopen
      rw [hlast file hfile hconsumed htouched (Nat.lt_of_not_le hopen)] at hclosed
      cases hclosed

/-- From any state that tracks its events, not only from the start. -/
theorem closedAtCalls_run_iff {watch : FolderWatch}
    (h : Tracks watch.read watch.monitor.watchedFiles) {schedule : List WatchAction}
    (honce : CreatedOnce (watch.run schedule).arrived) :
    (watch.run schedule).ClosedAtCalls ↔
      watch.ClosedAtCalls ∧ OpenersLastAtProcess watch schedule := by
  induction schedule generalizing watch with
  | nil => simp [OpenersLastAtProcess]
  | cons action schedule ih =>
      have hnow : CreatedOnce (watch.perform action).arrived := by
        obtain ⟨later, hlater⟩ := (watch.perform action).arrived_run schedule
        rw [run_cons, hlater] at honce
        exact honce.of_append
      rw [run_cons, ih (tracks_perform h action hnow) honce, OpenersLastAtProcess]
      cases action with
      | process => simp [closedAtCalls_process_iff h, and_assoc]
      | arrive event => simp [ClosedAtCalls, perform]
      | wait time => simp [ClosedAtCalls, perform]
      | setFileReadyTimeout timeout => simp [ClosedAtCalls, perform]
      | handleIncommingEvents => simp [ClosedAtCalls, perform]

/-- **Only closed files are handed over** in exactly those runs in which, at every call of
`process`, no file that is due has an opener left behind a later close or an unread open.
That the inotify events create no path twice without deleting it between is assumed: the
second of two files with one path would see none of its events. -/
theorem closedAtCalls_iff (descriptor : ℕ) (schedule : List WatchAction)
    (honce : CreatedOnce ((start descriptor).run schedule).arrived) :
    ((start descriptor).run schedule).ClosedAtCalls ↔
      OpenersLastAtProcess (start descriptor) schedule := by
  rw [closedAtCalls_run_iff (Tracks.nil _) honce]
  have hstart : (start descriptor).ClosedAtCalls := by
    intro call hcall
    cases hcall
  exact and_iff_right hstart

instance (watch : FolderWatch) : Decidable watch.ClosedAtCalls :=
  inferInstanceAs (Decidable (∀ _ ∈ _, _))

instance (watch : FolderWatch) : Decidable watch.OpenersLast :=
  inferInstanceAs (Decidable (∀ _ ∈ _, _))

instance decidableOpenersLastAtProcess :
    ∀ watch schedule, Decidable (OpenersLastAtProcess watch schedule)
  | _, [] => inferInstanceAs (Decidable True)
  | watch, action :: schedule =>
      have := decidableOpenersLastAtProcess (watch.perform action) schedule
      inferInstanceAs (Decidable (_ ∧ _))

/-- A name as inotify pads it. -/
def packageName : List Char :=
  'p' :: List.replicate 15 '\x00'

/-- A file is written and closed. -/
def written : List WatchAction :=
  [.arrive ⟨.inCreate, packageName⟩, .arrive ⟨.inOpen, packageName⟩,
    .arrive ⟨.inCloseWrite, packageName⟩, .handleIncommingEvents, .handleIncommingEvents,
    .wait 3000000000, .process]

/-- A file that one process still writes has been looked at by another.  The kernel merges an
event with an identical one before it, so that the first two are read before the third. -/
def lookedAt : List WatchAction :=
  [.arrive ⟨.inCreate, packageName⟩, .arrive ⟨.inOpen, packageName⟩, .handleIncommingEvents,
    .arrive ⟨.inOpen, packageName⟩, .arrive ⟨.inCloseNowrite, packageName⟩,
    .handleIncommingEvents, .wait 3000000000, .process]

/-- A package that was written, closed and handed over. -/
theorem closedAtCalls_written :
    ((start 3).run written).calls.map ConsumerCall.path = [packageName] ∧
      ((start 3).run written).ClosedAtCalls :=
  ⟨by decide, (closedAtCalls_iff 3 written (by decide)).2 (by decide)⟩

/-- The second close clears `inUse`, and the file is handed over as it is written. -/
theorem not_closedAtCalls_lookedAt : ¬∀ descriptor schedule,
    ((start descriptor).run schedule).ClosedAtCalls := by
  intro h
  exact absurd (h 3 lookedAt) (by decide)

end FolderWatch

end NewCPP.Deployment
