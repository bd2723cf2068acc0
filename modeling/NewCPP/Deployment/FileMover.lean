import Mathlib.Logic.Function.Basic
import Mathlib.Tactic.Common

/-!
# Moving files

`FileMover` of the deployment agent: `rename`, and where that crosses file systems `cp`
and `remove`.

## Design notes

**The disk.**  `files` maps a path to the content of the file there; the modules directory
is kept apart as `modules`.

**What may fail.**  Every call of the operating system succeeds or fails as an outcome
says.  A call on a file that is not there fails whatever the outcome, and a `cp` that
fails leaves at its destination whatever it had written by then.

**The log.**  `log` lists the calls that were made, in order.

**`cp`.**  `copyFile` runs a command of the shell, and is modelled as a copy of exactly the two
paths that it is given.  That is what the shell makes of the command as long as no path has a
single quote or a null character in it (`copyFile_words_iff`); results that rest on it ask for
such names.

**Frames.**  `Touches` says that nothing but the files of a list has changed and that nothing
but file operations was logged.  Each operation has such a lemma, and they compose
(`Touches.trans`), so that what a pipeline leaves alone is read off the list of its paths.
-/

namespace NewCPP.Deployment

universe u v w

/-- The configuration keys that name a command. -/
inductive CommandKey where
  | stopMlplatform
  | configureMlplatform
  | startMlplatform
  deriving DecidableEq

/-- What the deployment asks of the operating system. -/
inductive Action (π : Type u) where
  | command (key : CommandKey)
  | unpack (archive : π)
  | openFile (path : π)
  | remove (path : π)
  | rename (srcPath destPath : π)
  | copy (srcPath destPath : π)

/-- The action is on a file; it is no command and no archive is unpacked. -/
def Action.OnFile {π : Type u} : Action π → Prop
  | .command _ => False
  | .unpack _ => False
  | _ => True

/-- The disk and the calls so far. -/
structure System (π : Type u) (M : Type v) (C : Type w) where
  modules : M
  files : π → Option C
  log : List (Action π) := []

/-- What `rename` returns: 0, or −1 with `errno`. -/
inductive RenameStatus where
  | done
  | exdev
  | error
  deriving DecidableEq

/-- How the calls of one `moveFile` turn out. -/
structure MoveOutcome (C : Type w) where
  removeDest : Bool
  rename : RenameStatus
  copy : Bool
  /-- What a failing `cp` makes of its destination. -/
  torn : Option C → Option C
  removeSrc : Bool

variable {π : Type u} {M : Type v} {C : Type w}

namespace System

/-- An action is noted, whether it succeeds or not. -/
def record (system : System π M C) (action : Action π) : System π M C :=
  { system with log := system.log ++ [action] }

variable [DecidableEq π]

/-- The content of one file is replaced. -/
def setFile (system : System π M C) (path : π) (content : Option C) : System π M C :=
  { system with files := Function.update system.files path content }

/-- `remove`, which may fail. -/
def remove (ok : Bool) (path : π) (system : System π M C) : System π M C :=
  let system := system.record (.remove path)
  if ok then system.setFile path none else system

/-- `rename`, which may fail or find another device. -/
def rename (status : RenameStatus) (srcPath destPath : π) (system : System π M C) :
    RenameStatus × System π M C :=
  let system := system.record (.rename srcPath destPath)
  match system.files srcPath with
  | none => (.error, system)
  | some content =>
      match status with
      | .done => (.done, (system.setFile srcPath none).setFile destPath (some content))
      | .exdev => (.exdev, system)
      | .error => (.error, system)

/-- `copyFile`: `cp -rf`, and the source is removed if that succeeded. -/
def copyFile (outcome : MoveOutcome C) (srcPath destPath : π) (system : System π M C) :
    Bool × System π M C :=
  let system := system.record (.copy srcPath destPath)
  match system.files srcPath with
  | none => (false, system)
  | some content =>
      if outcome.copy then
        (true, (system.setFile destPath (some content)).remove outcome.removeSrc srcPath)
      else (false, system.setFile destPath (outcome.torn (system.files destPath)))

/-- `moveFile`; `overwriteDest` removes the destination first. -/
def moveFile (outcome : MoveOutcome C) (srcPath destPath : π) (overwriteDest : Bool)
    (system : System π M C) : Bool × System π M C :=
  let system := if overwriteDest then system.remove outcome.removeDest destPath else system
  let renamed := system.rename outcome.rename srcPath destPath
  match renamed.1 with
  | .done => (true, renamed.2)
  | .exdev => renamed.2.copyFile outcome srcPath destPath
  | .error => (false, renamed.2)

end System

/-! ## What a move does -/

namespace MoveOutcome

/-- A file with a content, or none, is moved. -/
def Moves (outcome : MoveOutcome C) (source : Option C) : Prop :=
  source.isSome ∧ (outcome.rename = .done ∨ outcome.rename = .exdev ∧ outcome.copy = true)

/-- No call of a move fails, if there is a file to move. -/
def Works (outcome : MoveOutcome C) : Prop :=
  outcome.removeDest = true ∧
    (outcome.rename = .done ∨ outcome.rename = .exdev ∧ outcome.copy = true)

/-- What a move that fails leaves at the destination. -/
def leaves (outcome : MoveOutcome C) (source dest : Option C) : Option C :=
  let removed := if outcome.removeDest then none else dest
  if source.isSome ∧ outcome.rename = .exdev then outcome.torn removed else removed

instance (outcome : MoveOutcome C) (source : Option C) : Decidable (outcome.Moves source) :=
  inferInstanceAs (Decidable (_ ∧ _))

end MoveOutcome

namespace System

variable (system : System π M C)

@[simp] theorem record_files (action : Action π) :
    (system.record action).files = system.files := rfl

@[simp] theorem record_modules (action : Action π) :
    (system.record action).modules = system.modules := rfl

/-- Between two systems only files among `paths` were touched. -/
structure Touches (paths : List π) (system system' : System π M C) : Prop where
  modules : system'.modules = system.modules
  files : ∀ path ∉ paths, system'.files path = system.files path
  log : ∃ actions, system'.log = system.log ++ actions ∧ ∀ action ∈ actions, action.OnFile

theorem Touches.refl (paths : List π) (system : System π M C) : Touches paths system system :=
  ⟨rfl, fun _ _ => rfl, [], by simp, by simp⟩

theorem Touches.trans {paths : List π} {first second third : System π M C}
    (h : Touches paths first second) (h' : Touches paths second third) :
    Touches paths first third := by
  obtain ⟨hmodules, hfiles, actions, hlog, honFile⟩ := h
  obtain ⟨hmodules', hfiles', actions', hlog', honFile'⟩ := h'
  refine ⟨hmodules'.trans hmodules, fun path hpath => ?_, actions ++ actions', ?_, ?_⟩
  · rw [hfiles' path hpath, hfiles path hpath]
  · rw [hlog', hlog, List.append_assoc]
  · rintro action haction
    rcases List.mem_append.1 haction with hfirst | hsecond
    · exact honFile action hfirst
    · exact honFile' action hsecond

/-- More files may be named than were touched. -/
theorem Touches.mono {paths paths' : List π} {system system' : System π M C}
    (h : Touches paths system system') (hsub : paths ⊆ paths') :
    Touches paths' system system' :=
  ⟨h.modules, fun path hpath => h.files path fun hmem => hpath (hsub hmem), h.log⟩

/-- Noting an action touches nothing. -/
theorem touches_record (paths : List π) (system : System π M C) {action : Action π}
    (haction : action.OnFile) : Touches paths system (system.record action) :=
  ⟨rfl, fun _ _ => rfl, [action], rfl, by simpa using haction⟩

variable [DecidableEq π]

@[simp] theorem setFile_files (path : π) (content : Option C) :
    (system.setFile path content).files = Function.update system.files path content := rfl

@[simp] theorem setFile_log (path : π) (content : Option C) :
    (system.setFile path content).log = system.log := rfl

@[simp] theorem remove_log (ok : Bool) (path : π) :
    (system.remove ok path).log = system.log ++ [.remove path] := by
  rw [remove]
  cases ok <;> rfl

/-- A removal that succeeds leaves nothing at the path. -/
theorem remove_files_self (ok : Bool) (path : π) :
    (system.remove ok path).files path = if ok then none else system.files path := by
  rw [remove]
  cases ok
  · rfl
  · simp

/-- A removal leaves the other files alone. -/
theorem remove_files_of_ne (ok : Bool) {path other : π} (hne : other ≠ path) :
    (system.remove ok path).files other = system.files other := by
  rw [remove]
  cases ok
  · rfl
  · simp [hne]

/-- **A move to another path.**  Whether it succeeds, and what it leaves at both paths. -/
theorem moveFile_files (outcome : MoveOutcome C) {srcPath destPath : π}
    (hne : srcPath ≠ destPath) :
    let moved := system.moveFile outcome srcPath destPath true
    (moved.1 = true ↔ outcome.Moves (system.files srcPath)) ∧
      moved.2.files destPath =
        (if outcome.Moves (system.files srcPath) then system.files srcPath
          else outcome.leaves (system.files srcPath) (system.files destPath)) ∧
      moved.2.files srcPath =
        (if outcome.Moves (system.files srcPath) then
          if outcome.rename = .done ∨ outcome.removeSrc then none else system.files srcPath
          else system.files srcPath) := by
  intro moved
  have hsource := system.remove_files_of_ne outcome.removeDest hne
  have hdest := system.remove_files_self outcome.removeDest destPath
  -- the calls after the destination has been removed
  set removed := system.remove outcome.removeDest destPath
  have hmoved : moved = (match (removed.rename outcome.rename srcPath destPath).1 with
      | .done => (true, (removed.rename outcome.rename srcPath destPath).2)
      | .exdev => (removed.rename outcome.rename srcPath destPath).2.copyFile outcome
          srcPath destPath
      | .error => (false, (removed.rename outcome.rename srcPath destPath).2)) := rfl
  rw [hmoved, MoveOutcome.leaves, ← hdest, ← hsource]
  clear hmoved moved
  cases hcontent : removed.files srcPath with
  | none => simp [rename, hcontent, MoveOutcome.Moves]
  | some content =>
      cases hstatus : outcome.rename with
      | done => simp [rename, hcontent, hstatus, hne, MoveOutcome.Moves]
      | error => simp [rename, hcontent, hstatus, MoveOutcome.Moves]
      | exdev =>
          cases hcopy : outcome.copy with
          | true =>
              simp [rename, copyFile, hcontent, hstatus, hcopy, hne, MoveOutcome.Moves,
                remove_files_self, remove_files_of_ne _ _ hne.symm]
          | false =>
              simp [rename, copyFile, hcontent, hstatus, hcopy, hne, MoveOutcome.Moves]

/-! ## What a move leaves alone -/

/-- One file is touched. -/
theorem touches_setFile {paths : List π} (system : System π M C) {path : π}
    (hpath : path ∈ paths) (content : Option C) :
    Touches paths system (system.setFile path content) := by
  refine ⟨rfl, fun other hother => ?_, [], by simp, by simp⟩
  rw [setFile_files, Function.update_of_ne]
  rintro rfl
  exact hother hpath

/-- A removal touches one file. -/
theorem touches_remove {paths : List π} (system : System π M C) (ok : Bool) {path : π}
    (hpath : path ∈ paths) : Touches paths system (system.remove ok path) := by
  have hrecord : Touches paths system (system.record (.remove path)) :=
    touches_record paths system trivial
  rw [remove]
  cases ok
  · exact hrecord
  · exact hrecord.trans (touches_setFile _ hpath none)

/-- A rename touches two. -/
theorem touches_rename (system : System π M C) (status : RenameStatus) (srcPath destPath : π) :
    Touches [srcPath, destPath] system (system.rename status srcPath destPath).2 := by
  have hrecord : Touches [srcPath, destPath] system
      (system.record (.rename srcPath destPath)) := touches_record _ system trivial
  rw [rename]
  split
  · exact hrecord
  · cases status with
    | done =>
        exact (hrecord.trans (touches_setFile _ (by simp) none)).trans
          (touches_setFile _ (by simp) _)
    | exdev => exact hrecord
    | error => exact hrecord

/-- A copy with the removal of its source touches two. -/
theorem touches_copyFile (system : System π M C) (outcome : MoveOutcome C)
    (srcPath destPath : π) :
    Touches [srcPath, destPath] system (system.copyFile outcome srcPath destPath).2 := by
  have hrecord : Touches [srcPath, destPath] system (system.record (.copy srcPath destPath)) :=
    touches_record _ system trivial
  rw [copyFile]
  split
  · exact hrecord
  · split
    · exact (hrecord.trans (touches_setFile _ (by simp) _)).trans
        (touches_remove _ outcome.removeSrc (by simp))
    · exact hrecord.trans (touches_setFile _ (by simp) _)

/-- **A move touches its two paths only.** -/
theorem touches_moveFile (system : System π M C) (outcome : MoveOutcome C)
    (srcPath destPath : π) (overwriteDest : Bool) :
    Touches [srcPath, destPath] system
      (system.moveFile outcome srcPath destPath overwriteDest).2 := by
  have hremove : Touches [srcPath, destPath] system
      (if overwriteDest then system.remove outcome.removeDest destPath else system) := by
    cases overwriteDest with
    | false => exact .refl _ _
    | true => exact touches_remove _ _ (by simp)
  have hrename := hremove.trans (touches_rename _ outcome.rename srcPath destPath)
  rw [moveFile]
  split
  · exact hrename
  · exact hrename.trans (touches_copyFile _ outcome srcPath destPath)
  · exact hrename

end System

end NewCPP.Deployment
