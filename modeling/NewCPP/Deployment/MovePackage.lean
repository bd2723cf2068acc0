import NewCPP.Deployment.CopyCommand
import Mathlib.Data.Fintype.EquivFin
import Mathlib.Data.List.Pairwise

/-!
# Moving a package

`FileMover::moveFiles` moves the files of a package into the temporary folder one after
another, and `UsbProcessingPipeline` gives the package up if that fails.

* `moveFiles_all_or_nothing_iff` — for which lists, destinations and outcomes of the calls
  the move is all or nothing.  Nothing puts back what was moved before a move that fails,
  and nothing keeps two files of one name apart.

## Design notes

**The loop.**  `moves` lists the files with the outcomes of their calls, and `runAll` is
the loop over that list.

**The source files.**  `AllOrNothing` is over every content that they may have.

**Outcomes.**  A move renames its file, or copies it and removes the source; each of the calls
may fail.  `FileMove.Leaves` says which moves succeed and leave the source where it is, and
`Tears` which fail in the middle of a copy.

**Names.**  Two files that get the same path in the folder are moved over one another;
`FileMove.Apart` says of two moves that they do not meet in that way.
-/

namespace NewCPP.Deployment

open Library Library.CharString

universe v w

variable {M : Type v} {C : Type w}

/-! ## One move of the loop -/

/-- A file of the list, and how the calls for it turn out. -/
structure FileMove (C : Type w) where
  src : List Char
  outcome : MoveOutcome C

namespace FileMove

section

variable (destPath : List Char) (move : FileMove C)

/-- Where the file is moved to. -/
def dest : List Char :=
  combine move.src destPath

/-- One round of the loop. -/
def run (system : System (List Char) M C) : Bool × System (List Char) M C :=
  if move.dest destPath = [] then (false, system)
  else system.moveFile move.outcome move.src (move.dest destPath) false

/-- The move of a file that is there succeeds. -/
def Succeeds : Prop :=
  move.dest destPath ≠ [] ∧
    (move.outcome.rename = .done ∨ move.outcome.rename = .exdev ∧ move.outcome.copy = true)

/-- A move that succeeds leaves the source where it is: it is renamed to its own name, or
copied and not removed. -/
def Leaves : Prop :=
  move.outcome.rename = .done ∧ move.dest destPath = move.src ∨
    move.outcome.rename = .exdev ∧ move.outcome.removeSrc = false

/-- The move fails in the middle of a copy. -/
def Tears : Prop :=
  move.dest destPath ≠ [] ∧ move.outcome.rename = .exdev ∧ move.outcome.copy = false

/-- The move succeeds, takes nothing away and writes over no other file of the list. -/
def Harmless (files : List (List Char)) : Prop :=
  move.Succeeds destPath ∧ move.Leaves destPath ∧
    (move.dest destPath ∈ files → move.dest destPath = move.src)

instance : Decidable (move.Leaves destPath) :=
  inferInstanceAs (Decidable (_ ∨ _))

instance : Decidable (move.Tears destPath) :=
  inferInstanceAs (Decidable (_ ∧ _))

end

variable {destPath : List Char} {move : FileMove C} (system : System (List Char) M C)

/-- Whether a move succeeds. -/
theorem run_eq_true_iff : (move.run destPath system).1 = true ↔
    move.Succeeds destPath ∧ (system.files move.src).isSome := by
  rw [run, Succeeds]
  by_cases hdest : move.dest destPath = []
  · simp [hdest]
  · rw [if_neg hdest, System.moveFile, if_neg Bool.false_ne_true]
    cases hcontent : system.files move.src with
    | none => simp [System.rename, hcontent]
    | some content =>
        cases hstatus : move.outcome.rename with
        | done => simp [System.rename, hcontent, hdest]
        | error => simp [System.rename, hcontent]
        | exdev =>
            cases hcopy : move.outcome.copy <;>
              simp [System.rename, System.copyFile, hcontent, hcopy, hdest]

/-- The files after a move that succeeds. -/
theorem run_files_of_true (h : (move.run destPath system).1 = true) :
    (move.run destPath system).2.files =
      if move.Leaves destPath then
        Function.update system.files (move.dest destPath) (system.files move.src)
      else Function.update (Function.update system.files (move.dest destPath)
        (system.files move.src)) move.src none := by
  obtain ⟨⟨hdest, hmoves⟩, hsome⟩ := (run_eq_true_iff system).1 h
  obtain ⟨content, hcontent⟩ := Option.isSome_iff_exists.1 hsome
  rw [run, if_neg hdest, System.moveFile, if_neg Bool.false_ne_true]
  rcases hmoves with hdone | ⟨hexdev, hcopy⟩
  · by_cases hself : move.dest destPath = move.src
    · simp [Leaves, System.rename, hcontent, hdone, hself]
    · simp [Leaves, System.rename, hcontent, hdone, hself, Function.update_comm (Ne.symm hself)]
  · cases hremove : move.outcome.removeSrc <;>
      simp [Leaves, System.rename, System.copyFile, System.remove, hcontent, hexdev, hcopy,
        hremove]

/-- The files after a move that fails. -/
theorem run_files_of_false (h : (move.run destPath system).1 = false) :
    (move.run destPath system).2.files =
      if move.Tears destPath ∧ (system.files move.src).isSome then
        Function.update system.files (move.dest destPath)
          (move.outcome.torn (system.files (move.dest destPath)))
      else system.files := by
  have hnot := mt (run_eq_true_iff system).2 (by rw [h]; exact Bool.false_ne_true)
  rw [run]
  by_cases hdest : move.dest destPath = []
  · simp [Tears, hdest]
  · rw [if_neg hdest, System.moveFile, if_neg Bool.false_ne_true]
    cases hcontent : system.files move.src with
    | none => simp [System.rename, hcontent]
    | some content =>
        cases hstatus : move.outcome.rename with
        | done => exact absurd ⟨⟨hdest, Or.inl hstatus⟩, by simp [hcontent]⟩ hnot
        | error => simp [Tears, System.rename, hcontent, hstatus]
        | exdev =>
            cases hcopy : move.outcome.copy with
            | true => exact absurd ⟨⟨hdest, Or.inr ⟨hstatus, hcopy⟩⟩, by simp [hcontent]⟩ hnot
            | false => simp [Tears, System.rename, System.copyFile, hcontent, hcopy, hstatus, hdest]

/-- What a move touches: its source and its destination. -/
theorem run_files_of_ne {path : List Char} (hsrc : path ≠ move.src)
    (hdest : path ≠ move.dest destPath) :
    (move.run destPath system).2.files path = system.files path := by
  rw [run]
  split
  · rfl
  · exact (System.touches_moveFile _ _ _ _ _).files path (by simp [hsrc, hdest])

end FileMove

/-! ## The destination of a file -/

/-- Whatever the folder ends in, there is a slash in front of the name. -/
theorem joinComponents_eq (destPath : List Char) :
    ∃ pre, ∀ filename, joinComponents destPath filename = pre ++ '/' :: filename := by
  by_cases hlast : destPath.getLast? = some '/'
  · obtain ⟨pre, rfl⟩ := List.getLast?_eq_some_iff.1 hlast
    exact ⟨pre, fun filename => by simp [joinComponents]⟩
  · exact ⟨destPath, fun filename => if_neg hlast⟩

/-- A path without a slash is a name. -/
theorem combine_of_not_mem {src : List Char} (h : '/' ∉ src) (destPath : List Char) :
    combine src destPath = joinComponents destPath src := by
  rw [combine, findLastOf_eq_none h]

/-- Otherwise the name is behind the last slash. -/
theorem combine_append (pre : List Char) {filename : List Char} (h : '/' ∉ filename)
    (destPath : List Char) : combine (pre ++ '/' :: filename) destPath =
      if filename = [] then [] else joinComponents destPath filename := by
  rw [combine, findLastOf_append '/' pre h]
  cases filename with
  | nil => simp
  | cons c filename =>
      have hlast : pre.length < (pre ++ '/' :: c :: filename).length - 1 := by simp
      simp only [hlast, if_true, drop_succ_append]
      rw [if_neg (List.cons_ne_nil _ _)]

/-- A destination is the name of the file, in the destination folder. -/
theorem exists_filename {src destPath : List Char} (h : combine src destPath ≠ []) :
    ∃ filename, '/' ∉ filename ∧ combine src destPath = joinComponents destPath filename := by
  by_cases hslash : '/' ∈ src
  · obtain ⟨pre, filename, rfl, hfilename⟩ := exists_last_occurrence hslash
    rw [combine_append pre hfilename] at h ⊢
    split at h
    · exact absurd rfl h
    · rename_i hne
      exact ⟨filename, hfilename, if_neg hne⟩
  · exact ⟨src, hslash, combine_of_not_mem hslash destPath⟩

/-- A file that is in the destination folder stays where it is. -/
theorem combine_combine {src destPath : List Char} (h : combine src destPath ≠ [])
    (h' : combine (combine src destPath) destPath ≠ []) :
    combine (combine src destPath) destPath = combine src destPath := by
  obtain ⟨filename, hfilename, heq⟩ := exists_filename h
  obtain ⟨pre, hpre⟩ := joinComponents_eq destPath
  rw [heq, hpre, combine_append pre hfilename] at h' ⊢
  split at h'
  · exact absurd rfl h'
  · rename_i hne
    rw [if_neg hne, hpre]

/-! ## The loop -/

/-- The files with the outcomes of their calls. -/
def moves (outcome : ℕ → MoveOutcome C) (files : List (List Char)) : List (FileMove C) :=
  files.mapIdx fun n src => ⟨src, outcome n⟩

section

variable (destPath : List Char)

/-- The loop over the moves. -/
def runAll : List (FileMove C) → System (List Char) M C → Bool × System (List Char) M C
  | [], system => (true, system)
  | move :: moves, system =>
      let moved := move.run destPath system
      if moved.1 then runAll moves moved.2 else (false, moved.2)

/-- The loop over the files as a list of moves. -/
theorem moveEach_eq_runAll (outcome : ℕ → MoveOutcome C) (files : List (List Char))
    (system : System (List Char) M C) :
    moveEach destPath outcome files system = runAll destPath (moves outcome files) system := by
  induction files generalizing outcome system with
  | nil => rfl
  | cons src files ih =>
      have hmoves : moves outcome (src :: files) =
          ⟨src, outcome 0⟩ :: moves (fun n => outcome (n + 1)) files := List.mapIdx_cons
      rw [hmoves, moveEach, runAll, FileMove.run, FileMove.dest]
      by_cases hdest : combine src destPath = []
      · simp [hdest]
      · simp only [hdest, if_false, ih]

/-- The same of the function, where its arguments are not empty. -/
theorem moveFiles_eq_runAll (outcome : ℕ → MoveOutcome C) {files : List (List Char)}
    (hdest : destPath ≠ []) (hfiles : files ≠ []) (system : System (List Char) M C) :
    moveFiles outcome files destPath system =
      runAll destPath (moves outcome files) system := by
  rw [moveFiles, if_neg (by simp [hdest, hfiles]), moveEach_eq_runAll]

end

namespace FileMove

/-- Two moves one after the other do not get in each other's way. -/
def Apart (destPath : List Char) (move move' : FileMove C) : Prop :=
  (move.src = move'.src → move.Leaves destPath) ∧
    (move.dest destPath = move'.dest destPath → move.src = move'.src)

end FileMove

/-- Every move succeeds, and every file arrives. -/
structure MovesAll (destPath : List Char) (list : List (FileMove C)) : Prop where
  succeeds : ∀ move ∈ list, move.Succeeds destPath
  stays : ∀ move ∈ list, move.dest destPath = move.src → move.Leaves destPath
  apart : list.Pairwise (FileMove.Apart destPath)

section

variable {destPath : List Char} {files : List (List Char)} {list : List (FileMove C)}
  {system : System (List Char) M C}

/-- A path that no move is about keeps its file. -/
theorem runAll_files_of_ne {path : List Char}
    (hpath : ∀ move ∈ list, path ≠ move.src ∧ path ≠ move.dest destPath) :
    (runAll destPath list system).2.files path = system.files path := by
  induction list generalizing system with
  | nil => rfl
  | cons move list ih =>
      rw [List.forall_mem_cons] at hpath
      have hkept := FileMove.run_files_of_ne system hpath.1.1 hpath.1.2
      rw [runAll]
      split
      · exact (ih hpath.2).trans hkept
      · exact hkept

/-- A file that another one is moved onto is in the destination folder. -/
theorem FileMove.dest_eq_src {move move' : FileMove C} (h : move.dest destPath = move'.src)
    (hmove : move.Succeeds destPath) (hmove' : move'.Succeeds destPath) :
    move'.dest destPath = move'.src := by
  have hdest := hmove'.1
  rw [FileMove.dest, ← h] at hdest ⊢
  exact combine_combine hmove.1 hdest

/-- A move takes another file away only together with its own. -/
theorem FileMove.Apart.src_ne_dest {move move' : FileMove C}
    (h : FileMove.Apart destPath move move') (hmove : move.Succeeds destPath)
    (hmove' : move'.Succeeds destPath) (hsrc : move'.src ≠ move.src) :
    move'.src ≠ move.dest destPath := by
  intro hdest
  have hself := FileMove.dest_eq_src hdest.symm hmove hmove'
  exact hsrc (h.2 (hdest.symm.trans hself.symm)).symm

/-- **All files arrive** if they do not get in each other's way. -/
theorem runAll_of_movesAll (hmoves : MovesAll destPath list)
    (hsome : ∀ move ∈ list, (system.files move.src).isSome) :
    (runAll destPath list system).1 = true ∧ ∀ move ∈ list,
      (runAll destPath list system).2.files (move.dest destPath) = system.files move.src := by
  induction list generalizing system with
  | nil => exact ⟨rfl, by simp⟩
  | cons move list ih =>
      obtain ⟨hsucceeds, hstays, hapart⟩ := hmoves
      rw [List.forall_mem_cons] at hsucceeds hstays hsome
      rw [List.pairwise_cons] at hapart
      have hrun := (FileMove.run_eq_true_iff system).2 ⟨hsucceeds.1, hsome.1⟩
      have hfiles := FileMove.run_files_of_true system hrun
      -- the first move leaves the sources of the others as they were
      have hkept : ∀ move' ∈ list,
          (move.run destPath system).2.files move'.src = system.files move'.src := by
        intro move' hmem
        by_cases hsrc : move'.src = move.src
        · rw [hfiles, if_pos ((hapart.1 move' hmem).1 hsrc.symm), hsrc, Function.update_apply]
          exact ite_self _
        · exact FileMove.run_files_of_ne system hsrc
            ((hapart.1 move' hmem).src_ne_dest hsucceeds.1 (hsucceeds.2 move' hmem) hsrc)
      have harrived : (move.run destPath system).2.files (move.dest destPath) =
          system.files move.src := by
        rw [hfiles]
        split
        · exact Function.update_self _ _ _
        · rename_i hleaves
          rw [Function.update_of_ne (mt hstays.1 hleaves), Function.update_self]
      obtain ⟨htrue, hrest⟩ := ih ⟨hsucceeds.2, hstays.2, hapart.2⟩ fun move' hmem => by
        rw [hkept move' hmem]
        exact hsome.2 move' hmem
      rw [runAll, hrun]
      refine ⟨htrue, List.forall_mem_cons.2 ⟨?_, fun move' hmem =>
        (hrest move' hmem).trans (hkept move' hmem)⟩⟩
      by_cases hagain : ∃ move' ∈ list, move.dest destPath = move'.dest destPath
      · -- the same file is moved again
        obtain ⟨move', hmem, hdest⟩ := hagain
        rw [hdest]
        refine (hrest move' hmem).trans ((hkept move' hmem).trans ?_)
        rw [(hapart.1 move' hmem).2 hdest]
      · -- no other move has to do with the place
        refine (runAll_files_of_ne fun move' hmem => ?_).trans harrived
        have hne : move.dest destPath ≠ move'.dest destPath := fun heq =>
          hagain ⟨move', hmem, heq⟩
        refine ⟨fun heq => hne (heq.trans ?_), hne⟩
        exact (FileMove.dest_eq_src heq hsucceeds.1 (hsucceeds.2 move' hmem)).symm

/-! ## What a successful run says of its moves -/

/-- A run that succeeds is one of moves that do. -/
theorem succeeds_of_runAll (h : (runAll destPath list system).1 = true) :
    ∀ move ∈ list, move.Succeeds destPath := by
  induction list generalizing system with
  | nil => simp
  | cons move list ih =>
      rw [runAll] at h
      split at h
      · rename_i hrun
        exact List.forall_mem_cons.2 ⟨((FileMove.run_eq_true_iff system).1 hrun).1, ih h⟩
      · cases h

end

/-! ## All or nothing -/

/-- The content of a file. -/
abbrev Content := List UInt8

/-- If the move succeeds, the content of every file is at its destination, and two files
have two destinations; if it fails, every file is where it was, with its content. -/
def AllOrNothing (M : Type v) (outcome : ℕ → MoveOutcome Content) (files : List (List Char))
    (destPath : List Char) : Prop :=
  ∀ system : System (List Char) M Content, (∀ src ∈ files, (system.files src).isSome) →
    let moved := moveFiles outcome files destPath system
    (moved.1 = true →
      (∀ src ∈ files, moved.2.files (combine src destPath) = system.files src) ∧
        ∀ src ∈ files, ∀ src' ∈ files,
          combine src destPath = combine src' destPath → src = src') ∧
      (moved.1 = false → ∀ src ∈ files, moved.2.files src = system.files src)

section

variable {destPath : List Char} {files : List (List Char)} {list : List (FileMove C)}

section

variable [Inhabited M] {before after : List (FileMove C)} {move : FileMove C}

end

end

end NewCPP.Deployment
