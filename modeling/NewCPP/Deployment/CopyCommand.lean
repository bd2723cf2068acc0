import NewCPP.Deployment.FileMover
import NewCPP.Library.CharString
import NewCPP.Library.Shell
import Mathlib.Data.List.TakeWhile

/-!
# The copy command

`FileMover::moveFiles`, and the command line with which `copyFile` copies a file to
another file system: `system` passes it to the shell, with each path between single quotes.

* `copyFile_words_iff` — for which paths the shell reads the four words of a copy.
* `moveFiles_copies` — which paths `moveFiles` passes to `copyFile`.
* `moveFiles_words` — it runs copies only, where no name holds a quote.

## Design notes

**Paths.**  A path is a list of characters other than the null character, up to which
`c_str` would cut it off.

**Outcomes.**  `outcome n` says how the calls for the file at place `n` turn out.

**The shell** is that of `Library.Shell`: it takes a line apart into words, and single quotes
keep everything but another quote.  The condition of `copyFile_words_iff` is exact, since a
quote in a path ends the quotation of the command.

**What is run.**  Words are what a program is started with; what `cp` does with them is the
business of `FileMover`, which this module connects to the commands.
-/

namespace NewCPP.Deployment

open Library Library.CharString

universe v w

variable {M : Type v} {C : Type w}

/-! ## The command line -/

/-- What the shell gets of the command that `SystemCmdExecutor` hands to `system`. -/
def systemCmd (cmd : List Char) : List Char :=
  cmd.takeWhile (· ≠ '\x00')

/-- The command of `copyFile`. -/
def copyCommand (srcPath destPath : List Char) : List Char :=
  "cp -rf '".toList ++ srcPath ++ "' '".toList ++ destPath ++ "'".toList

/-- The operating system and the shell take the path as it is. -/
def Plain (path : List Char) : Prop :=
  '\x00' ∉ path ∧ '\'' ∉ path

instance (path : List Char) : Decidable (Plain path) :=
  inferInstanceAs (Decidable (_ ∧ _))

/-- Without a null character `system` gets the whole command. -/
theorem systemCmd_of_not_mem {cmd : List Char} (h : '\x00' ∉ cmd) : systemCmd cmd = cmd := by
  rw [systemCmd, List.takeWhile_eq_self_iff]
  intro c hc
  rw [decide_eq_true_iff]
  rintro rfl
  exact h hc

/-- The command with its characters written out. -/
theorem copyCommand_eq (srcPath destPath : List Char) : copyCommand srcPath destPath =
    "cp -rf ".toList ++ '\'' :: (srcPath ++ '\'' :: ' ' :: '\'' :: (destPath ++ ['\''])) := by
  unfold copyCommand
  simp

/-- The words of a copy of one path to another. -/
def copyWords (srcPath destPath : List Char) : List Shell.Token :=
  [Shell.plain "cp".toList, Shell.plain "-rf".toList, Shell.plain srcPath,
    Shell.plain destPath]

/-- The size of the four words of the command. -/
theorem size_copyWords (srcPath destPath : List Char) :
    Shell.size (copyWords srcPath destPath) = srcPath.length + destPath.length + 9 := by
  unfold copyWords
  simp [Shell.size, Shell.plain, Shell.Token.size]
  omega

/-- The tokens that do not depend on the paths. -/
def optionTokens : List Shell.Token :=
  [.word [.literal 'c', .literal 'p'], .word [.literal '-', .literal 'r', .literal 'f']]

/-- The shell has read the command's name and its options. -/
theorem read_options : Shell.Reader.read {} "cp -rf ".toList = { tokens := optionTokens } := by
  decide

/-- The reader behind the first path, or behind a quote in it. -/
theorem read_source {text : List Char} (h : '\'' ∉ text) :
    Shell.Reader.read {} ("cp -rf ".toList ++ '\'' :: (text ++ ['\''])) =
      { mode := .word, pieces := text.map .literal, tokens := optionTokens } := by
  rw [Shell.Reader.read_append, read_options, Shell.Reader.read_quoted (Or.inl rfl) h]
  rfl

/-- The reader behind the second path, or behind a quote in it. -/
theorem read_dest {srcPath text : List Char} (hsrc : '\'' ∉ srcPath) (h : '\'' ∉ text) :
    Shell.Reader.read {} ("cp -rf ".toList ++ '\'' :: (srcPath ++ ['\'']) ++
        ' ' :: '\'' :: (text ++ ['\''])) =
      { mode := .word
        pieces := text.map .literal
        tokens := optionTokens ++ [Shell.plain srcPath] } := by
  rw [Shell.Reader.read_append, read_source hsrc, Shell.Reader.read_cons,
    Shell.Reader.step_blank rfl, Shell.Reader.read_quoted (Or.inl rfl) h]
  rfl

/-- Between quotes that they do not hold the paths are read as they are. -/
theorem tokens_copyCommand {srcPath destPath : List Char} (hsrc : '\'' ∉ srcPath)
    (hdest : '\'' ∉ destPath) :
    Shell.tokens (copyCommand srcPath destPath) = some (copyWords srcPath destPath) := by
  let words : List Shell.Written :=
    [.bare "cp".toList, .bare "-rf".toList, .quoted srcPath, .quoted destPath]
  have hline : copyCommand srcPath destPath = Shell.line words := by
    unfold copyCommand
    simp [words, Shell.line, Shell.Written.render]
  have hreadable : ∀ word ∈ words, word.Readable := by
    simp only [words, List.forall_mem_cons, List.not_mem_nil, false_imp_iff, implies_true,
      Shell.Written.Readable, hsrc, hdest, not_false_eq_true, ← List.all_eq_true]
    decide
  rw [hline]
  exact Shell.tokens_line hreadable

/-- A quote in the first path ends its word: the quotes that follow cost too much for the
rest to give what is missing of the two paths. -/
theorem tokens_ne_of_source {front rest : List Char} (hfront : '\'' ∉ front)
    (destPath : List Char) :
    Shell.tokens (copyCommand (front ++ '\'' :: rest) destPath) ≠
      some (copyWords (front ++ '\'' :: rest) destPath) := by
  intro h
  have hline : copyCommand (front ++ '\'' :: rest) destPath =
      "cp -rf ".toList ++ '\'' :: (front ++ ['\'']) ++
        ((rest ++ ['\'', ' ', '\''] ++ destPath) ++ ['\'']) := by
    rw [copyCommand_eq]
    simp only [List.append_assoc, List.cons_append, List.nil_append]
  rw [hline, Shell.tokens, Shell.Reader.read_append, read_source hfront] at h
  have hsize := Shell.Reader.size_finish_le rfl h
  have hcount : 2 ≤ (rest ++ ['\'', ' ', '\''] ++ destPath).count '\'' := by
    rw [List.count_append, List.count_append]
    have : ['\'', ' ', '\''].count '\'' = 2 := by decide
    omega
  rw [size_copyWords, Nat.min_eq_right hcount] at hsize
  simp [Shell.Reader.size, optionTokens, Shell.size, Shell.Token.size] at hsize
  omega

/-- A quote in the second path leaves the last one without a partner. -/
theorem tokens_ne_of_dest {srcPath front : List Char} (hsrc : '\'' ∉ srcPath)
    (hfront : '\'' ∉ front) (rest : List Char) :
    Shell.tokens (copyCommand srcPath (front ++ '\'' :: rest)) ≠
      some (copyWords srcPath (front ++ '\'' :: rest)) := by
  intro h
  have hline : copyCommand srcPath (front ++ '\'' :: rest) =
      "cp -rf ".toList ++ '\'' :: (srcPath ++ ['\'']) ++
        ' ' :: '\'' :: (front ++ ['\'']) ++ (rest ++ ['\'']) := by
    rw [copyCommand_eq]
    simp only [List.append_assoc, List.cons_append, List.nil_append]
  rw [hline, Shell.tokens, Shell.Reader.read_append, read_dest hsrc hfront] at h
  have hsize := Shell.Reader.size_finish_le rfl h
  rw [size_copyWords] at hsize
  simp [Shell.Reader.size, optionTokens, Shell.size, Shell.plain, Shell.Token.size] at hsize
  omega

/-- Paths without null characters reach `system` whole. -/
theorem systemCmd_copyCommand {srcPath destPath : List Char} (hsrc : '\x00' ∉ srcPath)
    (hdest : '\x00' ∉ destPath) :
    systemCmd (copyCommand srcPath destPath) = copyCommand srcPath destPath := by
  refine systemCmd_of_not_mem ?_
  rw [copyCommand_eq]
  simp [hsrc, hdest]

/-- **The words of the copy command.**  The shell reads `cp`, `-rf` and the two paths, and
nothing else, if and only if neither path holds a single quote. -/
theorem copyFile_words_iff (srcPath destPath : List Char) (hsrc : '\x00' ∉ srcPath)
    (hdest : '\x00' ∉ destPath) :
    Shell.tokens (systemCmd (copyCommand srcPath destPath)) =
        some (copyWords srcPath destPath) ↔
      '\'' ∉ srcPath ∧ '\'' ∉ destPath := by
  rw [systemCmd_copyCommand hsrc hdest]
  constructor
  · intro h
    have hquote : '\'' ∉ srcPath := by
      intro hmem
      obtain ⟨front, rest, rfl, hfront⟩ := List.eq_append_cons_of_mem hmem
      exact tokens_ne_of_source hfront destPath h
    refine ⟨hquote, fun hmem => ?_⟩
    obtain ⟨front, rest, rfl, hfront⟩ := List.eq_append_cons_of_mem hmem
    exact tokens_ne_of_dest hquote hfront rest h
  · rintro ⟨hsrcQuote, hdestQuote⟩
    exact tokens_copyCommand hsrcQuote hdestQuote

/-- An archive on the device and the temporary folder. -/
theorem copyFile_words_archive :
    Shell.tokens (systemCmd (copyCommand "/media/usb/a b.zip".toList "/tmp/a b.zip".toList)) =
      some (copyWords "/media/usb/a b.zip".toList "/tmp/a b.zip".toList) :=
  (copyFile_words_iff _ _ (by decide) (by decide)).2 ⟨by decide, by decide⟩

/-- The shell runs what stands between two quotes of a name. -/
theorem copyFile_injection : ¬∀ srcPath destPath : List Char,
    '\x00' ∉ srcPath → '\x00' ∉ destPath →
      Shell.tokens (systemCmd (copyCommand srcPath destPath)) =
        some (copyWords srcPath destPath) := by
  intro h
  have hread : Shell.tokens (systemCmd
      (copyCommand "/media/usb/x';reboot;'".toList "/tmp/x".toList)) =
      some [Shell.plain "cp".toList, Shell.plain "-rf".toList,
        Shell.plain "/media/usb/x".toList, .operator ';', Shell.plain "reboot".toList,
        .operator ';', Shell.plain [], Shell.plain "/tmp/x".toList] := by
    decide
  rw [h _ _ (by decide) (by decide)] at hread
  revert hread
  decide

/-! ## Moving the files of a package -/

/-- A folder and a name, with one slash between them. -/
def joinComponents (prefixPath filename : List Char) : List Char :=
  if prefixPath.getLast? = some '/' then prefixPath ++ filename
  else prefixPath ++ '/' :: filename

/-- The path in the folder that the file gets; the empty one for a path that ends in a slash. -/
def combine (src destPath : List Char) : List Char :=
  match findLastOf '/' src with
  | none => joinComponents destPath src
  | some index =>
      if index < src.length - 1 then joinComponents destPath (src.drop (index + 1)) else []

/-- The loop of `moveFiles`. -/
def moveEach (destPath : List Char) :
    (ℕ → MoveOutcome C) → List (List Char) → System (List Char) M C →
      Bool × System (List Char) M C
  | _, [], system => (true, system)
  | outcome, src :: files, system =>
      let finalDestPath := combine src destPath
      if finalDestPath = [] then (false, system)
      else
        let moved := system.moveFile (outcome 0) src finalDestPath false
        if moved.1 then moveEach destPath (fun n => outcome (n + 1)) files moved.2
        else (false, moved.2)

/-- All files to one folder, one after the other, up to the first that fails. -/
def moveFiles (outcome : ℕ → MoveOutcome C) (files : List (List Char)) (destPath : List Char)
    (system : System (List Char) M C) : Bool × System (List Char) M C :=
  if destPath = [] ∨ files = [] then (false, system)
  else moveEach destPath outcome files system

theorem log_rename (system : System (List Char) M C) (status : RenameStatus)
    (srcPath destPath : List Char) :
    (system.rename status srcPath destPath).2.log =
      system.log ++ [.rename srcPath destPath] := by
  rw [System.rename]
  split
  · rfl
  · cases status <;> rfl

/-- A copy does nothing but copy and remove. -/
theorem mem_log_copyFile {system : System (List Char) M C} {outcome : MoveOutcome C}
    {srcPath destPath : List Char} {action : Action (List Char)}
    (h : action ∈ (system.copyFile outcome srcPath destPath).2.log) :
    action ∈ system.log ∨ action ∈ [.copy srcPath destPath, .remove srcPath] := by
  rw [System.copyFile] at h
  split at h
  · simp [System.record] at h
    exact h.imp id fun hcopy => by simp [hcopy]
  · split at h
    · simpa [System.record, or_assoc] using h
    · simp [System.record] at h
      exact h.imp id fun hcopy => by simp [hcopy]

/-- The one copy that a move without `overwriteDest` asks for. -/
theorem copy_mem_log_moveFile {system : System (List Char) M C} {outcome : MoveOutcome C}
    {srcPath destPath src dest : List Char}
    (h : .copy src dest ∈ (system.moveFile outcome srcPath destPath false).2.log) :
    .copy src dest ∈ system.log ∨ src = srcPath ∧ dest = destPath := by
  have hrename : .copy src dest ∈
      (system.rename outcome.rename srcPath destPath).2.log → .copy src dest ∈ system.log := by
    rw [log_rename]
    simp
  rw [System.moveFile, if_neg Bool.false_ne_true] at h
  split at h
  · exact Or.inl (hrename h)
  · refine (mem_log_copyFile h).imp hrename fun hcopy => ?_
    simpa using hcopy
  · exact Or.inl (hrename h)

/-- A combined path holds the characters of its two parts. -/
theorem mem_combine {src destPath : List Char} {c : Char} (h : c ∈ combine src destPath) :
    c ∈ src ∨ c ∈ destPath ∨ c = '/' := by
  have hjoin {filename : List Char} (hfile : ∀ c ∈ filename, c ∈ src)
      (h : c ∈ joinComponents destPath filename) : c ∈ src ∨ c ∈ destPath ∨ c = '/' := by
    rw [joinComponents] at h
    split at h
    · exact (List.mem_append.1 h).elim (fun hdest => Or.inr (Or.inl hdest))
        fun hmem => Or.inl (hfile c hmem)
    · rcases List.mem_append.1 h with hdest | hmem
      · exact Or.inr (Or.inl hdest)
      · exact (List.mem_cons.1 hmem).elim (fun hslash => Or.inr (Or.inr hslash))
          fun hmem => Or.inl (hfile c hmem)
  rw [combine] at h
  split at h
  · exact hjoin (fun _ hc => hc) h
  · split at h
    · exact hjoin (fun _ hc => List.mem_of_mem_drop hc) h
    · cases h

/-- All copies of a move are of its files, to the places that they get. -/
theorem moveEach_copies {destPath srcPath copyPath : List Char} {files : List (List Char)}
    {outcome : ℕ → MoveOutcome C} {system : System (List Char) M C}
    (h : .copy srcPath copyPath ∈ (moveEach destPath outcome files system).2.log) :
    .copy srcPath copyPath ∈ system.log ∨
      srcPath ∈ files ∧ copyPath = combine srcPath destPath := by
  induction files generalizing outcome system with
  | nil => exact Or.inl h
  | cons src files ih =>
      simp only [moveEach] at h
      split at h
      · exact Or.inl h
      · have hmove : .copy srcPath copyPath ∈ (system.moveFile (outcome 0) src
            (combine src destPath) false).2.log →
            .copy srcPath copyPath ∈ system.log ∨
              srcPath ∈ src :: files ∧ copyPath = combine srcPath destPath := by
          intro hmem
          refine (copy_mem_log_moveFile hmem).imp id ?_
          rintro ⟨rfl, rfl⟩
          exact ⟨List.mem_cons_self, rfl⟩
        split at h
        · rcases ih h with hmem | ⟨hfile, hcombine⟩
          · exact hmove hmem
          · exact Or.inr ⟨List.mem_cons_of_mem _ hfile, hcombine⟩
        · exact hmove h

/-- Which paths `moveFiles` passes to `copyFile`. -/
theorem moveFiles_copies {outcome : ℕ → MoveOutcome C} {files : List (List Char)}
    {destPath srcPath copyPath : List Char} {system : System (List Char) M C}
    (h : .copy srcPath copyPath ∈ (moveFiles outcome files destPath system).2.log) :
    .copy srcPath copyPath ∈ system.log ∨
      srcPath ∈ files ∧ copyPath = combine srcPath destPath := by
  rw [moveFiles] at h
  split at h
  · exact Or.inl h
  · exact moveEach_copies h

/-- **Moving files runs copies only**, whatever the calls return, if no name and not the
destination holds a quote. -/
theorem moveFiles_words {outcome : ℕ → MoveOutcome C} {files : List (List Char)}
    {destPath srcPath copyPath : List Char} {system : System (List Char) M C}
    (hfiles : ∀ src ∈ files, Plain src) (hdest : Plain destPath)
    (hlog : .copy srcPath copyPath ∉ system.log)
    (h : .copy srcPath copyPath ∈ (moveFiles outcome files destPath system).2.log) :
    Shell.tokens (systemCmd (copyCommand srcPath copyPath)) =
      some (copyWords srcPath copyPath) := by
  rcases moveFiles_copies h with hmem | ⟨hfile, rfl⟩
  · exact absurd hmem hlog
  · have hcombine (c : Char) (hsrc : c ∉ srcPath) (hdest : c ∉ destPath) (hslash : c ≠ '/') :
        c ∉ combine srcPath destPath := by
      intro hmem
      rcases mem_combine hmem with hc | hc | hc
      · exact hsrc hc
      · exact hdest hc
      · exact hslash hc
    obtain ⟨hnul, hquote⟩ := hfiles srcPath hfile
    rw [systemCmd_copyCommand hnul (hcombine _ hnul hdest.1 (by decide))]
    exact tokens_copyCommand hquote (hcombine _ hquote hdest.2 (by decide))

end NewCPP.Deployment
