import NewCPP.Deployment.CopyCommand
import NewCPP.Deployment.Unpacker

/-!
# The unpack command

`Unpacker::unpack` looks for a quote in the two paths it is given and puts them between
quotes; the last name component of the archive's path is not looked at again.

* `mem_of_mem_lastNameComponent` — that component has no characters of its own.
* `unpack_words` — the shell reads the words of the command as they are meant.

The words are those of `Library.Shell`: `written` says how each of the three commands is
written, word by word, and `intendedWords` which words are meant.  That the line the source
builds is the one that `written` describes (`zipBuilder_eq`, `tarBuilder_eq`,
`folderBuilder_eq`) is all that depends on the spelling of the commands; the rest is
`Shell.tokens_andList`.

## Design notes

**Archives.**  What the type of an archive is told from has no part in how its command is read,
so that the theorem is about every host.
-/

namespace NewCPP.Deployment

open Library Library.CharString

namespace Unpacker

/-! ## The last name component -/

theorem mem_of_mem_cutExtension {name : List Char} {c : Char} (h : c ∈ cutExtension name) :
    c ∈ name := by
  rw [cutExtension] at h
  split at h
  · exact h
  · exact List.mem_of_mem_take h

theorem mem_of_mem_lastNameComponent (host : Host) {path : List Char} {c : Char}
    (h : c ∈ lastNameComponent host path) : c ∈ path := by
  have hresult : ∀ {c : Char}, c ∈ withoutSlash path → c ∈ path := by
    intro c hc
    rw [withoutSlash] at hc
    split at hc
    · exact List.dropLast_subset path hc
    · exact hc
  simp only [lastNameComponent, dropSlash_eq] at h
  apply hresult
  split at h
  · exact h
  · exact List.mem_of_mem_drop (mem_of_mem_cutExtension h)

/-- The folder that the archive is unpacked into: the destination, a slash if it does not
end in one, and the last name component. -/
def unpackedPath (host : Host) (archivePath destPath : List Char) : List Char :=
  destFolder destPath ++ lastNameComponent host archivePath

/-- The destination has no characters that its parts do not have. -/
theorem not_mem_unpackedPath (host : Host) {archivePath destPath : List Char} {c : Char}
    (hslash : c ≠ '/') (harchive : c ∉ archivePath) (hdest : c ∉ destPath) :
    c ∉ unpackedPath host archivePath destPath := by
  intro hmem
  rcases List.mem_append.1 hmem with hmem | hmem
  · rw [destFolder] at hmem
    split at hmem
    · exact hdest hmem
    · simp only [List.mem_append, List.mem_singleton] at hmem
      exact hmem.elim hdest hslash
  · exact harchive (mem_of_mem_lastNameComponent host hmem)

/-! ## The words of the builders -/

/-- The words as the builders write them, a list for each of the commands that `&&` joins. -/
def written (archivePath destPath : List Char) : ArchiveType → List (List Shell.Written)
  | .unknown => []
  | .zip =>
      [[.bare "unzip".toList, .bare "-qo".toList, .quoted archivePath, .bare "-d".toList,
        .quoted destPath]]
  | .tar =>
      [[.bare "mkdir".toList, .bare "-p".toList, .quoted destPath],
        [.bare "tar".toList, .bare "-C".toList, .quoted destPath, .bare "-xf".toList,
          .quoted archivePath]]
  | .folder =>
      [[.bare "cp".toList, .bare "-fr".toList, .quoted archivePath, .quoted destPath]]

/-- The words that are meant, a list for each command. -/
def intendedWords (archivePath destPath : List Char) : ArchiveType → List (List (List Char))
  | .unknown => []
  | .zip => [["unzip".toList, "-qo".toList, archivePath, "-d".toList, destPath]]
  | .tar =>
      [["mkdir".toList, "-p".toList, destPath],
        ["tar".toList, "-C".toList, destPath, "-xf".toList, archivePath]]
  | .folder => [["cp".toList, "-fr".toList, archivePath, destPath]]

/-- What is written stands for the words that are meant. -/
theorem map_text_written (archivePath destPath : List Char) (archType : ArchiveType) :
    (written archivePath destPath archType).map (fun words => words.map (·.text)) =
      intendedWords archivePath destPath archType := by
  cases archType <;> rfl

/-- The words can be read back if no path has a quote. -/
theorem readable_written {archivePath destPath : List Char} (harchive : '\'' ∉ archivePath)
    (hdest : '\'' ∉ destPath) (archType : ArchiveType) :
    ∀ words ∈ written archivePath destPath archType, ∀ word ∈ words, word.Readable := by
  cases archType <;>
    simp only [written, List.forall_mem_cons, List.not_mem_nil, false_imp_iff, implies_true,
      and_true, Shell.Written.Readable, harchive, hdest, not_false_eq_true,
      ← List.all_eq_true] <;>
    decide

/-- The command for a zip file is this line. -/
theorem zipBuilder_eq (archivePath destPath : List Char) :
    zipBuilder archivePath destPath =
      Shell.andList ((written archivePath destPath .zip).map Shell.line) := by
  unfold zipBuilder
  simp [written, Shell.andList, Shell.line, Shell.Written.render]

/-- The command for a tar file is these two. -/
theorem tarBuilder_eq (archivePath destPath : List Char) :
    tarBuilder archivePath destPath =
      Shell.andList ((written archivePath destPath .tar).map Shell.line) := by
  unfold tarBuilder
  simp [written, Shell.andList, Shell.line, Shell.Written.render]

/-- The command for a folder is this line. -/
theorem folderBuilder_eq (archivePath destPath : List Char) :
    folderBuilder archivePath destPath =
      Shell.andList ((written archivePath destPath .folder).map Shell.line) := by
  unfold folderBuilder
  simp [written, Shell.andList, Shell.line, Shell.Written.render]

/-- Each builder writes its words with blanks and `&&` between them. -/
theorem builder_eq {archType : ArchiveType} {it : ArchiveType × CmdBuilder}
    (h : builders.find? (fun b => b.1 = archType) = some it) (archivePath destPath : List Char) :
    it.2 archivePath destPath =
      Shell.andList ((written archivePath destPath archType).map Shell.line) := by
  have hit := List.find?_some h
  have hmem := List.mem_of_find?_eq_some h
  simp only [decide_eq_true_iff] at hit
  subst hit
  simp only [builders, List.mem_cons, List.not_mem_nil, or_false] at hmem
  rcases hmem with rfl | rfl | rfl
  · exact zipBuilder_eq archivePath destPath
  · exact tarBuilder_eq archivePath destPath
  · exact folderBuilder_eq archivePath destPath

/-- The builder is the one for the type. -/
theorem builder_of_unpack {host : Host} {archivePath destPath : List Char} {call : BuilderCall}
    (h : unpack host archivePath destPath = some call) :
    ∃ it, builders.find? (fun b => b.1 = host.identify archivePath) = some it ∧
      call.builder = it.2 := by
  simp only [unpack] at h
  split at h
  · cases h
  · split at h
    · cases h
    · obtain ⟨it, hit, hcall⟩ := Option.map_eq_some_iff.1 h
      exact ⟨it, hit, hcall ▸ rfl⟩

/-- The command of a call, as the builder of its archive type writes it. -/
theorem cmd_of_unpack {host : Host} {archivePath destPath : List Char} {call : BuilderCall}
    (hne : destPath ≠ []) (h : unpack host archivePath destPath = some call) :
    call.cmd = Shell.andList ((written archivePath (unpackedPath host archivePath destPath)
      (host.identify archivePath)).map Shell.line) := by
  obtain ⟨-, -, -, harchive, hdest⟩ := unpack_eq_some h
  obtain ⟨it, hit, hbuilder⟩ := builder_of_unpack h
  rw [BuilderCall.cmd, hbuilder, harchive, hdest, finalDestPath_of_ne_nil host archivePath hne]
  exact builder_eq hit archivePath _

/-- The text of a builder has no null character. -/
theorem not_mem_andList_written {archivePath destPath : List Char}
    (harchive : '\x00' ∉ archivePath) (hdest : '\x00' ∉ destPath) (archType : ArchiveType) :
    '\x00' ∉ Shell.andList ((written archivePath destPath archType).map Shell.line) := by
  cases archType <;>
    simp [written, Shell.andList, Shell.line, Shell.Written.render, harchive, hdest]

/-- No quote that is not the builder's own. -/
theorem readable_of_unpack {host : Host} {archivePath destPath : List Char} {call : BuilderCall}
    (h : unpack host archivePath destPath = some call) :
    ∀ words ∈ written archivePath (unpackedPath host archivePath destPath)
      (host.identify archivePath), ∀ word ∈ words, word.Readable := by
  obtain ⟨-, hquote, hdestQuote, -, -⟩ := unpack_eq_some h
  exact readable_written hquote (not_mem_unpackedPath host (by decide) hquote hdestQuote) _

/-- `system` gets the whole command. -/
theorem systemCmd_of_unpack {host : Host} {archivePath destPath : List Char} {call : BuilderCall}
    (hne : destPath ≠ []) (harchive : '\x00' ∉ archivePath) (hdest : '\x00' ∉ destPath)
    (h : unpack host archivePath destPath = some call) :
    systemCmd call.cmd = Shell.andList ((written archivePath
      (unpackedPath host archivePath destPath) (host.identify archivePath)).map Shell.line) := by
  rw [cmd_of_unpack hne h]
  apply systemCmd_of_not_mem
  exact not_mem_andList_written harchive
    (not_mem_unpackedPath host (by decide) harchive hdest) _

/-- **The words of the unpack command.**  For each archive that a builder is reached for,
the shell splits the command into the words of its type, the archive's path and the folder
that it is unpacked into being one word each; `&&` is between the two commands for a tar
file. -/
theorem unpack_words (host : Host) (archivePath destPath : List Char) (call : BuilderCall)
    (hne : destPath ≠ []) (harchive : '\x00' ∉ archivePath) (hdest : '\x00' ∉ destPath)
    (h : unpack host archivePath destPath = some call) :
    let words := (intendedWords archivePath (unpackedPath host archivePath destPath)
      (host.identify archivePath)).map fun words => words.map Shell.plain
    Shell.tokens (systemCmd call.cmd) = some (Shell.andTokens words) ∧
      ∃ commands, systemCmd call.cmd = Shell.andList commands ∧
        commands.map Shell.tokens = words.map some := by
  have hreadable := readable_of_unpack h
  rw [systemCmd_of_unpack hne harchive hdest h, ← map_text_written, List.map_map]
  simp only [Function.comp_def, List.map_map]
  refine ⟨Shell.tokens_andList hreadable, _, rfl, ?_⟩
  rw [List.map_map]
  exact List.map_congr_left fun words hwords => Shell.tokens_line (hreadable words hwords)

/-- A name with a blank, a dollar sign and a semicolon. -/
theorem unpack_words_blank :
    Shell.tokens (systemCmd (zipBuilder "/media/usb/a $b;c.zip".toList
        "/opt/modules/a $b;c".toList)) =
      some [Shell.plain "unzip".toList, Shell.plain "-qo".toList,
        Shell.plain "/media/usb/a $b;c.zip".toList, Shell.plain "-d".toList,
        Shell.plain "/opt/modules/a $b;c".toList] :=
  (unpack_words emptyHost "/media/usb/a $b;c.zip".toList "/opt/modules".toList _ (by decide)
    (by decide) (by decide) rfl).1

end Unpacker

end NewCPP.Deployment
