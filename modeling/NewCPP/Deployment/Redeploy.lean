import NewCPP.Deployment.UnpackCommand
import NewCPP.Library.FileTree

/-!
# Redeploying a module

Each of the three commands of `Unpacker::unpack` writes the files of the archive into a
folder, and all of them replace the files that are there.  `cp` has a rule of its own: into a
directory that exists it copies the folder as such.

* `content_of_unpackOn` — which files there are after a successful call.
* `replaced_iff` — when those of the archive are at their places: always, but for a folder
  whose module exists only if they were there before.

## Design notes

**The programs.**  `exec` runs a program with its arguments; `Documented` is what `unzip`,
`mkdir`, `tar` and `cp` have done when they report success.

**Archives.**  `Formats` says which files are in the bytes of a zip and of a tar file.  The
files of a folder are those below it.
-/

namespace NewCPP.Deployment.Unpacker

open Library Library.FileTree

universe u

variable {C : Type u}

/-- A path that a program takes for one. -/
structure Operand (path : List Char) : Prop where
  nonempty : path ≠ []
  terminated : '\x00' ∉ path
  notOption : path.head? ≠ some '-'

/-- The files in the bytes of an archive. -/
structure Formats (C : Type u) where
  zip : C → Place → Option C
  tar : C → Place → Option C

/-- Runs a program: whether it succeeds, and the files after it. -/
abbrev Exec (C : Type u) := List (List Char) → FileTree C → Bool × FileTree C

/-- The call of `unpack`, with the command that it executes. -/
def unpackOn (host : Host) (exec : Exec C) (archivePath destPath : List Char)
    (tree : FileTree C) : Option (Bool × FileTree C) :=
  match unpack host archivePath destPath with
  | none => some (false, tree)
  | some call => Shell.run exec (systemCmd call.cmd) tree

section

variable (formats : Formats C) (cwd : Place)

/-- The files of the archive. -/
def archiveFiles (tree : FileTree C) (archivePath : List Char) :
    ArchiveType → Place → Option C
  | .unknown => fun _ => none
  | .zip => fun place => (tree.content (resolve cwd archivePath)).bind (formats.zip · place)
  | .tar => fun place => (tree.content (resolve cwd archivePath)).bind (formats.tar · place)
  | .folder => tree.below (resolve cwd archivePath)

/-- Where `cp` puts the folder: in a directory, if there is one. -/
def copyTarget (tree : FileTree C) (source dest : List Char) : Place :=
  let target := resolve cwd dest
  if tree.isDirectory target then walk target (basename source) else target

/-- The manuals of the programs. -/
structure Documented (exec : Exec C) : Prop where
  unzip : ∀ {archive dest tree tree'}, Operand archive → Operand dest →
    exec ["unzip".toList, "-qo".toList, archive, "-d".toList, dest] tree = (true, tree') →
      tree'.content =
        overlay (resolve cwd dest) (archiveFiles formats cwd tree archive .zip) tree.content
  mkdir : ∀ {dest tree tree'}, Operand dest →
    exec ["mkdir".toList, "-p".toList, dest] tree = (true, tree') →
      tree'.content = tree.content
  tar : ∀ {archive dest tree tree'}, Operand archive → Operand dest →
    exec ["tar".toList, "-C".toList, dest, "-xf".toList, archive] tree = (true, tree') →
      tree'.content =
        overlay (resolve cwd dest) (archiveFiles formats cwd tree archive .tar) tree.content
  cp : ∀ {source dest tree tree'}, Operand source → Operand dest →
    exec ["cp".toList, "-fr".toList, source, dest] tree = (true, tree') →
      tree'.content =
        overlay (copyTarget cwd tree source dest) (tree.below (resolve cwd source)) tree.content

end

variable {formats : Formats C} {cwd : Place}

/-! ## The command -/

/-- The path of the destination is an operand again. -/
theorem operand_unpackedPath (host : Host) {archivePath destPath : List Char}
    (harchive : Operand archivePath) (hdest : Operand destPath) :
    Operand (unpackedPath host archivePath destPath) := by
  obtain ⟨c, dest, rfl⟩ := List.exists_cons_of_ne_nil hdest.nonempty
  have hhead : ∃ rest, unpackedPath host archivePath (c :: dest) = c :: rest := by
    rw [unpackedPath, destFolder]
    split
    · exact ⟨_, rfl⟩
    · exact ⟨_, rfl⟩
  obtain ⟨rest, hrest⟩ := hhead
  refine ⟨?_, not_mem_unpackedPath host (by decide) harchive.terminated hdest.terminated, ?_⟩
  · rw [hrest]
    exact List.cons_ne_nil _ _
  · rw [hrest]
    exact hdest.notOption

/-- The shell runs the commands of the builder. -/
theorem unpackOn_eq {host : Host} (exec : Exec C) {archivePath destPath : List Char}
    {call : BuilderCall} (harchive : Operand archivePath) (hdest : Operand destPath)
    (h : unpack host archivePath destPath = some call) (tree : FileTree C) :
    unpackOn host exec archivePath destPath tree =
      some (Shell.runAnd exec (intendedWords archivePath
        (unpackedPath host archivePath destPath) (host.identify archivePath)) tree) := by
  have hne : written archivePath (unpackedPath host archivePath destPath)
      (host.identify archivePath) ≠ [] := by
    cases harch : host.identify archivePath with
    | unknown => exact absurd harch (unpack_eq_some h).1
    | _ => exact List.cons_ne_nil _ _
  rw [unpackOn, h]
  dsimp only
  rw [systemCmd_of_unpack hdest.nonempty harchive.terminated hdest.terminated h,
    Shell.run_andList exec hne (readable_of_unpack h), map_text_written]

/-- Of the commands that succeed, the first does. -/
theorem exec_of_runAnd_cons {exec : Exec C} {words : List (List Char)}
    {commands : List (List (List Char))} {tree tree' : FileTree C}
    (h : Shell.runAnd exec (words :: commands) tree = (true, tree')) :
    ∃ next, exec words tree = (true, next) ∧
      Shell.runAnd exec commands next = (true, tree') := by
  rw [Shell.runAnd] at h
  split at h
  · rename_i next hexec
    exact ⟨next, hexec, h⟩
  · cases h

/-- A list of one command runs that command. -/
theorem exec_of_runAnd_singleton {exec : Exec C} {words : List (List Char)}
    {tree tree' : FileTree C} (h : Shell.runAnd exec [words] tree = (true, tree')) :
    exec words tree = (true, tree') := by
  obtain ⟨next, hexec, hrest⟩ := exec_of_runAnd_cons h
  cases hrest
  exact hexec

/-! ## The files after the call -/

/-- Where the command puts the files of the archive. -/
def writtenTo (cwd : Place) (host : Host) (tree : FileTree C)
    (archivePath destPath : List Char) : Place :=
  let dest := unpackedPath host archivePath destPath
  if host.identify archivePath = .folder then copyTarget cwd tree archivePath dest
  else resolve cwd dest

/-- What a successful command leaves: the archive's files over what was there. -/
theorem content_of_unpackOn {host : Host} {exec : Exec C} (hexec : Documented formats cwd exec)
    {archivePath destPath : List Char} (harchive : Operand archivePath)
    (hdest : Operand destPath) {tree tree' : FileTree C}
    (h : unpackOn host exec archivePath destPath tree = some (true, tree')) :
    tree'.content = overlay (writtenTo cwd host tree archivePath destPath)
      (archiveFiles formats cwd tree archivePath (host.identify archivePath)) tree.content := by
  have hoperand := operand_unpackedPath host harchive hdest
  cases hunpack : unpack host archivePath destPath with
  | none =>
      rw [unpackOn, hunpack] at h
      cases h
  | some call =>
      rw [unpackOn_eq exec harchive hdest hunpack, Option.some_inj] at h
      cases harch : host.identify archivePath with
      | unknown => exact absurd harch (unpack_eq_some hunpack).1
      | zip =>
          rw [harch] at h
          rw [writtenTo, harch, if_neg (by decide)]
          exact hexec.unzip harchive hoperand (exec_of_runAnd_singleton h)
      | tar =>
          rw [harch] at h
          obtain ⟨next, hmkdir, htar⟩ := exec_of_runAnd_cons h
          have hkept := hexec.mkdir hoperand hmkdir
          rw [writtenTo, harch, if_neg (by decide)]
          have hcontent := hexec.tar harchive hoperand (exec_of_runAnd_singleton htar)
          simp only [archiveFiles, hkept] at hcontent
          exact hcontent
      | folder =>
          rw [harch] at h
          rw [writtenTo, harch, if_pos rfl]
          exact hexec.cp harchive hoperand (exec_of_runAnd_singleton h)

/-! ## The module -/

/-- The folder of the module. -/
def modulePlace (cwd : Place) (host : Host) (archivePath destPath : List Char) : Place :=
  resolve cwd (destPath ++ '/' :: lastNameComponent host archivePath)

/-- The slash that the destination may end in does not matter. -/
theorem resolve_unpackedPath (cwd : Place) (host : Host) (archivePath destPath : List Char) :
    resolve cwd (unpackedPath host archivePath destPath) =
      modulePlace cwd host archivePath destPath := by
  rw [unpackedPath, modulePlace, destFolder]
  split
  · rename_i hlast
    obtain ⟨front, rfl⟩ := List.getLast?_eq_some_iff.1 hlast
    rw [List.append_assoc, List.append_assoc]
    exact (resolve_append_slash_slash cwd front _).symm
  · rw [List.append_assoc]
    rfl

/-- Every file of the archive is found at its place in the module. -/
def Replaced (formats : Formats C) (cwd : Place) (host : Host) (archivePath destPath : List Char)
    (tree tree' : FileTree C) : Prop :=
  ∀ place c, archiveFiles formats cwd tree archivePath (host.identify archivePath) place = some c →
    tree'.content (modulePlace cwd host archivePath destPath ++ place) = some c

/-- Copied as such into its module, the folder has the same file there, or no file there and
the module has it already. -/
def AlreadyThere (cwd : Place) (host : Host) (archivePath destPath : List Char)
    (tree : FileTree C) : Prop :=
  let folder := modulePlace cwd host archivePath destPath
  let copy := walk folder (basename archivePath)
  let files := tree.below (resolve cwd archivePath)
  ∀ place c, files place = some c →
    (∃ rest, folder ++ place = copy ++ rest ∧ files rest = some c) ∨
      (∀ rest, folder ++ place = copy ++ rest → files rest = none) ∧
        tree.content (folder ++ place) = some c

/-- **Redeploying**: the files of the archive are found in the module, in the case of a folder
only if the module does not exist, or if they are there already. -/
theorem replaced_iff {host : Host} {exec : Exec C} (hexec : Documented formats cwd exec)
    {archivePath destPath : List Char} (harchive : Operand archivePath)
    (hdest : Operand destPath) {tree tree' : FileTree C}
    (h : unpackOn host exec archivePath destPath tree = some (true, tree')) :
    Replaced formats cwd host archivePath destPath tree tree' ↔
      (host.identify archivePath = .folder →
        tree.isDirectory (modulePlace cwd host archivePath destPath) = true →
          AlreadyThere cwd host archivePath destPath tree) := by
  have hcontent := content_of_unpackOn hexec harchive hdest h
  unfold Replaced
  rw [hcontent]
  by_cases hcopied : host.identify archivePath = .folder ∧
      tree.isDirectory (modulePlace cwd host archivePath destPath) = true
  · obtain ⟨hfolder, hdirectory⟩ := hcopied
    have htarget : writtenTo cwd host tree archivePath destPath =
        walk (modulePlace cwd host archivePath destPath) (basename archivePath) := by
      simp only [writtenTo, if_pos hfolder, copyTarget, resolve_unpackedPath, if_pos hdirectory]
    simp only [htarget, hfolder, hdirectory, archiveFiles, overlay_eq_some_iff, true_imp_iff]
    exact Iff.rfl
  · have htarget : writtenTo cwd host tree archivePath destPath =
        modulePlace cwd host archivePath destPath := by
      simp only [writtenTo, copyTarget, resolve_unpackedPath]
      split
      · rename_i hfolder
        exact if_neg fun hdirectory => hcopied ⟨hfolder, hdirectory⟩
      · rfl
    rw [htarget]
    constructor
    · exact fun _ hfolder hdirectory => absurd ⟨hfolder, hdirectory⟩ hcopied
    · exact fun _ place c hfile => overlay_append_of_eq_some hfile _

/-! ## A folder, deployed once and again -/

/-- A device with no other program than `cp`. -/
def onlyCopies (cwd : Place) : Exec C := fun words tree =>
  match words with
  | [program, option, source, dest] =>
      if program = "cp".toList ∧ option = "-fr".toList then
        let target := copyTarget cwd tree source dest
        let folder := resolve cwd source
        (true,
          { content := overlay target (tree.below folder) tree.content
            isDirectory := fun place => tree.isDirectory place ||
              (decide (target <+: place) &&
                tree.isDirectory (folder ++ place.drop target.length)) })
      else (false, tree)
  | _ => (false, tree)

/-- A program that only copies, and documented so. -/
theorem documented_onlyCopies (formats : Formats C) (cwd : Place) :
    Documented formats cwd (onlyCopies cwd) where
  unzip _ _ h := by cases h
  mkdir _ h := by cases h
  tar _ _ h := by cases h
  cp _ _ h := by
    rw [onlyCopies, if_pos ⟨rfl, rfl⟩] at h
    exact congrArg FileTree.content (Prod.mk.inj h).2.symm

/-- A host on which `/usb/m` is the folder of a module. -/
def folderHost : Host where
  before _ _ := ' '
  readdir path :=
    if path = "/usb/m".toList then
      [".".toList, "..".toList, Host.moduleConfig, Host.moduleImpl, "w.hdf5".toList]
    else []

/-- The configuration in the folder, and the one in the module if there is one. -/
def deviceTree (deployed : Option ℕ) : FileTree ℕ where
  content place :=
    if place = ["usb".toList, "m".toList, Host.moduleConfig] then some 2
    else if place = ["opt".toList, "m".toList, Host.moduleConfig] then deployed
    else none
  isDirectory place :=
    decide (place ∈ [[], ["usb".toList], ["usb".toList, "m".toList], ["opt".toList]]) ||
      (deployed.isSome && decide (place = ["opt".toList, "m".toList]))

theorem operand_usb : Operand "/usb/m".toList := ⟨by decide, by decide, by decide⟩

theorem operand_opt : Operand "/opt".toList := ⟨by decide, by decide, by decide⟩

theorem identify_folderHost : folderHost.identify "/usb/m".toList = .folder := by decide

/-- The call succeeds; the tree after it is that of the copy. -/
theorem unpackOn_folderHost (tree : FileTree ℕ) :
    unpackOn folderHost (onlyCopies []) "/usb/m".toList "/opt".toList tree =
      some (onlyCopies [] ["cp".toList, "-fr".toList, "/usb/m".toList, "/opt/m".toList] tree) := by
  have hunpack : unpack folderHost "/usb/m".toList "/opt".toList =
      some ⟨folderBuilder, "/usb/m".toList, "/opt/m".toList⟩ := by
    rw [unpack, identify_folderHost]
    rfl
  rw [unpackOn_eq _ operand_usb operand_opt hunpack, identify_folderHost]
  rfl

/-- The first deployment of a folder. -/
theorem replaced_first : ∃ tree',
    unpackOn folderHost (onlyCopies []) "/usb/m".toList "/opt".toList (deviceTree none) =
        some (true, tree') ∧
      Replaced ⟨fun _ _ => none, fun _ _ => none⟩ [] folderHost "/usb/m".toList "/opt".toList
        (deviceTree none) tree' := by
  refine ⟨_, unpackOn_folderHost _, ?_⟩
  exact (replaced_iff (documented_onlyCopies _ []) operand_usb operand_opt
    (unpackOn_folderHost _)).2 fun _ hdirectory => absurd hdirectory (by decide)

/-- The second deployment of a folder leaves the configuration of the first. -/
theorem not_replaced_again :
    ¬∀ (host : Host) (formats : Formats ℕ) (cwd : Place) (exec : Exec ℕ)
      (archivePath destPath : List Char) (tree tree' : FileTree ℕ),
      Documented formats cwd exec → Operand archivePath → Operand destPath →
      unpackOn host exec archivePath destPath tree = some (true, tree') →
        Replaced formats cwd host archivePath destPath tree tree' := by
  intro h
  have hreplaced := h folderHost ⟨fun _ _ => none, fun _ _ => none⟩ [] (onlyCopies [])
    "/usb/m".toList "/opt".toList (deviceTree (some 1)) _ (documented_onlyCopies _ [])
    operand_usb operand_opt (unpackOn_folderHost _)
  have hfound := hreplaced [Host.moduleConfig] 2 (by rw [identify_folderHost]; decide)
  exact absurd hfound (by decide)

end NewCPP.Deployment.Unpacker
