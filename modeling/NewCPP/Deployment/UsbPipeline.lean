import NewCPP.Deployment.MovePackage
import NewCPP.Deployment.PackageDetector

/-!
# Processing a mass storage

`UsbProcessingPipeline::operator()`: a package is detected on the mass storage, moved into a
temporary folder that is made for it, and given to the processor.  The folder goes with the
call, however this ends.

* `processes_whole` — the processor is called with a package that is complete: every file of it
  is in the temporary folder, with the content that it had on the mass storage.  Before that
  the call changes nothing, or ends with the package on the way.
* `copies_words` — what the copies of a call are copies of, as the shell reads them.
* `lost_unless_processed` — what a call leaves of the disk if the processor does nothing to it:
  the files that had been moved by then are gone, and nothing else has changed.

## Design notes

**The folder.**  `TemporaryFolder` makes a folder with a name of its own and removes all that
is in it, without leaving the file system.  `removes` tells which files `nftw` gets to.

**The processor.**  It returns whether it has processed the package, or throws, and may do to
the disk what it likes.

**The names.**  `readdir` gives names that are not empty and have no slash in them, and what it
lists is there.  The folder is empty when it has been made.

**The copies.**  A `cp` is modelled as a copy of exactly its two paths, which it is if and only
if the shell reads them as they are written (`copyFile_words_iff`).  That the mass storage and
the parent of the folder have no single quote in their names is therefore assumed; a name with
one can make the shell do anything.
-/

namespace NewCPP.Deployment

open Library Library.CharString

universe v w

variable {M : Type v} {C : Type w}

namespace InstallPackageDetector.InstallPkg

/-- The policy file, with the folder or without. -/
def getPolicyPath (pkg : InstallPkg) (fullpath : Bool) : List Char :=
  if fullpath then pkg.rootPath ++ pkg.policyFile else pkg.policyFile

/-- The archives, with the folder or without. -/
def getArchivesPath (pkg : InstallPkg) (fullpath : Bool) : List (List Char) :=
  if fullpath then pkg.archives.map fun arch => pkg.rootPath ++ arch else pkg.archives

/-- The files of the package, the policy file last. -/
def allFiles (pkg : InstallPkg) (fullpath : Bool) : List (List Char) :=
  pkg.getArchivesPath fullpath ++ [pkg.getPolicyPath fullpath]

/-- The package in another folder. -/
def setRootPath (host : Host) (path : List Char) (pkg : InstallPkg) : InstallPkg :=
  { pkg with rootPath := addLastDelimiter host path }

end InstallPackageDetector.InstallPkg

open InstallPackageDetector (addLastDelimiter)
open InstallPackageDetector.InstallPkg (getPolicyPath getArchivesPath allFiles setRootPath)

/-- A package as the detector gives it away. -/
abbrev Pkg := InstallPackageDetector.InstallPkg

/-- The name of a temporary folder. -/
structure RandomName where
  chars : List Char
  length : chars.length = 10
  upper : ∀ c ∈ chars, 'A' ≤ c ∧ c ≤ 'Z'

/-- How the calls of the operating system in one `operator()` turn out. -/
structure UsbOutcomes (C : Type w) where
  /-- The parent of the temporary folder can be opened. -/
  locates : Bool
  randomName : RandomName
  mkdir : Bool
  moves : ℕ → MoveOutcome C
  removes : List Char → Bool

namespace TemporaryFolder

/-- `fullPath`, which is empty where the folder cannot be made. -/
def generateFolder (outcomes : UsbOutcomes C) (parent : List Char) : List Char :=
  if outcomes.mkdir then
    parent ++ (if parent.getLast? = some '/' then [] else ['/']) ++ outcomes.randomName.chars
  else []

/-- The constructor; `none` where it throws. -/
def construct (outcomes : UsbOutcomes C) (parent : List Char) : Option (List Char) :=
  if parent = [] then some (generateFolder outcomes "/tmp".toList)
  else if outcomes.locates then some (generateFolder outcomes parent)
  else none

/-- The path is in the folder, or in one of its folders. -/
def Below (folder path : List Char) : Prop :=
  folder ++ ['/'] <+: path

instance (folder path : List Char) : Decidable (Below folder path) :=
  inferInstanceAs (Decidable (_ <+: _))

/-- `travelsalRemove`: of everything below the path, what can be removed is gone. -/
def travelsalRemove (outcomes : UsbOutcomes C) (fullPath : List Char)
    (system : System (List Char) M C) : System (List Char) M C :=
  { system with
    files := fun path =>
      if Below fullPath path ∧ outcomes.removes path = true then none else system.files path }

/-- The destructor. -/
def destruct (outcomes : UsbOutcomes C) (fullPath : List Char)
    (system : System (List Char) M C) : System (List Char) M C :=
  if fullPath = [] then system else travelsalRemove outcomes fullPath system

end TemporaryFolder

namespace UsbProcessingPipeline

/-- How a call ends. -/
inductive Ending where
  | noPackage
  | noDestination
  | notMoved
  | notProcessed
  | handled
  | thrown
  deriving DecidableEq

/-- The processor; `none` where it throws. -/
abbrev PackageProcessor (M : Type v) (C : Type w) :=
  Pkg → System (List Char) M C → Option Bool × System (List Char) M C

/-- How a call ends that has called the processor. -/
def Ending.ofProcessor : Option Bool → Ending
  | some true => .handled
  | some false => .notProcessed
  | none => .thrown

section

variable (host : Host) (outcomes : UsbOutcomes C)

/-- The result, and the package after the call. -/
def movePackage (pkg : Pkg) (path : List Char) (system : System (List Char) M C) :
    Bool × Pkg × System (List Char) M C :=
  let moved := moveFiles outcomes.moves (pkg.allFiles true) path system
  if moved.1 then (true, pkg.setRootPath host path, moved.2) else (false, pkg, moved.2)

/-- The body of `operator()` behind the temporary folder. -/
def processPackage (processor : PackageProcessor M C) (pkg : Pkg) (fullPath : List Char)
    (system : System (List Char) M C) : Ending × System (List Char) M C :=
  if fullPath = [] then (.noDestination, system)
  else
    let moved := movePackage host outcomes pkg fullPath system
    if moved.1 then
      let processed := processor moved.2.1 moved.2.2
      (.ofProcessor processed.1, processed.2)
    else (.notMoved, moved.2.2)

/-- `UsbProcessingPipeline::operator()`. -/
def operatorCall (processor : PackageProcessor M C) (usbTempPath mountPath : List Char)
    (system : System (List Char) M C) : Ending × System (List Char) M C :=
  let detected := InstallPackageDetector.process host mountPath {}
  if detected.1 then
    match TemporaryFolder.construct outcomes usbTempPath with
    | none => (.thrown, system)
    | some fullPath =>
        let ended := processPackage host outcomes processor detected.2 fullPath system
        (ended.1, TemporaryFolder.destruct outcomes fullPath ended.2)
  else (.noPackage, system)

end

/-! ## The temporary folder -/

/-- The name of a temporary folder ends in no slash. -/
theorem getLast?_generateFolder (outcomes : UsbOutcomes C) (parent : List Char) :
    (TemporaryFolder.generateFolder outcomes parent).getLast? ≠ some '/' := by
  rw [TemporaryFolder.generateFolder]
  split
  · obtain ⟨chars, hlength, hupper⟩ := outcomes.randomName
    have hne : chars ≠ [] := List.ne_nil_of_length_pos (hlength ▸ Nat.succ_pos 9)
    rw [List.getLast?_append_of_ne_nil _ hne]
    intro hlast
    exact absurd (hupper '/' (List.mem_of_getLast? hlast)) (by decide)
  · rintro ⟨⟩

theorem getLast?_of_construct {outcomes : UsbOutcomes C} {parent fullPath : List Char}
    (h : TemporaryFolder.construct outcomes parent = some fullPath) :
    fullPath.getLast? ≠ some '/' := by
  rw [TemporaryFolder.construct] at h
  split at h
  · cases h
    exact getLast?_generateFolder outcomes _
  · split at h
    · cases h
      exact getLast?_generateFolder outcomes _
    · cases h

/-! ## The files of a package -/

/-- What the operating system says of the mass storage. -/
structure Readable (host : Host) (usbTempPath mountPath : List Char)
    (system : System (List Char) M C) : Prop where
  nothing : host.readdir [] = []
  names : ∀ name ∈ host.readdir mountPath, name ≠ [] ∧ '/' ∉ name
  /-- `cp` copies what it is given. -/
  plain : ∀ path ∈ usbTempPath :: mountPath :: host.readdir mountPath, Plain path
  there : ∀ name ∈ host.readdir mountPath, name ≠ ['.'] → name ≠ ['.', '.'] →
    (system.files (addLastDelimiter host mountPath ++ name)).isSome

/-- A package with one archive, whose policy is there. -/
structure Detected (pkg : Pkg) (child : List Char) (system : System (List Char) M C) :
    Prop where
  archives : pkg.archives = [child]
  root : ∃ folder, pkg.rootPath = folder ++ ['/']
  child_name : child ≠ [] ∧ '/' ∉ child
  policy_name : pkg.policyFile ≠ [] ∧ '/' ∉ pkg.policyFile
  policy_there : (system.files (pkg.rootPath ++ pkg.policyFile)).isSome

/-- The path then ends in a slash. -/
theorem addLastDelimiter_eq (host : Host) {path : List Char} (h : path ≠ []) :
    ∃ folder, addLastDelimiter host path = folder ++ ['/'] := by
  by_cases hback : host.back path = '/'
  · rw [addLastDelimiter, if_neg (not_not.2 hback)]
    exact List.getLast?_eq_some_iff.1 ((Unpacker.back_eq_slash_iff host h).1 hback)
  · exact ⟨path, by rw [addLastDelimiter, if_pos hback]⟩

/-- A detected package on a readable stick has one archive, and both files are there. -/
theorem detected_of_process {host : Host} {usbTempPath mountPath : List Char}
    {system : System (List Char) M C} (h : Readable host usbTempPath mountPath system) {pkg : Pkg}
    (hdetected : InstallPackageDetector.process host mountPath {} = (true, pkg)) :
    ∃ child, Detected pkg child system := by
  obtain ⟨policyFile, policyFiles, child, hpolicy, hchild, rfl⟩ :=
    (InstallPackageDetector.process_eq_true_iff host mountPath {} pkg).1 hdetected
  have hmem : policyFile ∈ InstallPackageDetector.withEnding host mountPath
      InstallPackageDetector.policyFile := by
    rw [hpolicy]
    exact List.mem_cons_self
  obtain ⟨hpolicy, hending⟩ := InstallPackageDetector.mem_withEnding.1 hmem
  have hlong : 11 ≤ policyFile.length := hending.length_le
  have hchild : child ∈ host.readdir mountPath :=
    List.mem_of_mem_filter (hchild ▸ List.mem_singleton_self child)
  have hmount : mountPath ≠ [] := by
    rintro rfl
    rw [h.nothing] at hchild
    cases hchild
  refine ⟨child, rfl, addLastDelimiter_eq host hmount, h.names child hchild,
    h.names policyFile hpolicy, h.there policyFile hpolicy ?_ ?_⟩ <;>
  · rintro rfl
    exact absurd hlong (by decide)

/-- A file goes under its name into the folder. -/
theorem combine_root {rootPath name fullPath : List Char}
    (hroot : ∃ folder, rootPath = folder ++ ['/']) (hname : name ≠ [] ∧ '/' ∉ name)
    (hslash : fullPath.getLast? ≠ some '/') :
    combine (rootPath ++ name) fullPath = fullPath ++ '/' :: name := by
  obtain ⟨folder, rfl⟩ := hroot
  rw [List.append_assoc, List.singleton_append, combine_append folder hname.2, if_neg hname.1,
    joinComponents, if_neg hslash]

/-- The files of a package are in another folder. -/
structure Whole (before handed : System (List Char) M C) (pkg pkg' : Pkg) : Prop where
  policyFile : pkg'.policyFile = pkg.policyFile
  archives : pkg'.archives = pkg.archives
  files : ∀ name ∈ pkg.allFiles false,
    (handed.files (pkg'.rootPath ++ name)).isSome ∧
      handed.files (pkg'.rootPath ++ name) = before.files (pkg.rootPath ++ name)

section

variable {host : Host} {outcomes : UsbOutcomes C} {fullPath : List Char} {pkg : Pkg}
  {child : List Char} {system : System (List Char) M C}

/-- The moves of a package. -/
def pkgMoves (outcomes : UsbOutcomes C) (pkg : Pkg) : List (FileMove C) :=
  moves outcomes.moves (pkg.allFiles true)

/-- Its two moves, the archive first. -/
theorem pkgMoves_eq (h : Detected pkg child system) :
    pkgMoves outcomes pkg = [⟨pkg.rootPath ++ child, outcomes.moves 0⟩,
      ⟨pkg.rootPath ++ pkg.policyFile, outcomes.moves 1⟩] := by
  rw [pkgMoves, allFiles, getArchivesPath, if_pos rfl, h.archives,
    getPolicyPath, if_pos rfl]
  rfl

/-- The move of the package as a list of moves. -/
theorem moveFiles_eq (hne : fullPath ≠ []) :
    moveFiles outcomes.moves (pkg.allFiles true) fullPath system =
      runAll fullPath (pkgMoves outcomes pkg) system :=
  moveFiles_eq_runAll fullPath outcomes.moves hne
    (List.append_ne_nil_of_right_ne_nil _ (List.cons_ne_nil _ [])) system

/-- A file of the package goes into the folder. -/
theorem combine_below {rootPath name : List Char}
    (hroot : ∃ folder, rootPath = folder ++ ['/']) (hname : name ≠ [] ∧ '/' ∉ name)
    (hslash : fullPath.getLast? ≠ some '/') :
    TemporaryFolder.Below fullPath (combine (rootPath ++ name) fullPath) :=
  ⟨name, by rw [combine_root hroot hname hslash, List.append_assoc, List.singleton_append]⟩

/-- What is there is not in a folder that is new. -/
theorem not_below {path : List Char}
    (hfresh : ∀ path, TemporaryFolder.Below fullPath path → system.files path = none)
    (hthere : (system.files path).isSome) : ¬TemporaryFolder.Below fullPath path := by
  intro hbelow
  rw [hfresh path hbelow] at hthere
  cases hthere

/-- A file of the mass storage is not at its destination: there was nothing. -/
theorem dest_ne_src (hroot : ∃ folder, pkg.rootPath = folder ++ ['/']) {name : List Char}
    (hname : name ≠ [] ∧ '/' ∉ name) (hthere : (system.files (pkg.rootPath ++ name)).isSome)
    (hslash : fullPath.getLast? ≠ some '/')
    (hfresh : ∀ path, TemporaryFolder.Below fullPath path → system.files path = none) :
    combine (pkg.rootPath ++ name) fullPath ≠ pkg.rootPath ++ name := by
  intro hself
  refine not_below hfresh hthere ?_
  rw [← hself]
  exact combine_below hroot hname hslash

/-- Two moves succeed one after the other. -/
theorem runAll_pair {first second : FileMove C}
    (h : (runAll fullPath [first, second] system).1 = true) :
    (first.run fullPath system).1 = true ∧
      (second.run fullPath (first.run fullPath system).2).1 = true := by
  rw [runAll] at h
  split at h
  case isTrue hfirst =>
    rw [runAll] at h
    split at h
    case isTrue hsecond => exact ⟨hfirst, hsecond⟩
    case isFalse => cases h
  case isFalse => cases h

/-- **Moves that succeed keep the files apart.** -/
theorem movesAll_pkgMoves (h : Detected pkg child system)
    (hslash : fullPath.getLast? ≠ some '/')
    (hfresh : ∀ path, TemporaryFolder.Below fullPath path → system.files path = none)
    (hmoved : (runAll fullPath (pkgMoves outcomes pkg) system).1 = true) :
    MovesAll fullPath (pkgMoves outcomes pkg) := by
  have hsucceeds := succeeds_of_runAll hmoved
  rw [pkgMoves_eq h] at hmoved hsucceeds ⊢
  obtain ⟨hfirst, hsecond⟩ := runAll_pair hmoved
  have hchild := ((FileMove.run_eq_true_iff _).1 hfirst).2
  refine ⟨hsucceeds, ?_, List.pairwise_pair.2 ⟨fun hsrc => ?_, fun hdest => ?_⟩⟩
  · rw [List.forall_mem_cons, List.forall_mem_singleton]
    exact ⟨fun hself => absurd hself (dest_ne_src h.root h.child_name hchild hslash hfresh),
      fun hself => absurd hself (dest_ne_src h.root h.policy_name h.policy_there hslash hfresh)⟩
  · -- the policy is still there when it is moved
    by_contra hleaves
    have hthere := ((FileMove.run_eq_true_iff _).1 hsecond).2
    rw [FileMove.run_files_of_true system hfirst, if_neg hleaves, ← hsrc,
      Function.update_self] at hthere
    cases hthere
  · rw [FileMove.dest, FileMove.dest, combine_root h.root h.child_name hslash,
      combine_root h.root h.policy_name hslash] at hdest
    have hname := List.append_cancel_left hdest
    exact congrArg (pkg.rootPath ++ ·) (List.cons.inj hname).2

/-- Without a slash at its end a path gets one. -/
theorem addLastDelimiter_of_ne {path : List Char} (hne : path ≠ [])
    (hslash : path.getLast? ≠ some '/') : addLastDelimiter host path = path ++ ['/'] := by
  rw [addLastDelimiter, if_pos (mt (Unpacker.back_eq_slash_iff host hne).1 hslash)]

/-- **A package that has been moved is whole.** -/
theorem whole_of_moved (host : Host) (h : Detected pkg child system) (hne : fullPath ≠ [])
    (hslash : fullPath.getLast? ≠ some '/')
    (hfresh : ∀ path, TemporaryFolder.Below fullPath path → system.files path = none)
    (hmoved : (runAll fullPath (pkgMoves outcomes pkg) system).1 = true) :
    Whole system (runAll fullPath (pkgMoves outcomes pkg) system).2 pkg
      (pkg.setRootPath host fullPath) := by
  have hmoves := movesAll_pkgMoves h hslash hfresh hmoved
  have hchild : (system.files (pkg.rootPath ++ child)).isSome := by
    rw [pkgMoves_eq h] at hmoved
    exact ((FileMove.run_eq_true_iff _).1 (runAll_pair hmoved).1).2
  have harrive {name : List Char} (hname : name ≠ [] ∧ '/' ∉ name)
      (hthere : (system.files (pkg.rootPath ++ name)).isSome) {outcome : MoveOutcome C}
      (hfile : (runAll fullPath (pkgMoves outcomes pkg) system).2.files
        (FileMove.dest fullPath ⟨pkg.rootPath ++ name, outcome⟩) =
          system.files (pkg.rootPath ++ name)) :
      ((runAll fullPath (pkgMoves outcomes pkg) system).2.files
          ((pkg.setRootPath host fullPath).rootPath ++ name)).isSome ∧
        (runAll fullPath (pkgMoves outcomes pkg) system).2.files
          ((pkg.setRootPath host fullPath).rootPath ++ name) =
            system.files (pkg.rootPath ++ name) := by
    have hdest : (pkg.setRootPath host fullPath).rootPath ++ name =
        FileMove.dest fullPath ⟨pkg.rootPath ++ name, outcome⟩ := by
      rw [FileMove.dest, combine_root h.root hname hslash, setRootPath,
        addLastDelimiter_of_ne hne hslash, List.append_assoc, List.singleton_append]
    rw [hdest, hfile]
    exact ⟨hthere, rfl⟩
  have hthere : ∀ move ∈ pkgMoves outcomes pkg, (system.files move.src).isSome := by
    rw [pkgMoves_eq h, List.forall_mem_cons, List.forall_mem_singleton]
    exact ⟨hchild, h.policy_there⟩
  have hall := (runAll_of_movesAll hmoves hthere).2
  rw [pkgMoves_eq h, List.forall_mem_cons, List.forall_mem_singleton, ← pkgMoves_eq h] at hall
  refine ⟨rfl, rfl, ?_⟩
  rw [allFiles, getArchivesPath, getPolicyPath,
    if_neg Bool.false_ne_true, if_neg Bool.false_ne_true, h.archives, List.singleton_append,
    List.forall_mem_cons, List.forall_mem_singleton]
  exact ⟨harrive h.child_name hchild hall.1, harrive h.policy_name h.policy_there hall.2⟩

/-- What the processor is called with: the package that was detected, whole and in the folder
that was made. -/
structure HandedOver (host : Host) (outcomes : UsbOutcomes C) (usbTempPath mountPath : List Char)
    (before handed : System (List Char) M C) (pkg pkg' : Pkg) (fullPath : List Char) : Prop where
  found : InstallPackageDetector.process host mountPath {} = (true, pkg)
  made : TemporaryFolder.construct outcomes usbTempPath = some fullPath
  root : pkg'.rootPath = fullPath ++ ['/']
  whole : Whole before handed pkg pkg'

/-- All its files are in the folder. -/
theorem HandedOver.below {usbTempPath mountPath : List Char}
    {before handed : System (List Char) M C} {pkg' : Pkg}
    (h : HandedOver host outcomes usbTempPath mountPath before handed pkg pkg' fullPath)
    (name : List Char) : TemporaryFolder.Below fullPath (pkg'.rootPath ++ name) := by
  rw [h.root]
  exact List.prefix_append _ _

/-- The processor is called with what `movePackage` gives away, if it is called at all. -/
theorem processPackage_congr (host : Host) (outcomes : UsbOutcomes C)
    (h : Detected pkg child system)
    (hslash : fullPath.getLast? ≠ some '/')
    (hfresh : ∀ path, TemporaryFolder.Below fullPath path → system.files path = none)
    {processor processor' : PackageProcessor M C}
    (hagree : ∀ handed pkg', pkg'.rootPath = fullPath ++ ['/'] → Whole system handed pkg pkg' →
      processor pkg' handed = processor' pkg' handed) :
    processPackage host outcomes processor pkg fullPath system =
      processPackage host outcomes processor' pkg fullPath system := by
  rw [processPackage, processPackage]
  by_cases hne : fullPath = []
  · rw [if_pos hne, if_pos hne]
  · rw [if_neg hne, if_neg hne, movePackage, moveFiles_eq hne]
    cases hmoved : (runAll fullPath (pkgMoves outcomes pkg) system).1 with
    | false => rfl
    | true =>
        have hwhole := whole_of_moved host h hne hslash hfresh hmoved
        have hroot : (pkg.setRootPath host fullPath).rootPath = fullPath ++ ['/'] :=
          addLastDelimiter_of_ne hne hslash
        simp only [if_true, hagree _ _ hroot hwhole]

/-! ## The copies -/

/-- Plain paths put together are plain. -/
theorem plain_append {path path' : List Char} (h : Plain path) (h' : Plain path') :
    Plain (path ++ path') :=
  ⟨fun hmem => (List.mem_append.1 hmem).elim h.1 h'.1,
    fun hmem => (List.mem_append.1 hmem).elim h.2 h'.2⟩

theorem plain_addLastDelimiter (host : Host) {path : List Char} (h : Plain path) :
    Plain (addLastDelimiter host path) := by
  rw [addLastDelimiter]
  split
  · exact plain_append h (by decide)
  · exact h

theorem plain_generateFolder (outcomes : UsbOutcomes C) {parent : List Char}
    (h : Plain parent) : Plain (TemporaryFolder.generateFolder outcomes parent) := by
  rw [TemporaryFolder.generateFolder]
  split
  · refine plain_append (plain_append h ?_) ⟨fun hmem => ?_, fun hmem => ?_⟩
    · split <;> decide
    · exact absurd (outcomes.randomName.upper _ hmem) (by decide)
    · exact absurd (outcomes.randomName.upper _ hmem) (by decide)
  · decide

/-- The temporary folder has a plain path if its parent has. -/
theorem plain_of_construct {parent : List Char} (h : Plain parent)
    (hmade : TemporaryFolder.construct outcomes parent = some fullPath) : Plain fullPath := by
  rw [TemporaryFolder.construct] at hmade
  split at hmade
  · cases hmade
    exact plain_generateFolder outcomes (by decide)
  · split at hmade
    · cases hmade
      exact plain_generateFolder outcomes h
    · cases hmade

/-- What moving a package leaves of the disk. -/
theorem movePackage_system (host : Host) (outcomes : UsbOutcomes C) (pkg : Pkg)
    (path : List Char) (system : System (List Char) M C) :
    (movePackage host outcomes pkg path system).2.2 =
      (moveFiles outcomes.moves (pkg.allFiles true) path system).2 := by
  rw [movePackage]
  split
  · rfl
  · rfl

/-- **The copies of a call are of exactly two paths**: the shell reads every `cp` that moving the
package asks for as it is meant. -/
theorem copies_words {usbTempPath mountPath srcPath copyPath : List Char}
    (hreadable : Readable host usbTempPath mountPath system)
    (hfound : InstallPackageDetector.process host mountPath {} = (true, pkg))
    (hmade : TemporaryFolder.construct outcomes usbTempPath = some fullPath)
    (hlog : .copy srcPath copyPath ∉ system.log)
    (h : .copy srcPath copyPath ∈ (movePackage host outcomes pkg fullPath system).2.2.log) :
    Shell.tokens (systemCmd (copyCommand srcPath copyPath)) =
      some (copyWords srcPath copyPath) := by
  have hplain := hreadable.plain
  rw [List.forall_mem_cons, List.forall_mem_cons] at hplain
  obtain ⟨htemporary, hmount, hnames⟩ := hplain
  obtain ⟨policyFile, policyFiles, child, hpolicy, hchild, rfl⟩ :=
    (InstallPackageDetector.process_eq_true_iff host mountPath {} pkg).1 hfound
  have hfile : Plain policyFile := by
    have hmem : policyFile ∈ InstallPackageDetector.withEnding host mountPath
        InstallPackageDetector.policyFile := hpolicy ▸ List.mem_cons_self
    exact hnames _ (InstallPackageDetector.mem_withEnding.1 hmem).1
  have harchive : Plain child :=
    hnames child (List.mem_of_mem_filter (hchild ▸ List.mem_singleton_self child))
  have hroot : Plain (addLastDelimiter host mountPath) := plain_addLastDelimiter host hmount
  have hfiles : ∀ src ∈ (InstallPackageDetector.InstallPkg.new host mountPath policyFile
      [child]).allFiles true, Plain src := by
    rw [allFiles, getArchivesPath, getPolicyPath, if_pos rfl, if_pos rfl, List.forall_mem_append,
      List.forall_mem_singleton]
    refine ⟨fun src hsrc => ?_, plain_append hroot hfile⟩
    obtain ⟨name, hname, rfl⟩ := List.mem_map.1 hsrc
    rw [List.mem_singleton.1 hname]
    exact plain_append hroot harchive
  rw [movePackage_system] at h
  exact moveFiles_words hfiles (plain_of_construct htemporary hmade) hlog h

/-! ## What the processor is called with -/

/-- **The processor is given a whole package**, and nothing else: two processors that do the
same with every package that was detected on the mass storage and is complete in the temporary
folder make the same of it. -/
theorem processes_whole {mountPath usbTempPath : List Char}
    (hreadable : Readable host usbTempPath mountPath system)
    (hfresh : ∀ fullPath, TemporaryFolder.construct outcomes usbTempPath = some fullPath →
      ∀ path, TemporaryFolder.Below fullPath path → system.files path = none)
    {processor processor' : PackageProcessor M C}
    (hagree : ∀ handed pkg pkg' fullPath,
      HandedOver host outcomes usbTempPath mountPath system handed pkg pkg' fullPath →
        processor pkg' handed = processor' pkg' handed) :
    operatorCall host outcomes processor usbTempPath mountPath system =
      operatorCall host outcomes processor' usbTempPath mountPath system := by
  rw [operatorCall, operatorCall]
  cases hdetected : InstallPackageDetector.process host mountPath {} with
  | mk found pkg =>
      cases found with
      | false => rfl
      | true =>
          obtain ⟨child, hpkg⟩ := detected_of_process hreadable hdetected
          cases hmade : TemporaryFolder.construct outcomes usbTempPath with
          | none => rfl
          | some fullPath =>
              have hsame := processPackage_congr host outcomes hpkg
                (getLast?_of_construct hmade) (hfresh fullPath hmade)
                fun handed pkg' hroot hwhole =>
                  hagree handed pkg pkg' fullPath ⟨hdetected, hmade, hroot, hwhole⟩
              rw [if_pos rfl, if_pos rfl]
              dsimp only
              rw [hsame]

end

/-! ## What a call takes away -/

/-- The files that the loop has taken from their places. -/
def taken (destPath : List Char) : List (FileMove C) → System (List Char) M C → List (List Char)
  | [], _ => []
  | move :: moves, system =>
      let moved := move.run destPath system
      if moved.1 then
        (if move.Leaves destPath then [] else [move.src]) ++ taken destPath moves moved.2
      else []

section

variable {host : Host} {outcomes : UsbOutcomes C} {fullPath : List Char} {pkg : Pkg}
  {child : List Char} {system : System (List Char) M C}

/-- Outside the folder the moves take files away and do nothing else. -/
theorem runAll_files_taken {list : List (FileMove C)}
    (hdest : ∀ move ∈ list, TemporaryFolder.Below fullPath (move.dest fullPath))
    {path : List Char} (hpath : ¬TemporaryFolder.Below fullPath path) :
    (runAll fullPath list system).2.files path =
      if path ∈ taken fullPath list system then none else system.files path := by
  induction list generalizing system with
  | nil => rfl
  | cons move list ih =>
      rw [List.forall_mem_cons] at hdest
      have hne : path ≠ move.dest fullPath := by
        rintro rfl
        exact hpath hdest.1
      rw [runAll, taken]
      cases hrun : (move.run fullPath system).1 with
      | true =>
          simp only [if_true]
          rw [ih hdest.2, FileMove.run_files_of_true system hrun]
          by_cases hleaves : move.Leaves fullPath
          · rw [if_pos hleaves, if_pos hleaves, List.nil_append, Function.update_of_ne hne]
          · rw [if_neg hleaves, if_neg hleaves, List.singleton_append]
            by_cases hsrc : path = move.src
            · subst hsrc
              rw [Function.update_self, ite_self, if_pos List.mem_cons_self]
            · rw [Function.update_of_ne hsrc, Function.update_of_ne hne]
              simp only [List.mem_cons, hsrc, false_or]
      | false =>
          simp only [Bool.false_eq_true, if_false, List.not_mem_nil]
          rw [FileMove.run_files_of_false system hrun]
          split
          · exact Function.update_of_ne hne _ _
          · rfl

/-- Both files go into the folder. -/
theorem dest_below (h : Detected pkg child system) (hslash : fullPath.getLast? ≠ some '/') :
    ∀ move ∈ pkgMoves outcomes pkg, TemporaryFolder.Below fullPath (move.dest fullPath) := by
  rw [pkgMoves_eq h, List.forall_mem_cons, List.forall_mem_singleton]
  exact ⟨combine_below h.root h.child_name hslash, combine_below h.root h.policy_name hslash⟩

/-- A file that can be renamed is taken from its place. -/
theorem goes_of_done (h : Detected pkg child system) (hne : fullPath ≠ [])
    (hslash : fullPath.getLast? ≠ some '/')
    (hfresh : ∀ path, TemporaryFolder.Below fullPath path → system.files path = none)
    {name : List Char} (hname : name ≠ [] ∧ '/' ∉ name)
    (hthere : (system.files (pkg.rootPath ++ name)).isSome) {outcome : MoveOutcome C}
    (hdone : outcome.rename = .done) :
    FileMove.Succeeds fullPath ⟨pkg.rootPath ++ name, outcome⟩ ∧
      ¬FileMove.Leaves fullPath ⟨pkg.rootPath ++ name, outcome⟩ := by
  refine ⟨⟨?_, Or.inl hdone⟩, ?_⟩
  · rw [FileMove.dest, combine_root h.root hname hslash]
    exact List.append_ne_nil_of_left_ne_nil hne _
  · rintro (⟨_, hself⟩ | ⟨hexdev, _⟩)
    · exact dest_ne_src h.root hname hthere hslash hfresh hself
    · rw [hdone] at hexdev
      cases hexdev

/-- Files that can be renamed are all taken. -/
theorem mem_taken_of_done (h : Detected pkg child system) (hne : fullPath ≠ [])
    (hslash : fullPath.getLast? ≠ some '/')
    (hfresh : ∀ path, TemporaryFolder.Below fullPath path → system.files path = none)
    (hdone : ∀ n, (outcomes.moves n).rename = .done)
    (hthere : ∀ path ∈ pkg.allFiles true, (system.files path).isSome) :
    ∀ path ∈ pkg.allFiles true, path ∈ taken fullPath (pkgMoves outcomes pkg) system := by
  rw [allFiles, getArchivesPath, getPolicyPath, if_pos rfl,
    if_pos rfl, h.archives, List.map_singleton, List.singleton_append, List.forall_mem_cons,
    List.forall_mem_singleton] at hthere ⊢
  obtain ⟨hfirst, hfirst_gone⟩ :=
    goes_of_done h hne hslash hfresh h.child_name hthere.1 (hdone 0)
  obtain ⟨hsecond, hsecond_gone⟩ :=
    goes_of_done h hne hslash hfresh h.policy_name h.policy_there (hdone 1)
  have hrun := (FileMove.run_eq_true_iff system).2 ⟨hfirst, hthere.1⟩
  have hchild : pkg.rootPath ++ child ∈ taken fullPath (pkgMoves outcomes pkg) system := by
    rw [pkgMoves_eq h, taken, if_pos hrun, if_neg hfirst_gone]
    exact List.mem_append_left _ (List.mem_singleton_self _)
  have hpolicy : pkg.rootPath ++ pkg.policyFile ∈
      taken fullPath (pkgMoves outcomes pkg) system := by
    by_cases hsame : pkg.rootPath ++ pkg.policyFile = pkg.rootPath ++ child
    · rwa [hsame]
    · -- the first move has left the policy where it was
      have hdest : pkg.rootPath ++ pkg.policyFile ≠
          FileMove.dest fullPath ⟨pkg.rootPath ++ child, outcomes.moves 0⟩ := by
        intro heq
        refine not_below hfresh h.policy_there ?_
        rw [heq]
        exact combine_below h.root h.child_name hslash
      have hthere := h.policy_there
      rw [← FileMove.run_files_of_ne system hsame hdest] at hthere
      have hrun' := (FileMove.run_eq_true_iff _).2 ⟨hsecond, hthere⟩
      rw [pkgMoves_eq h, taken, if_pos hrun]
      refine List.mem_append_right _ ?_
      rw [taken, if_pos hrun', if_neg hsecond_gone]
      exact List.mem_append_left _ (List.mem_singleton_self _)
  exact ⟨hchild, hpolicy⟩

/-- After a processor that does nothing to the disk it is as the moves left it. -/
theorem processPackage_files (hne : fullPath ≠ [])
    {processor : PackageProcessor M C}
    (hidle : ∀ pkg handed, (processor pkg handed).2.files = handed.files) :
    (processPackage host outcomes processor pkg fullPath system).2.files =
      (runAll fullPath (pkgMoves outcomes pkg) system).2.files := by
  rw [processPackage, if_neg hne, movePackage, moveFiles_eq hne]
  cases hmoved : (runAll fullPath (pkgMoves outcomes pkg) system).1 with
  | false => rfl
  | true => exact hidle _ _

/-- **A package that is not processed is lost.**  A call whose processor does nothing to the
disk leaves it as it was without the files that had been moved by then; where files can be
renamed this is the whole package. -/
theorem lost_unless_processed {mountPath usbTempPath : List Char}
    (hreadable : Readable host usbTempPath mountPath system)
    (hdetected : InstallPackageDetector.process host mountPath {} = (true, pkg))
    (hmade : TemporaryFolder.construct outcomes usbTempPath = some fullPath)
    (hne : fullPath ≠ [])
    (hfresh : ∀ path, TemporaryFolder.Below fullPath path → system.files path = none)
    (hremoves : ∀ path, outcomes.removes path = true) {processor : PackageProcessor M C}
    (hidle : ∀ pkg handed, (processor pkg handed).2.files = handed.files) :
    (∀ path, (operatorCall host outcomes processor usbTempPath mountPath system).2.files path =
        if path ∈ taken fullPath (pkgMoves outcomes pkg) system then none
        else system.files path) ∧
      ((∀ n, (outcomes.moves n).rename = .done) →
        (∀ path ∈ pkg.allFiles true, (system.files path).isSome) → ∀ path ∈ pkg.allFiles true,
        (operatorCall host outcomes processor usbTempPath mountPath system).2.files path =
          none) := by
  obtain ⟨child, hpkg⟩ := detected_of_process hreadable hdetected
  have hslash := getLast?_of_construct hmade
  have hfiles (path : List Char) :
      (operatorCall host outcomes processor usbTempPath mountPath system).2.files path =
        if path ∈ taken fullPath (pkgMoves outcomes pkg) system then none
        else system.files path := by
    rw [operatorCall, hdetected, hmade]
    simp only [if_true, TemporaryFolder.destruct, if_neg hne, TemporaryFolder.travelsalRemove,
      hremoves, and_true, processPackage_files hne hidle]
    by_cases hbelow : TemporaryFolder.Below fullPath path
    · rw [if_pos hbelow, hfresh path hbelow, ite_self]
    · rw [if_neg hbelow, runAll_files_taken (dest_below hpkg hslash) hbelow]
  refine ⟨hfiles, fun hdone hthere path hpath => ?_⟩
  rw [hfiles, if_pos (mem_taken_of_done hpkg hne hslash hfresh hdone hthere path hpath)]

end

/-! ## A mass storage with a package -/

/-- A stick with a policy and one archive. -/
def onePackageHost : Host where
  before := fun _ _ => ' '
  readdir := fun path =>
    if path = "/media/a".toList then
      [".".toList, "..".toList, "Policy.json".toList, "m.zip".toList]
    else []

/-- Its files, and nothing else. -/
def onePackageDisk : System (List Char) Unit ℕ where
  modules := ()
  files := fun path =>
    if path = "/media/a/Policy.json".toList then some 1
    else if path = "/media/a/m.zip".toList then some 2
    else none

/-- All files can be renamed and removed. -/
def worksFine : UsbOutcomes ℕ where
  locates := true
  randomName := ⟨List.replicate 10 'X', rfl, fun c hc => by
    rw [List.eq_of_mem_replicate hc]
    decide⟩
  mkdir := true
  moves := fun _ => ⟨true, .done, true, id, true⟩
  removes := fun _ => true

/-- The stick can be read. -/
theorem onePackage_readable : Readable onePackageHost [] "/media/a".toList onePackageDisk :=
  ⟨by decide, by decide, by decide, by decide⟩

/-- Nothing is in the folder yet. -/
theorem onePackage_fresh : ∀ path, TemporaryFolder.Below "/tmp/XXXXXXXXXX".toList path →
    onePackageDisk.files path = none := by
  intro path hbelow
  have hpolicy : path ≠ "/media/a/Policy.json".toList := by
    rintro rfl
    exact absurd hbelow (by decide)
  have hchild : path ≠ "/media/a/m.zip".toList := by
    rintro rfl
    exact absurd hbelow (by decide)
  exact (if_neg hpolicy).trans (if_neg hchild)

/-- A processor that throws unless the policy and the archive are in the temporary folder with
their contents does there what one does that never throws. -/
theorem processes_whole_onePackage :
    operatorCall onePackageHost worksFine (fun _ handed => (some true, handed)) []
        "/media/a".toList onePackageDisk =
      operatorCall onePackageHost worksFine
        (fun _ handed =>
          (if handed.files "/tmp/XXXXXXXXXX/Policy.json".toList = some 1 ∧
              handed.files "/tmp/XXXXXXXXXX/m.zip".toList = some 2 then some true else none,
            handed)) [] "/media/a".toList onePackageDisk := by
  refine processes_whole onePackage_readable ?_ ?_
  · rintro _ ⟨⟩
    exact onePackage_fresh
  · intro handed pkg pkg' fullPath hgiven
    obtain rfl : (⟨"/media/a/".toList, "Policy.json".toList, ["m.zip".toList]⟩ : Pkg) = pkg :=
      congrArg Prod.snd hgiven.found
    obtain rfl : "/tmp/XXXXXXXXXX".toList = fullPath := Option.some.inj hgiven.made
    have hpolicy := (hgiven.whole.files "Policy.json".toList (by decide)).2
    have hchild := (hgiven.whole.files "m.zip".toList (by decide)).2
    rw [hgiven.root] at hpolicy hchild
    rw [if_pos ⟨hpolicy, hchild⟩]

/-- The platform cannot be stopped, and the package is gone. -/
theorem lost_unless_processed_onePackage :
    (operatorCall onePackageHost worksFine (fun _ handed => (some false, handed)) []
        "/media/a".toList onePackageDisk).2.files "/media/a/m.zip".toList = none :=
  (lost_unless_processed onePackage_readable
    (show _ = (true, ⟨"/media/a/".toList, "Policy.json".toList, ["m.zip".toList]⟩) by decide)
    (show TemporaryFolder.construct worksFine [] = some "/tmp/XXXXXXXXXX".toList from rfl)
    (by decide) onePackage_fresh (fun _ => rfl) fun _ _ => rfl).2 (fun _ => rfl) (by decide) _
    (by decide)

end UsbProcessingPipeline

end NewCPP.Deployment
