import Mathlib.Data.List.GetD
import NewCPP.Deployment.Unpacker

/-!
# Detecting a package

`InstallPackageDetector::process` looks for a policy file and for one archive among the
entries of a folder.  All names are compared from their ends, as far as the name that is
looked for reaches, and `.` and `..` are entries like the others.

* `equalFromEnd_child_iff` — which names of children such a comparison accepts.
* `process_eq_true_iff` — when it says yes, and which files it then puts into the package.
* `detectsReal_iff` — for which folders a detected package is one: those in which no entry
  merely looks like a policy file, like an archive, or like a file of a module.

## Design notes

**The file system.**  Next to the names that `readdir` lists, `isDirectory` tells which paths
are directories; the detector does not ask.

**Purpose.**  `IsPackage` says what a package is by what is in the folder: one policy file by
its name, and one archive that is a file of its type or a folder that is a module.
`NoLookalikes` is the condition on the listing under which names that end alike are the names
themselves.

**Order.**  `readdir` lists in any order; the first policy file counts, and there must be
exactly one archive.
-/

namespace NewCPP.Deployment.InstallPackageDetector

/-- Of `InstallPkg`, what the constructor sets and the detector gives away. -/
structure InstallPkg where
  rootPath : List Char := []
  policyFile : List Char := []
  archives : List (List Char) := []
  deriving DecidableEq

/-- The path, with a slash at its end. -/
def addLastDelimiter (host : Host) (path : List Char) : List Char :=
  if host.back path ≠ '/' then path ++ ['/'] else path

/-- The constructor with three arguments. -/
def InstallPkg.new (host : Host) (rootPath policyFile : List Char)
    (archives : List (List Char)) : InstallPkg :=
  { rootPath := addLastDelimiter host rootPath, policyFile, archives }

/-- The name of a policy file, `POLICY_FILE`. -/
def policyFile : List Char := "Policy.json".toList

/-- `ArchiveDetector::match`. -/
def archiveMatch (host : Host) (filePath : List Char) : Bool :=
  host.archTypes.any fun p => p.2 filePath

/-- The entries that end like a policy file. -/
def findPolicyFile (host : Host) (path : List Char) : List (List Char) :=
  host.process (host.equalFromEnd policyFile) path

/-- The entries that look like an archive of some type. -/
def findArchiveFile (host : Host) (path : List Char) : List (List Char) :=
  host.process (archiveMatch host) path

/-- The result, and the package of the detector after the call. -/
def process (host : Host) (path : List Char) (package : InstallPkg) : Bool × InstallPkg :=
  match findPolicyFile host path with
  | [] => (false, package)
  | policy :: _ =>
      let archFiles := findArchiveFile host path
      if archFiles.length ≠ 1 then (false, package)
      else (true, InstallPkg.new host path policy archFiles)

/-! ## The comparisons -/

/-- Within the string, the bytes in front of it do not matter. -/
theorem reversed_eq_getElem (host : Host) {str : List Char} {index : ℕ}
    (h : index < str.reverse.length) : host.reversed str index = str.reverse[index] :=
  List.getD_eq_getElem _ _ h

/-- A comparison from the end stays in the string if this has a character that is not looked
for. -/
theorem equalFromEnd_iff (host : Host) {ending str : List Char} {c : Char} (hmem : c ∈ str)
    (hnot : c ∉ ending) : host.equalFromEnd ending str = true ↔ ending <:+ str := by
  rw [Host.equalFromEnd, decide_eq_true_eq, ← List.reverse_prefix]
  constructor
  · intro heq
    have hcommon (i : ℕ) (hi : i < ending.reverse.length) (hi' : i < str.reverse.length) :
        ending.reverse[i] = str.reverse[i] := by
      rw [← reversed_eq_getElem host hi']
      simp only [heq, List.getElem_map, List.getElem_range]
    by_cases hlen : ending.length ≤ str.length
    · refine List.prefix_iff_getElem.2 ⟨by simpa using hlen, fun i hi => ?_⟩
      exact hcommon i hi _
    · have hfront : str.reverse <+: ending.reverse := by
        have hle : str.reverse.length ≤ ending.reverse.length := by simp; omega
        exact List.prefix_iff_getElem.2 ⟨hle, fun i hi => (hcommon i _ hi).symm⟩
      exact absurd (List.mem_reverse.1 (hfront.subset (List.mem_reverse.2 hmem))) hnot
  · intro hfront
    refine List.ext_getElem (by simp) fun i hi _ => ?_
    have hi' : i < str.reverse.length := lt_of_lt_of_le hi hfront.length_le
    rw [List.getElem_map, List.getElem_range, reversed_eq_getElem host hi']
    exact hfront.getElem hi

/-- Of the path of a child, only its name is compared. -/
theorem equalFromEnd_child_iff (host : Host) {ending : List Char} (hslash : '/' ∉ ending)
    (path name : List Char) :
    host.equalFromEnd ending (path ++ '/' :: name) = true ↔ ending <:+ name := by
  have hmem : '/' ∈ path ++ '/' :: name := List.mem_append_right _ List.mem_cons_self
  rw [equalFromEnd_iff host hmem hslash]
  constructor
  · intro hsuffix
    rcases List.suffix_or_suffix_of_suffix hsuffix (List.suffix_append path ('/' :: name)) with
      h | h
    · rcases List.suffix_cons_iff.1 h with rfl | h
      · exact absurd List.mem_cons_self hslash
      · exact h
    · exact absurd (h.subset List.mem_cons_self) hslash
  · intro hsuffix
    exact List.suffix_append_of_suffix (hsuffix.trans (List.suffix_cons _ _))

/-- The entries whose names have the ending. -/
def withEnding (host : Host) (path ending : List Char) : List (List Char) :=
  (host.readdir path).filter fun name => ending <:+ name

/-- A filter by such a comparison is one by the ends of the names. -/
theorem process_equalFromEnd (host : Host) {ending : List Char} (hslash : '/' ∉ ending)
    (path : List Char) :
    host.process (host.equalFromEnd ending) path = withEnding host path ending := by
  refine List.filter_congr fun name _ => ?_
  rw [Bool.eq_iff_iff, equalFromEnd_child_iff host hslash, decide_eq_true_eq]

/-! ## What looks like an archive -/

/-- A folder with names that end as those of the files of a module. -/
def LooksLikeModule (host : Host) (folder : List Char) : Prop :=
  withEnding host folder Host.moduleConfig ≠ [] ∧
    withEnding host folder Host.moduleImpl ≠ [] ∧
    (withEnding host folder Host.moduleWeightsExt).length = 1

/-- What `archiveMatch` makes of the name of a child. -/
def LooksLikeArchive (host : Host) (path name : List Char) : Prop :=
  ".zip".toList <:+ name ∨ ".tar".toList <:+ name ∨ LooksLikeModule host (path ++ '/' :: name)

/-- Some name ends so. -/
theorem fileNameDetector_iff (host : Host) {filename : List Char} (hslash : '/' ∉ filename)
    (path : List Char) :
    host.fileNameDetector path filename = true ↔ withEnding host path filename ≠ [] := by
  rw [Host.fileNameDetector, process_equalFromEnd host hslash, decide_eq_true_eq, gt_iff_lt,
    List.length_pos_iff]

/-- What looks like a module to the unpacker. -/
theorem structureMatcher_iff (host : Host) (folder : List Char) :
    host.structureMatcher folder = true ↔ LooksLikeModule host folder := by
  have hconfig := fileNameDetector_iff host (show '/' ∉ Host.moduleConfig by decide) folder
  have himpl := fileNameDetector_iff host (show '/' ∉ Host.moduleImpl by decide) folder
  have hweights : host.process (host.extensionMatcher Host.moduleWeightsExt) folder =
      withEnding host folder Host.moduleWeightsExt :=
    process_equalFromEnd host (by decide) folder
  rw [Host.structureMatcher, LooksLikeModule, ← hconfig, ← himpl, hweights]
  cases host.fileNameDetector folder Host.moduleConfig <;>
    cases host.fileNameDetector folder Host.moduleImpl <;> simp

/-- What looks like an archive to it. -/
theorem archiveMatch_child_iff (host : Host) (path name : List Char) :
    archiveMatch host (path ++ '/' :: name) = true ↔ LooksLikeArchive host path name := by
  have hzip := equalFromEnd_child_iff host (show '/' ∉ ".zip".toList by decide) path name
  have htar := equalFromEnd_child_iff host (show '/' ∉ ".tar".toList by decide) path name
  rw [LooksLikeArchive, ← hzip, ← htar, ← structureMatcher_iff]
  simp [archiveMatch, Host.archTypes, Host.extensionMatcher]

instance (host : Host) (path name : List Char) : Decidable (LooksLikeArchive host path name) :=
  decidable_of_iff _ (archiveMatch_child_iff host path name)

/-- All entries whose names end like a policy file's. -/
theorem findPolicyFile_eq (host : Host) (path : List Char) :
    findPolicyFile host path = withEnding host path policyFile :=
  process_equalFromEnd host (by decide) path

/-- All entries that look like an archive. -/
theorem findArchiveFile_eq (host : Host) (path : List Char) : findArchiveFile host path =
    (host.readdir path).filter fun name => LooksLikeArchive host path name := by
  refine List.filter_congr fun name _ => ?_
  rw [Bool.eq_iff_iff, archiveMatch_child_iff, decide_eq_true_eq]

/-! ## Packages -/

/-- The folder holds a file of that name. -/
def holdsFile (host : Host) (isDirectory : List Char → Bool) (folder name : List Char) : Bool :=
  decide (name ∈ host.readdir folder) && !isDirectory (folder ++ '/' :: name)

/-- What makes a folder a module: its two files, and exactly one with weights. -/
def isModule (host : Host) (isDirectory : List Char → Bool) (folder : List Char) : Bool :=
  holdsFile host isDirectory folder Host.moduleConfig &&
    holdsFile host isDirectory folder Host.moduleImpl &&
    decide ((withEnding host folder Host.moduleWeightsExt).length = 1)

/-- A child that is an archive: by the end of its name, or as the folder of a module. -/
def isArchive (host : Host) (isDirectory : List Char → Bool) (path name : List Char) : Bool :=
  decide (name ≠ ['.'] ∧ name ≠ ['.', '.']) &&
    (decide (".zip".toList <:+ name) || decide (".tar".toList <:+ name) ||
      isModule host isDirectory (path ++ '/' :: name))

/-- The entries that are archives. -/
def archives (host : Host) (isDirectory : List Char → Bool) (path : List Char) :
    List (List Char) :=
  (host.readdir path).filter (isArchive host isDirectory path)

/-- The folder is a package, and `package` is what it holds. -/
structure IsPackage (host : Host) (isDirectory : List Char → Bool) (path : List Char)
    (package : InstallPkg) : Prop where
  policy : policyFile ∈ host.readdir path
  archive : ∃ child, archives host isDirectory path = [child] ∧
    package = InstallPkg.new host path policyFile [child]

/-- If there are entries with the end of the policy file, and one that looks like an archive,
then the first is the policy file and the other is an archive. -/
def NoLookalikes (host : Host) (isDirectory : List Char → Bool) (path : List Char) : Prop :=
  ∀ policy policies child,
    withEnding host path policyFile = policy :: policies →
    ((host.readdir path).filter fun name => LooksLikeArchive host path name) = [child] →
      policy = policyFile ∧ isArchive host isDirectory path child = true

/-- When a package is detected, and which one. -/
theorem process_eq_true_iff (host : Host) (path : List Char) (package package' : InstallPkg) :
    process host path package = (true, package') ↔
      ∃ policy policies child,
        withEnding host path policyFile = policy :: policies ∧
        ((host.readdir path).filter fun name => LooksLikeArchive host path name) = [child] ∧
        package' = InstallPkg.new host path policy [child] := by
  rw [process, findPolicyFile_eq, findArchiveFile_eq]
  cases withEnding host path policyFile with
  | nil => simp
  | cons policy policies =>
      dsimp only
      split
      · rename_i hlen
        constructor
        · intro h
          cases h
        · rintro ⟨_, _, child, -, hchild, -⟩
          rw [hchild] at hlen
          exact absurd rfl hlen
      · rename_i hlen
        obtain ⟨child, hchild⟩ := List.length_eq_one_iff.1 (not_not.1 hlen)
        rw [hchild]
        constructor
        · intro h
          exact ⟨policy, policies, child, rfl, rfl, (Prod.mk.inj h).2.symm⟩
        · rintro ⟨_, _, child', hpolicy, hchild', rfl⟩
          cases hpolicy
          rw [List.singleton_inj.1 hchild']

theorem mem_withEnding {host : Host} {path ending name : List Char} :
    name ∈ withEnding host path ending ↔ name ∈ host.readdir path ∧ ending <:+ name := by
  rw [withEnding, List.mem_filter, decide_eq_true_eq]

/-- A file is an entry that ends in its own name. -/
theorem withEnding_ne_nil_of_holdsFile {host : Host} {isDirectory : List Char → Bool}
    {folder name : List Char} (h : holdsFile host isDirectory folder name = true) :
    withEnding host folder name ≠ [] := by
  have hmem := of_decide_eq_true (Bool.and_eq_true_iff.1 h).1
  exact List.ne_nil_of_mem (mem_withEnding.2 ⟨hmem, List.suffix_rfl⟩)

/-- What is an archive looks like one. -/
theorem looksLikeArchive_of_isArchive {host : Host} {isDirectory : List Char → Bool}
    {path name : List Char} (h : isArchive host isDirectory path name = true) :
    LooksLikeArchive host path name := by
  simp only [isArchive, isModule, Bool.and_eq_true, Bool.or_eq_true, decide_eq_true_eq] at h
  rcases h.2 with (hzip | htar) | ⟨⟨hconfig, himpl⟩, hweights⟩
  · exact Or.inl hzip
  · exact Or.inr (Or.inl htar)
  · exact Or.inr (Or.inr ⟨withEnding_ne_nil_of_holdsFile hconfig,
      withEnding_ne_nil_of_holdsFile himpl, hweights⟩)

/-- If one entry looks like an archive, the archives are among that one. -/
theorem archives_eq {host : Host} (isDirectory : List Char → Bool) {path child : List Char}
    (h : ((host.readdir path).filter fun name => LooksLikeArchive host path name) = [child]) :
    archives host isDirectory path = [child].filter (isArchive host isDirectory path) := by
  rw [← h, archives, List.filter_filter]
  refine List.filter_congr fun name _ => ?_
  cases harchive : isArchive host isDirectory path name with
  | false => rfl
  | true => rw [decide_eq_true (looksLikeArchive_of_isArchive harchive), Bool.and_self]

/-- **Only packages are detected**: exactly in the folders without lookalikes. -/
theorem detectsReal_iff (host : Host) (isDirectory : List Char → Bool) (path : List Char)
    (package : InstallPkg) :
    ((process host path package).1 = true →
        IsPackage host isDirectory path (process host path package).2) ↔
      NoLookalikes host isDirectory path := by
  constructor
  · intro h policy policies child hpolicy hchild
    have hprocess := (process_eq_true_iff host path package _).2
      ⟨policy, policies, child, hpolicy, hchild, rfl⟩
    rw [hprocess] at h
    obtain ⟨-, child', harchives, hpackage⟩ := h rfl
    have hfile := congrArg InstallPkg.policyFile hpackage
    refine ⟨hfile, ?_⟩
    rw [archives_eq isDirectory hchild] at harchives
    exact List.filter_eq_self.1 (List.filter_sublist.eq_of_length (by rw [harchives]; rfl)) child
      List.mem_cons_self
  · intro h htrue
    obtain ⟨policy, policies, child, hpolicy, hchild, hpackage⟩ :=
      (process_eq_true_iff host path package _).1 (Prod.ext htrue rfl)
    obtain ⟨rfl, harchive⟩ := h policy policies child hpolicy hchild
    have hmem : policyFile ∈ withEnding host path policyFile :=
      hpolicy ▸ List.mem_cons_self
    refine ⟨(mem_withEnding.1 hmem).1, child, ?_, hpackage⟩
    rw [archives_eq isDirectory hchild, List.filter_cons_of_pos harchive, List.filter_nil]

/-- A folder without the policy file. -/
theorem not_detectsReal_myPolicy :
    ¬∀ (host : Host) (isDirectory : List Char → Bool) (path : List Char)
      (package : InstallPkg), (process host path package).1 = true →
        IsPackage host isDirectory path (process host path package).2 := by
  intro h
  let host : Host :=
    { before := fun _ _ => ' '
      readdir := fun path =>
        if path = "/media/a".toList then
          [".".toList, "..".toList, "MyPolicy.json".toList, "m.zip".toList]
        else [] }
  have hpackage := h host (fun _ => false) "/media/a".toList {} (by decide)
  exact absurd hpackage.policy (by decide)

end NewCPP.Deployment.InstallPackageDetector
