import NewCPP.Library.CharString

/-!
# Unpacking an archive

`ArchiveDetector` tells by its name or its content what an archive is, and `Unpacker`
builds the command that unpacks it into a folder below the destination; the folder is
named after the archive.

* `component_lastNameComponent_iff` — from which paths that name is one path component.
* `unpack_inside_iff` — for which archives the destination of the command is inside the
  destination folder.  From the name `...zip` the cut at the last dot leaves `..`, and
  nothing looks at what it leaves.

## Design notes

**Strings.**  A path is a list of characters.  `std::equal` over reverse iterators and
`back` read in front of a string that is too short: `before` says what they find there.

**The file system.**  `readdir` lists the names in a folder, with `.` and `..`, and none
where `opendir` fails.

**The destination.**  A destination that ends in `/` gets no second one.
-/

namespace NewCPP.Deployment

open Library.CharString

/-- What the archive detector and the unpacker read besides their arguments. -/
structure Host where
  /-- The bytes in front of a string, from its first one backwards. -/
  before : List Char → ℕ → Char
  readdir : List Char → List (List Char)

namespace Host

/-- `*(str.rbegin() + index)`. -/
def reversed (host : Host) (str : List Char) (index : ℕ) : Char :=
  str.reverse.getD index (host.before str (index - str.length))

/-- The last character, as `reversed` finds it. -/
def back (host : Host) (str : List Char) : Char :=
  host.reversed str 0

/-- `std::equal(ending.rbegin(), ending.rend(), str.rbegin())`. -/
def equalFromEnd (host : Host) (ending str : List Char) : Bool :=
  ending.reverse = (List.range ending.length).map (host.reversed str)

/-! ## The archive detector -/

/-- `FileMatcher::process`. -/
def process (host : Host) (matcher : List Char → Bool) (path : List Char) :
    List (List Char) :=
  (host.readdir path).filter fun filePath => matcher (path ++ '/' :: filePath)

/-- Some entry of the folder ends in the file's name. -/
def fileNameDetector (host : Host) (path filename : List Char) : Bool :=
  (host.process (host.equalFromEnd filename) path).length > 0

/-- The path ends in the extension. -/
def extensionMatcher (host : Host) (extension path : List Char) : Bool :=
  host.equalFromEnd extension path

/-- The file that configures a module. -/
def moduleConfig : List Char := "MLModule.json".toList

/-- The file that implements a module. -/
def moduleImpl : List Char := "concrete_module.py".toList

/-- The extension of a module's weights. -/
def moduleWeightsExt : List Char := ".hdf5".toList

/-- The folder looks like a module that is not packed. -/
def structureMatcher (host : Host) (path : List Char) : Bool :=
  if !host.fileNameDetector path moduleConfig then false
  else if !host.fileNameDetector path moduleImpl then false
  else (host.process (host.extensionMatcher moduleWeightsExt) path).length = 1

end Host

/-- What an archive can be. -/
inductive ArchiveType where
  | unknown
  | zip
  | tar
  | folder
  deriving DecidableEq

namespace Host

/-- The types in the order in which they are tried, with what tells them. -/
def archTypes (host : Host) : List (ArchiveType × (List Char → Bool)) :=
  [(.zip, host.extensionMatcher ".zip".toList),
    (.tar, host.extensionMatcher ".tar".toList),
    (.folder, host.structureMatcher)]

/-- `ArchiveDetector::identify`. -/
def identify (host : Host) (path : List Char) : ArchiveType :=
  match host.archTypes.find? fun p => p.2 path with
  | some p => p.1
  | none => .unknown

end Host

/-! ## The unpacker -/

namespace Unpacker

/-- The character occurs in the string. -/
def characterExist (str : List Char) (c : Char) : Bool :=
  (find [c] str).isSome

/-- The end of `lastNameComponent`: a name without its extension. -/
def cutExtension (name : List Char) : List Char :=
  match findLastOf '.' name with
  | none => name
  | some index => name.take index

/-- The name behind the last slash, without its extension; a path with no slash stays whole. -/
def lastNameComponent (host : Host) (path : List Char) : List Char :=
  let result := if host.back path = '/' then path.dropLast else path
  match findLastOf '/' result with
  | none => result
  | some index => cutExtension (result.drop (index + 1))

/-- The command for a zip file. -/
def zipBuilder (archivePath destPath : List Char) : List Char :=
  "unzip -qo '".toList ++ archivePath ++ "' -d '".toList ++ destPath ++ "'".toList

/-- The command for a tar file. -/
def tarBuilder (archivePath destPath : List Char) : List Char :=
  "mkdir -p '".toList ++ destPath ++ "' && tar -C '".toList ++ destPath ++
    "' -xf '".toList ++ archivePath ++ "'".toList

/-- The command for a folder. -/
def folderBuilder (archivePath destPath : List Char) : List Char :=
  "cp -fr '".toList ++ archivePath ++ "' '".toList ++ destPath ++ "'".toList

/-- A command from the path of the archive and that of its destination. -/
abbrev CmdBuilder := List Char → List Char → List Char

/-- Which command is for which type; there is none for `unknown`. -/
def builders : List (ArchiveType × CmdBuilder) :=
  [(.zip, zipBuilder), (.tar, tarBuilder), (.folder, folderBuilder)]

/-- The call `it->second(archivePath, finalDestPath)`. -/
structure BuilderCall where
  builder : CmdBuilder
  archivePath : List Char
  destPath : List Char

/-- The command line that is handed to `system`. -/
def BuilderCall.cmd (call : BuilderCall) : List Char :=
  call.builder call.archivePath call.destPath

/-- The folder that the archive is unpacked into. -/
def finalDestPath (host : Host) (archivePath destPath : List Char) : List Char :=
  destPath ++ (if host.back destPath = '/' then [] else ['/']) ++
    lastNameComponent host archivePath

/-- `unpack` up to the command that it executes; `none` where it returns `false` without
one. -/
def unpack (host : Host) (archivePath destPath : List Char) : Option BuilderCall :=
  let archType := host.identify archivePath
  if archType = .unknown then none
  else if characterExist archivePath '\'' || characterExist destPath '\'' then none
  else
    (builders.find? fun b => b.1 = archType).map fun it =>
      { builder := it.2
        archivePath := archivePath
        destPath := finalDestPath host archivePath destPath }

/-- Every archive that is identified has a builder. -/
theorem exists_builder {archType : ArchiveType} (h : archType ≠ .unknown) :
    ∃ it, builders.find? (fun b => b.1 = archType) = some it := by
  cases archType with
  | unknown => exact absurd rfl h
  | zip => exact ⟨_, rfl⟩
  | tar => exact ⟨_, rfl⟩
  | folder => exact ⟨_, rfl⟩

/-- What `unpack` accepts, and what it makes of it. -/
theorem unpack_eq_some {host : Host} {archivePath destPath : List Char} {call : BuilderCall}
    (h : unpack host archivePath destPath = some call) :
    host.identify archivePath ≠ .unknown ∧ '\'' ∉ archivePath ∧ '\'' ∉ destPath ∧
      call.archivePath = archivePath ∧
      call.destPath = finalDestPath host archivePath destPath := by
  simp only [unpack] at h
  split at h
  · cases h
  · rename_i hknown
    split at h
    · cases h
    · rename_i hquote
      obtain ⟨it, hit⟩ := exists_builder hknown
      rw [hit] at h
      simp only [characterExist, Bool.or_eq_true, find_singleton_isSome, not_or] at hquote
      cases h
      exact ⟨hknown, hquote.1, hquote.2, rfl, rfl⟩

/-! ## Path components -/

/-- A name that denotes an entry of the folder it is appended to. -/
def Component (name : List Char) : Prop :=
  name ≠ [] ∧ '/' ∉ name ∧ name ≠ ['.'] ∧ name ≠ ['.', '.']

/-- At most two dots, a dot, and an extension; or nothing at all. -/
def DotName (name : List Char) : Prop :=
  name = [] ∨
    ∃ stem extension, name = stem ++ '.' :: extension ∧ '.' ∉ extension ∧
      (stem = [] ∨ stem = ['.'] ∨ stem = ['.', '.'])

/-- The path without a slash at its end. -/
def withoutSlash (path : List Char) : List Char :=
  if path.getLast? = some '/' then path.dropLast else path

/-- The last name of the path is there and is not made of dots. -/
def NamesComponent (archivePath : List Char) : Prop :=
  (∃ folder name, withoutSlash archivePath = folder ++ '/' :: name ∧ '/' ∉ name ∧
      ¬DotName name) ∨
    Component (withoutSlash archivePath)

/-- The last character of a path that is not empty. -/
theorem back_eq_slash_iff (host : Host) {str : List Char} (h : str ≠ []) :
    host.back str = '/' ↔ str.getLast? = some '/' := by
  obtain ⟨last, hlast⟩ := Option.isSome_iff_exists.1 (List.getLast?_isSome.2 h)
  have hback : host.back str = last := by
    rw [List.getLast?_eq_head?_reverse, List.head?_eq_getElem?] at hlast
    rw [Host.back, Host.reversed, List.getD_eq_getElem?_getD, hlast]
    rfl
  rw [hback, hlast, Option.some_inj]

/-- One slash at the end is dropped, if there is one. -/
theorem dropSlash_eq (host : Host) (path : List Char) :
    (if host.back path = '/' then path.dropLast else path) = withoutSlash path := by
  by_cases h : path = []
  · subst h
    simp [withoutSlash]
  · simp only [withoutSlash, back_eq_slash_iff host h]

/-- A name without a dot has no extension. -/
theorem cutExtension_of_not_mem {name : List Char} (h : '.' ∉ name) :
    cutExtension name = name := by
  rw [cutExtension, findLastOf_eq_none h]

/-- The extension begins at the last dot. -/
theorem cutExtension_append (stem : List Char) {extension : List Char}
    (h : '.' ∉ extension) : cutExtension (stem ++ '.' :: extension) = stem := by
  rw [cutExtension, findLastOf_append '.' stem h]
  exact List.take_left

theorem slash_not_mem_cutExtension {name : List Char} (h : '/' ∉ name) :
    '/' ∉ cutExtension name := by
  rw [cutExtension]
  split
  · exact h
  · exact fun hmem => h (List.mem_of_mem_take hmem)

/-- The cut leaves a component unless the name starts with its extension or with dots. -/
theorem component_cutExtension_iff {name : List Char} (h : '/' ∉ name) :
    Component (cutExtension name) ↔ ¬DotName name := by
  have hslash := slash_not_mem_cutExtension h
  constructor
  · rintro ⟨hne, -, hdot, hdots⟩ (rfl | ⟨stem, extension, rfl, hextension, hstem⟩)
    · exact hne rfl
    · rw [cutExtension_append stem hextension] at hne hdot hdots
      exact hstem.elim hne (Or.rec hdot hdots)
  · intro hname
    by_cases hmem : '.' ∈ name
    · obtain ⟨stem, extension, rfl, hextension⟩ := exists_last_occurrence hmem
      rw [cutExtension_append stem hextension] at hslash ⊢
      have hstem : ¬(stem = [] ∨ stem = ['.'] ∨ stem = ['.', '.']) := fun hstem =>
        hname (Or.inr ⟨stem, extension, rfl, hextension, hstem⟩)
      simp only [not_or] at hstem
      exact ⟨hstem.1, hslash, hstem.2.1, hstem.2.2⟩
    · rw [cutExtension_of_not_mem hmem]
      refine ⟨fun hnil => hname (Or.inl hnil), h, ?_, ?_⟩
      · rintro rfl
        simp at hmem
      · rintro rfl
        simp at hmem

/-- A path without a slash is its own last component, extension and all. -/
theorem lastNameComponent_of_not_mem (host : Host) {path : List Char}
    (h : '/' ∉ withoutSlash path) : lastNameComponent host path = withoutSlash path := by
  simp only [lastNameComponent, dropSlash_eq, findLastOf_eq_none h]

/-- Otherwise the component loses its extension. -/
theorem lastNameComponent_append (host : Host) {path folder name : List Char}
    (hpath : withoutSlash path = folder ++ '/' :: name) (hname : '/' ∉ name) :
    lastNameComponent host path = cutExtension name := by
  simp only [lastNameComponent, dropSlash_eq, hpath, findLastOf_append '/' folder hname,
    drop_succ_append]

/-- No slash is left in it. -/
theorem slash_not_mem_lastNameComponent (host : Host) (path : List Char) :
    '/' ∉ lastNameComponent host path := by
  by_cases h : '/' ∈ withoutSlash path
  · obtain ⟨folder, name, hpath, hname⟩ := exists_last_occurrence h
    rw [lastNameComponent_append host hpath hname]
    exact slash_not_mem_cutExtension hname
  · rw [lastNameComponent_of_not_mem host h]
    exact h

/-- From which paths the name of the folder is one path component. -/
theorem component_lastNameComponent_iff (host : Host) (path : List Char) :
    Component (lastNameComponent host path) ↔ NamesComponent path := by
  by_cases h : '/' ∈ withoutSlash path
  · obtain ⟨folder, name, hpath, hname⟩ := exists_last_occurrence h
    rw [lastNameComponent_append host hpath hname, component_cutExtension_iff hname]
    constructor
    · exact fun hdot => Or.inl ⟨folder, name, hpath, hname, hdot⟩
    · rintro (⟨folder', name', hpath', hname', hdot⟩ | hcomponent)
      · rwa [← component_cutExtension_iff hname, ← lastNameComponent_append host hpath hname,
          lastNameComponent_append host hpath' hname', component_cutExtension_iff hname']
      · exact absurd h hcomponent.2.1
  · rw [lastNameComponent_of_not_mem host h]
    constructor
    · exact Or.inr
    · rintro (⟨folder, name, hpath, -, -⟩ | hcomponent)
      · rw [hpath] at h
        simp at h
      · exact hcomponent

/-- A file with an extension in a folder: the component is what stands before the
extension. -/
theorem namesComponent_file_iff (folder stem extension : List Char)
    (hstem : '/' ∉ stem) (hslash : '/' ∉ extension) (hdot : '.' ∉ extension) :
    NamesComponent (folder ++ '/' :: (stem ++ '.' :: extension)) ↔ Component stem := by
  have hname : '/' ∉ stem ++ '.' :: extension := by
    simp [hstem, hslash]
  have hpath : withoutSlash (folder ++ '/' :: (stem ++ '.' :: extension)) =
      folder ++ '/' :: (stem ++ '.' :: extension) := by
    refine if_neg fun hlast => hname ?_
    have hne : stem ++ '.' :: extension ≠ [] := by simp
    rw [List.getLast?_append_of_ne_nil _ (List.cons_ne_nil _ _), ← List.singleton_append,
      List.getLast?_append_of_ne_nil _ hne] at hlast
    exact List.mem_of_getLast? hlast
  rw [← component_lastNameComponent_iff ⟨fun _ _ => '/', fun _ => []⟩,
    lastNameComponent_append _ hpath hname, cutExtension_append stem hdot]

/-! ## The destination of the command -/

/-- The destination with the slash that separates it from what follows. -/
def destFolder (destPath : List Char) : List Char :=
  if destPath.getLast? = some '/' then destPath else destPath ++ ['/']

/-- The destination is a name in a folder. -/
theorem finalDestPath_of_ne_nil (host : Host) (archivePath : List Char) {destPath : List Char}
    (h : destPath ≠ []) : finalDestPath host archivePath destPath =
      destFolder destPath ++ lastNameComponent host archivePath := by
  simp only [finalDestPath, destFolder, back_eq_slash_iff host h]
  split <;> simp

/-- When the destination is one component below the folder. -/
theorem finalDestPath_inside_iff (host : Host) (archivePath destPath : List Char) :
    (∃ component, Component component ∧
        finalDestPath host archivePath destPath = destFolder destPath ++ component) ↔
      NamesComponent archivePath ∧ (destPath = [] → host.back [] ≠ '/') := by
  have hslash := slash_not_mem_lastNameComponent host archivePath
  rw [← component_lastNameComponent_iff host]
  by_cases hnil : destPath = []
  · subst hnil
    by_cases hback : host.back [] = '/'
    · simp only [finalDestPath, destFolder, hback, ne_eq, not_true_eq_false, imp_false,
        and_false, iff_false]
      rintro ⟨component, -, heq⟩
      simp only [if_true, List.append_nil, List.nil_append, List.getLast?_nil, reduceCtorEq,
        if_false, List.singleton_append] at heq
      exact hslash (heq ▸ List.mem_cons_self)
    · simp [finalDestPath, destFolder, hback]
  · rw [finalDestPath_of_ne_nil host archivePath hnil]
    simp [hnil]

/-- Where the unpack command writes: in a folder of the destination, named by one path
component, if and only if the last name of the archive's path is neither missing nor made
of dots.  The slash that separates the two is not written a second time. -/
theorem unpack_inside_iff (host : Host) (archivePath destPath : List Char)
    (call : BuilderCall) (h : unpack host archivePath destPath = some call) :
    ((∃ component, Component component ∧
          call.destPath = destFolder destPath ++ component) ↔
        NamesComponent archivePath ∧ (destPath = [] → host.back [] ≠ '/')) ∧
      ((∃ component, Component component ∧
          call.destPath = destPath ++ '/' :: component) ↔
        destPath.getLast? ≠ some '/' ∧ NamesComponent archivePath ∧
          (destPath = [] → host.back [] ≠ '/')) := by
  obtain ⟨-, -, -, -, hdest⟩ := unpack_eq_some h
  have hinside := finalDestPath_inside_iff host archivePath destPath
  rw [hdest]
  refine ⟨hinside, ?_⟩
  by_cases hlast : destPath.getLast? = some '/'
  · simp only [hlast, ne_eq, not_true_eq_false, false_and, iff_false]
    rintro ⟨component, -, heq⟩
    have hne : destPath ≠ [] := by
      rintro rfl
      cases hlast
    rw [finalDestPath_of_ne_nil host archivePath hne, destFolder, if_pos hlast] at heq
    have hslash := slash_not_mem_lastNameComponent host archivePath
    rw [List.append_cancel_left heq] at hslash
    exact hslash List.mem_cons_self
  · rw [← hinside, destFolder, if_neg hlast]
    simp [hlast]

/-- A host whose folders are empty. -/
def emptyHost : Host where
  before _ _ := ' '
  readdir _ := []

/-- An archive in a folder is unpacked into a folder that is named like it. -/
theorem unpack_inside_module : ∃ call,
    unpack emptyHost "/tmp/usb/detector.zip".toList "/opt/modules".toList = some call ∧
      ∃ component, Component component ∧
        call.destPath = destFolder "/opt/modules".toList ++ component := by
  have hname : NamesComponent "/tmp/usb/detector.zip".toList :=
    (namesComponent_file_iff "/tmp/usb".toList "detector".toList "zip".toList (by decide)
      (by decide) (by decide)).2 ⟨by decide, by decide, by decide, by decide⟩
  refine ⟨_, rfl, ?_⟩
  exact (unpack_inside_iff emptyHost "/tmp/usb/detector.zip".toList "/opt/modules".toList _
    rfl).1.2 ⟨hname, fun h => absurd h (by decide)⟩

/-- The archive `...zip` is unpacked into the parent of the destination. -/
theorem unpack_parent : ¬∀ host archivePath destPath call,
    unpack host archivePath destPath = some call →
      ∃ component, Component component ∧ call.destPath = destFolder destPath ++ component := by
  intro h
  obtain ⟨component, hcomponent, heq⟩ :=
    h emptyHost "/tmp/usb/...zip".toList "/opt/modules".toList _ rfl
  have hdots : destFolder "/opt/modules".toList ++ ['.', '.'] =
      destFolder "/opt/modules".toList ++ component := heq
  rw [← List.append_cancel_left hdots] at hcomponent
  exact hcomponent.2.2.2 rfl

end Unpacker

end NewCPP.Deployment
