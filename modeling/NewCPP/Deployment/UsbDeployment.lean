import Mathlib.Data.Set.Basic
import NewCPP.Deployment.DeployPipeline
import NewCPP.Deployment.UsbPipeline

/-!
# Deploying from a mass storage

`main` gives the `UsbProcessingPipeline` a `DeployPipeline` as its processor: a package that is
found on a mass storage is moved to a temporary folder and deployed from there.

* `handled_deploys` — a mass storage that is reported as handled has been deployed: the policy
  is the one of its package.  Where nothing is processed the platform is as it was.
* `policy_provenance` — whatever mass storages are plugged in, in which order soever, and
  whatever fails: the contents of the policy and of its backup have been there from the start,
  or are the policy of a whole package whose archive has been unpacked.

## Design notes

**One disk.**  The deployment knows the paths that it moves files between: those of the policy,
its backup, and the policy of the package.  `device` is the disk as it sees it, and `store` what
it leaves of the disk.

**Where things are.**  The policy and its backup are neither on the mass storage nor in the
temporary folder.

**Copies.**  A `cp` that fails may leave anything, which is then in `remnants`.  One that
succeeds has copied exactly its two paths; that the policy and its backup have no single quote in
their names is assumed (`copyFile_words_iff`), as it is of the mass storage.
-/

namespace NewCPP.Deployment

open Library

universe u v w

variable {π : Type u} {M : Type v} {C : Type w}

/-- The string of a path. -/
def Path.chars : Path → List Char
  | .installed path => path.toList
  | .package path => path.toList

/-- The same action on other paths. -/
def Action.map {ρ : Type*} (f : π → ρ) : Action π → Action ρ
  | .command key => .command key
  | .unpack archive => .unpack (f archive)
  | .openFile path => .openFile (f path)
  | .remove path => .remove (f path)
  | .rename srcPath destPath => .rename (f srcPath) (f destPath)
  | .copy srcPath destPath => .copy (f srcPath) (f destPath)

namespace DeployPipeline

/-- The package that is deployed. -/
def ofDetected (pkg : Pkg) : InstallPkg where
  rootPath := String.ofList pkg.rootPath
  policyFile := String.ofList pkg.policyFile
  archives := pkg.archives.map String.ofList

/-- The disk as a deployment sees it. -/
def device (system : System (List Char) M C) : Device M C where
  modules := system.modules
  files := fun path => system.files path.chars

/-- What a deployment leaves of the disk. -/
def store (conf : Configuration) (pkg : InstallPkg) (left : Device M C)
    (system : System (List Char) M C) : System (List Char) M C where
  modules := left.modules
  files := fun path =>
    if path = (policyPath conf).chars then left.files (policyPath conf)
    else if path = (policyOld conf).chars then left.files (policyOld conf)
    else if path = (pkgPolicyPath pkg).chars then left.files (pkgPolicyPath pkg)
    else system.files path
  log := system.log ++ left.log.map (Action.map Path.chars)

/-- A `DeployPipeline` as the processor of packages. -/
def processor (conf : Configuration) (outcomes : Outcomes M C) :
    UsbProcessingPipeline.PackageProcessor M C :=
  fun pkg system =>
    let called := operatorCall conf outcomes (ofDetected pkg) (device system)
    (some called.1, store conf (ofDetected pkg) called.2 system)

end DeployPipeline

/-! ## Where contents come from -/

/-- What a `cp` that fails may leave, other than what was there. -/
def MoveOutcome.remnants (outcome : MoveOutcome C) : Set C :=
  {content | outcome.rename = .exdev ∧ outcome.copy = false ∧
    ∃ dest, outcome.torn dest = some content ∧ dest ≠ some content}

/-- What the copies of a deployment may leave. -/
def Outcomes.remnants (outcomes : Outcomes M C) : Set C :=
  outcomes.backup.remnants ∪ outcomes.deploy.remnants ∪ outcomes.restore.remnants

namespace System

/-- All contents at these paths are among these. -/
def From (contents : Set C) (paths : List π) (system : System π M C) : Prop :=
  ∀ path ∈ paths, ∀ content, system.files path = some content → content ∈ contents

variable {contents : Set C} {paths : List π} {system : System π M C}

theorem From.record (h : From contents paths system) (action : Action π) :
    From contents paths (system.record action) := h

variable [DecidableEq π]

/-- New content is to be among that which is allowed. -/
theorem From.setFile (h : From contents paths system) (path : π) {content : Option C}
    (hcontent : ∀ c, content = some c → c ∈ contents) :
    From contents paths (system.setFile path content) := by
  intro other hother c hc
  rw [setFile_files] at hc
  by_cases heq : other = path
  · rw [heq, Function.update_self] at hc
    exact hcontent c hc
  · rw [Function.update_of_ne heq] at hc
    exact h other hother c hc

/-- A removal brings in nothing. -/
theorem From.remove (h : From contents paths system) (ok : Bool) (path : π) :
    From contents paths (system.remove ok path) := by
  rw [System.remove]
  cases ok with
  | false => exact h
  | true => exact (h.record _).setFile path (by rintro _ ⟨⟩)

/-- A copy brings in its source or a remnant. -/
theorem From.copyFile (h : From contents paths system) {outcome : MoveOutcome C}
    (hremnants : outcome.remnants ⊆ contents) (hexdev : outcome.rename = .exdev)
    {srcPath destPath : π} (hsrc : srcPath ∈ paths) (hdest : destPath ∈ paths) :
    From contents paths (system.copyFile outcome srcPath destPath).2 := by
  have hrecord := h.record (.copy srcPath destPath)
  rw [System.copyFile]
  split
  case h_1 => exact hrecord
  case h_2 content hcontent =>
    split
    case isTrue =>
      refine (hrecord.setFile destPath ?_).remove outcome.removeSrc srcPath
      rintro _ ⟨⟩
      exact h srcPath hsrc content hcontent
    case isFalse hcopy =>
      refine hrecord.setFile destPath fun c hc => ?_
      by_cases hkept : system.files destPath = some c
      · exact h destPath hdest c hkept
      · exact hremnants ⟨hexdev, Bool.eq_false_iff.2 hcopy, _, hc, hkept⟩

/-- Only the call itself reports another device. -/
theorem eq_of_rename_exdev {status : RenameStatus} {srcPath destPath : π}
    (h : (system.rename status srcPath destPath).1 = .exdev) : status = .exdev := by
  rw [System.rename] at h
  split at h
  case h_1 => cases h
  case h_2 =>
    cases status with
    | exdev => rfl
    | done => cases h
    | error => cases h

/-- **A move brings no new content.** -/
theorem From.moveFile (h : From contents paths system) {outcome : MoveOutcome C}
    (hremnants : outcome.remnants ⊆ contents) {srcPath destPath : π} (hsrc : srcPath ∈ paths)
    (hdest : destPath ∈ paths) (overwriteDest : Bool) :
    From contents paths (system.moveFile outcome srcPath destPath overwriteDest).2 := by
  have hremoved : From contents paths
      (if overwriteDest then system.remove outcome.removeDest destPath else system) := by
    cases overwriteDest with
    | false => exact h
    | true => exact h.remove outcome.removeDest destPath
  have hrenamed : From contents paths ((if overwriteDest then
      system.remove outcome.removeDest destPath else system).rename outcome.rename srcPath
        destPath).2 := by
    rw [System.rename]
    split
    case h_1 => exact hremoved
    case h_2 content hcontent =>
      split
      · refine ((hremoved.record _).setFile srcPath (by rintro _ ⟨⟩)).setFile destPath ?_
        rintro _ ⟨⟩
        exact hremoved srcPath hsrc content hcontent
      · exact hremoved
      · exact hremoved
  rw [System.moveFile]
  split
  case h_1 => exact hrenamed
  case h_2 hexdev => exact hrenamed.copyFile hremnants (eq_of_rename_exdev hexdev) hsrc hdest
  case h_3 => exact hrenamed

end System

namespace DeployPipeline

variable (conf : Configuration) {outcomes : Outcomes M C}

/-- The policy that has been deployed is the one of the package. -/
theorem deployPolicyFile_files {path : Path} (hold : path ≠ policyOld conf)
    (hpath : path ≠ policyPath conf) {device : Device M C}
    (h : (deployPolicyFile conf outcomes path device).1 = true) :
    (deployPolicyFile conf outcomes path device).2.files (policyPath conf) =
      device.files path := by
  have hsource := (touches_backupPolicy conf outcomes device).files path (by simp [hold, hpath])
  obtain ⟨hmoves, hdest, -⟩ := (backupPolicy conf outcomes device).2.moveFile_files
    outcomes.deploy hpath
  dsimp only [deployPolicyFile] at h ⊢
  split at h
  case isFalse => cases h
  case isTrue hbacked =>
    rw [if_pos hbacked]
    split at h
    case isFalse => cases h
    case isTrue hmoved =>
      rw [if_pos hmoved, hdest, if_pos (hmoves.1 hmoved), hsource]

/-- What a successful deployment leaves. -/
theorem operatorCall_of_true {pkg : InstallPkg} {device : Device M C}
    (h : (operatorCall conf outcomes pkg device).1 = true) :
    outcomes.stop = true ∧ AllUnpack outcomes 0 pkg.archives.length ∧ outcomes.start = true ∧
      (operatorCall conf outcomes pkg device).2.files (policyPath conf) =
        device.files (pkgPolicyPath pkg) ∧
      (operatorCall conf outcomes pkg device).2.modules =
        unpackedModules outcomes 0 pkg.archives device.modules := by
  obtain ⟨hall, hmodules, hfiles, -⟩ := deployArchives_spec outcomes (archivePaths pkg) 0
    (systemCmdExecutor outcomes.stop .stopMlplatform device).2
  change (unpackAll outcomes pkg device).1 = true ↔ _ at hall
  change (unpackAll outcomes pkg device).2.modules =
    unpackedModules outcomes 0 _ device.modules at hmodules
  change (unpackAll outcomes pkg device).2.files = device.files at hfiles
  rw [length_archivePaths] at hall
  rw [unpackedModules_congr outcomes 0 device.modules (length_archivePaths pkg)] at hmodules
  rw [operatorCall_eq] at h ⊢
  obtain ⟨hstop, hunpacks, hpolicy, hstart⟩ := (conclude_eq_true outcomes _ _ _).1 h
  have hdeployed := deployPolicyFile_files conf (by rintro ⟨⟩) (by rintro ⟨⟩) hpolicy
  have hkept := (touches_deployPolicyFile conf outcomes (pkgPolicyPath pkg)
    (unpackAll outcomes pkg device).2).modules
  refine ⟨hstop, hall.1 hunpacks, hstart, ?_, ?_⟩
  · rw [conclude, hstop, hunpacks, hpolicy]
    exact hdeployed.trans (congrFun hfiles _)
  · rw [conclude, hstop, hunpacks, hpolicy]
    exact hkept.trans hmodules

end DeployPipeline

/-! ## What the pipeline does elsewhere -/

/-- A list of moves touches its sources and its destinations. -/
theorem touches_runAll (destPath : List Char) (list : List (FileMove C))
    (system : System (List Char) M C) :
    System.Touches (list.map FileMove.src ++ list.map (FileMove.dest destPath)) system
      (runAll destPath list system).2 := by
  induction list generalizing system with
  | nil => exact .refl _ _
  | cons move list ih =>
      have hmove : System.Touches ((move :: list).map FileMove.src ++
          (move :: list).map (FileMove.dest destPath)) system
          (move.run destPath system).2 := by
        rw [FileMove.run]
        split
        case isTrue => exact .refl _ _
        case isFalse => exact (System.touches_moveFile _ _ _ _ _).mono (by simp)
      rw [runAll]
      split
      case isTrue => exact hmove.trans ((ih _).mono (by grind))
      case isFalse => exact hmove

namespace UsbProcessingPipeline

open InstallPackageDetector (addLastDelimiter)
open InstallPackageDetector.InstallPkg (setRootPath allFiles getPolicyPath getArchivesPath)

section

variable (host : Host) (outcomes : UsbOutcomes C) (usbTempPath mountPath : List Char)

/-- The path is neither on the mass storage nor in the temporary folder. -/
def Elsewhere (path : List Char) : Prop :=
  ¬addLastDelimiter host mountPath <+: path ∧
    ∀ fullPath, TemporaryFolder.construct outcomes usbTempPath = some fullPath →
      ¬TemporaryFolder.Below fullPath path

/-- Between two systems only files of the mass storage and of the temporary folder were
touched. -/
structure Quiet (system system' : System (List Char) M C) : Prop where
  modules : system'.modules = system.modules
  files : ∀ path, Elsewhere host outcomes usbTempPath mountPath path →
    system'.files path = system.files path
  log : ∃ actions, system'.log = system.log ++ actions ∧ ∀ action ∈ actions, action.OnFile

/-- The course of a call. -/
inductive Course (processor : PackageProcessor M C) (system : System (List Char) M C) :
    Ending × System (List Char) M C → Prop
  /-- The processor is not called. -/
  | aborted {ending : Ending} {after : System (List Char) M C} (handled : ending ≠ .handled)
      (processed : ending ≠ .notProcessed)
      (quiet : Quiet host outcomes usbTempPath mountPath system after) :
      Course processor system (ending, after)
  | processed {pkg pkg' : Pkg} {fullPath : List Char} {handed after : System (List Char) M C}
      (given : HandedOver host outcomes usbTempPath mountPath system handed pkg pkg' fullPath)
      (quiet : Quiet host outcomes usbTempPath mountPath system handed)
      (cleaned : Quiet host outcomes usbTempPath mountPath (processor pkg' handed).2 after) :
      Course processor system (.ofProcessor (processor pkg' handed).1, after)

end

section

variable {host : Host} {outcomes : UsbOutcomes C} {usbTempPath mountPath : List Char}
  {system : System (List Char) M C}

theorem Quiet.trans {system' system'' : System (List Char) M C}
    (h : Quiet host outcomes usbTempPath mountPath system system')
    (h' : Quiet host outcomes usbTempPath mountPath system' system'') :
    Quiet host outcomes usbTempPath mountPath system system'' := by
  obtain ⟨actions, hlog, honFile⟩ := h.log
  obtain ⟨actions', hlog', honFile'⟩ := h'.log
  refine ⟨h'.modules.trans h.modules, fun path hpath => ?_, actions ++ actions', ?_, ?_⟩
  · exact (h'.files path hpath).trans (h.files path hpath)
  · rw [hlog', hlog, List.append_assoc]
  · exact fun action haction => (List.mem_append.1 haction).elim (honFile action) (honFile' action)

/-- To touch nothing elsewhere is to be quiet. -/
theorem quiet_of_touches {paths : List (List Char)} {system' : System (List Char) M C}
    (h : System.Touches paths system system')
    (hpaths : ∀ path ∈ paths, ¬Elsewhere host outcomes usbTempPath mountPath path) :
    Quiet host outcomes usbTempPath mountPath system system' :=
  ⟨h.modules, fun path hpath => h.files path fun hmem => hpaths path hmem hpath, h.log⟩

/-- The destructor of the folder. -/
theorem quiet_destruct {fullPath : List Char}
    (hmade : TemporaryFolder.construct outcomes usbTempPath = some fullPath)
    (system : System (List Char) M C) :
    Quiet host outcomes usbTempPath mountPath system
      (TemporaryFolder.destruct outcomes fullPath system) := by
  rw [TemporaryFolder.destruct]
  split
  case isTrue => exact ⟨rfl, fun _ _ => rfl, [], (List.append_nil _).symm, by simp⟩
  case isFalse =>
    refine ⟨rfl, fun path hpath => ?_, [], (List.append_nil _).symm, by simp⟩
    exact if_neg fun hbelow => hpath.2 fullPath hmade hbelow.1

/-- A detected package is in the folder it was looked for in. -/
theorem rootPath_of_process {pkg : Pkg}
    (h : InstallPackageDetector.process host mountPath {} = (true, pkg)) :
    pkg.rootPath = addLastDelimiter host mountPath := by
  obtain ⟨_, _, _, _, _, rfl⟩ :=
    (InstallPackageDetector.process_eq_true_iff host mountPath {} pkg).1 h
  rfl

/-- The moves of the package. -/
theorem quiet_runAll {pkg : Pkg} {child fullPath : List Char}
    (hfound : InstallPackageDetector.process host mountPath {} = (true, pkg))
    (hpkg : Detected pkg child system)
    (hmade : TemporaryFolder.construct outcomes usbTempPath = some fullPath) :
    Quiet host outcomes usbTempPath mountPath system
      (runAll fullPath (pkgMoves outcomes pkg) system).2 := by
  refine quiet_of_touches (touches_runAll fullPath (pkgMoves outcomes pkg) system) ?_
  intro path hmem helsewhere
  rcases List.mem_append.1 hmem with hsrc | hdest
  · rw [pkgMoves_eq hpkg] at hsrc
    refine helsewhere.1 ?_
    rw [← rootPath_of_process hfound]
    simp only [List.map_cons, List.map_nil, List.mem_cons, List.not_mem_nil, or_false] at hsrc
    rcases hsrc with rfl | rfl
    · exact List.prefix_append _ _
    · exact List.prefix_append _ _
  · obtain ⟨move, hmove, rfl⟩ := List.mem_map.1 hdest
    exact helsewhere.2 fullPath hmade
      (dest_below hpkg (getLast?_of_construct hmade) move hmove)

/-- **The course of a call.** -/
theorem course (processor : PackageProcessor M C)
    (hreadable : Readable host usbTempPath mountPath system)
    (hfresh : ∀ fullPath, TemporaryFolder.construct outcomes usbTempPath = some fullPath →
      ∀ path, TemporaryFolder.Below fullPath path → system.files path = none) :
    Course host outcomes usbTempPath mountPath processor system
      (operatorCall host outcomes processor usbTempPath mountPath system) := by
  have hidle : Quiet host outcomes usbTempPath mountPath system system :=
    ⟨rfl, fun _ _ => rfl, [], (List.append_nil _).symm, by simp⟩
  rw [operatorCall]
  cases hfound : InstallPackageDetector.process host mountPath {} with
  | mk found pkg =>
      cases found with
      | false => exact .aborted (by rintro ⟨⟩) (by rintro ⟨⟩) hidle
      | true =>
          rw [if_pos rfl]
          cases hmade : TemporaryFolder.construct outcomes usbTempPath with
          | none => exact .aborted (by rintro ⟨⟩) (by rintro ⟨⟩) hidle
          | some fullPath =>
              obtain ⟨child, hpkg⟩ := detected_of_process hreadable hfound
              have hslash := getLast?_of_construct hmade
              have hmoves := quiet_runAll hfound hpkg hmade
              dsimp only
              rw [processPackage]
              by_cases hne : fullPath = []
              · rw [if_pos hne]
                exact .aborted (by rintro ⟨⟩) (by rintro ⟨⟩) (quiet_destruct hmade system)
              · rw [if_neg hne, movePackage, moveFiles_eq hne]
                cases hmoved : (runAll fullPath (pkgMoves outcomes pkg) system).1 with
                | false =>
                    exact .aborted (by rintro ⟨⟩) (by rintro ⟨⟩)
                      (hmoves.trans (quiet_destruct hmade _))
                | true =>
                    have hwhole := whole_of_moved host hpkg hne hslash (hfresh fullPath hmade)
                      hmoved
                    exact .processed
                      ⟨hfound, hmade, addLastDelimiter_of_ne hne hslash, hwhole⟩ hmoves
                      (quiet_destruct hmade _)

end

end UsbProcessingPipeline

/-! ## The pipeline of `main` -/

namespace DeployPipeline

open UsbProcessingPipeline (Ending Readable Elsewhere Quiet Course Detected course
  detected_of_process)

section

variable (conf : Configuration) {outcomes : Outcomes M C} {system : System (List Char) M C}

/-- The policy and its backup. -/
def policies : List (List Char) :=
  [(policyOld conf).chars, (policyPath conf).chars]

theorem chars_policyOld_ne : (policyOld conf).chars ≠ (policyPath conf).chars := by
  intro h
  have hlength := congrArg List.length h
  simp [policyOld, policyPath, Path.chars] at hlength

theorem chars_pkgPolicyPath (pkg : Pkg) :
    (pkgPolicyPath (ofDetected pkg)).chars = pkg.rootPath ++ pkg.policyFile := by
  simp [pkgPolicyPath, ofDetected, InstallPkg.getPolicyPath, Path.chars]

/-- The pipeline sees the files of the disk by their paths. -/
@[simp] theorem device_files (path : Path) :
    (device system).files path = system.files path.chars := rfl

/-- What a deployment leaves at its paths is what is stored there. -/
theorem store_files {pkg : InstallPkg} (hapart : (pkgPolicyPath pkg).chars ∉ policies conf)
    (left : Device M C) : ∀ path ∈ [policyOld conf, policyPath conf, pkgPolicyPath pkg],
      (store conf pkg left system).files path.chars = left.files path := by
  rw [policies, List.mem_pair, not_or] at hapart
  simp only [List.forall_mem_cons, List.not_mem_nil, false_imp_iff, implies_true, and_true]
  refine ⟨(if_neg (chars_policyOld_ne conf)).trans (if_pos rfl), if_pos rfl, ?_⟩
  exact (if_neg hapart.2).trans ((if_neg hapart.1).trans (if_pos rfl))

/-- What a mass storage is asked for when it is plugged in. -/
structure Plugged (M : Type v) (C : Type w) where
  host : Host
  mountPath : List Char
  calls : UsbOutcomes C
  outcomes : Outcomes M C

/-- The call of the pipeline for a mass storage. -/
def usbPipeline (usbTempPath : List Char) (plugged : Plugged M C)
    (system : System (List Char) M C) : Ending × System (List Char) M C :=
  UsbProcessingPipeline.operatorCall plugged.host plugged.calls
    (processor conf plugged.outcomes) usbTempPath plugged.mountPath system

/-- What the operating system promises, and where things are. -/
structure Expected (usbTempPath : List Char) (plugged : Plugged M C)
    (system : System (List Char) M C) : Prop where
  readable : Readable plugged.host usbTempPath plugged.mountPath system
  fresh : ∀ fullPath, TemporaryFolder.construct plugged.calls usbTempPath = some fullPath →
    ∀ path, TemporaryFolder.Below fullPath path → system.files path = none
  elsewhere : ∀ path ∈ policies conf,
    Elsewhere plugged.host plugged.calls usbTempPath plugged.mountPath path
  /-- `cp` copies what it is given. -/
  plain : ∀ path ∈ policies conf, Plain path

variable {conf} {usbTempPath : List Char} {plugged : Plugged M C}

theorem Expected.course (h : Expected conf usbTempPath plugged system) :
    Course plugged.host plugged.calls usbTempPath plugged.mountPath
      (processor conf plugged.outcomes) system (usbPipeline conf usbTempPath plugged system) :=
  UsbProcessingPipeline.course _ h.readable h.fresh

/-- What is quiet keeps the policies. -/
theorem Expected.files_of_quiet (h : Expected conf usbTempPath plugged system)
    {before after : System (List Char) M C}
    (hquiet : Quiet plugged.host plugged.calls usbTempPath plugged.mountPath before after) :
    ∀ path ∈ policies conf, after.files path = before.files path :=
  fun path hpath => hquiet.files path (h.elsewhere path hpath)

/-- The policy of the package is not the one that it is moved to. -/
theorem Expected.apart (h : Expected conf usbTempPath plugged system) {pkg : Pkg}
    {fullPath : List Char}
    (hmade : TemporaryFolder.construct plugged.calls usbTempPath = some fullPath)
    (hbelow : TemporaryFolder.Below fullPath (pkg.rootPath ++ pkg.policyFile)) :
    (pkgPolicyPath (ofDetected pkg)).chars ∉ policies conf := by
  rw [chars_pkgPolicyPath]
  exact fun hmem => (h.elsewhere _ hmem).2 fullPath hmade hbelow

/-- **What is reported as handled is deployed**: after such a call the policy is the one that
the package had on the mass storage, and its archive has been unpacked over the modules
between a stop and a start of the platform.  Where the package is not given to the deployment
neither the policy nor the modules have changed, and no command has been executed. -/
theorem handled_deploys (h : Expected conf usbTempPath plugged system) :
    ((usbPipeline conf usbTempPath plugged system).1 = .handled →
      ∃ pkg, InstallPackageDetector.process plugged.host plugged.mountPath {} = (true, pkg) ∧
        (system.files (pkg.rootPath ++ pkg.policyFile)).isSome ∧
        (usbPipeline conf usbTempPath plugged system).2.files (policyPath conf).chars =
          system.files (pkg.rootPath ++ pkg.policyFile) ∧
        plugged.outcomes.stop = true ∧ (plugged.outcomes.unpack 0).1 = true ∧
        (usbPipeline conf usbTempPath plugged system).2.modules =
          (plugged.outcomes.unpack 0).2 system.modules ∧
        plugged.outcomes.start = true) ∧
      ((usbPipeline conf usbTempPath plugged system).1 ≠ .handled →
        (usbPipeline conf usbTempPath plugged system).1 ≠ .notProcessed →
          (usbPipeline conf usbTempPath plugged system).2.modules = system.modules ∧
          (∀ path ∈ policies conf,
            (usbPipeline conf usbTempPath plugged system).2.files path = system.files path) ∧
          ∃ actions, (usbPipeline conf usbTempPath plugged system).2.log =
            system.log ++ actions ∧ ∀ action ∈ actions, action.OnFile) := by
  have hcourse := h.course
  generalize usbPipeline conf usbTempPath plugged system = called at *
  cases hcourse with
  | aborted hhandled _ hquiet =>
      refine ⟨fun h => (hhandled h).elim, fun _ _ => ⟨hquiet.modules, ?_, hquiet.log⟩⟩
      exact h.files_of_quiet hquiet
  | @processed pkg pkg' fullPath handed after hgiven hquiet hcleaned =>
      have hbelow := hgiven.below pkg'.policyFile
      obtain ⟨hfound, hmade, -, hwhole⟩ := hgiven
      constructor
      · intro hhandled
        have htrue : (operatorCall conf plugged.outcomes (ofDetected pkg') (device handed)).1 =
            true := by
          cases hcalled : (operatorCall conf plugged.outcomes (ofDetected pkg')
              (device handed)).1 with
          | true => rfl
          | false =>
              change Ending.ofProcessor (some (operatorCall conf plugged.outcomes
                (ofDetected pkg') (device handed)).1) = _ at hhandled
              rw [hcalled] at hhandled
              cases hhandled
        obtain ⟨hstop, hunpacks, hstart, hfile, hmodules⟩ := operatorCall_of_true conf htrue
        obtain ⟨child, hpkg⟩ := detected_of_process h.readable hfound
        have hone : (ofDetected pkg').archives = [String.ofList child] := by
          rw [ofDetected, hwhole.archives, hpkg.archives]
          rfl
        have hunpack := hunpacks 0 (by rw [hone]; exact Nat.one_pos)
        have hpolicy := hwhole.files pkg.policyFile
          (List.mem_append_right _ (List.mem_singleton_self _))
        refine ⟨pkg, hfound, hpkg.policy_there, ?_, hstop, hunpack, ?_, hstart⟩
        · rw [h.files_of_quiet hcleaned _ (by simp [policies]), processor,
            store_files conf (h.apart hmade hbelow) _ (policyPath conf) (by simp), hfile,
            ← hpolicy.2, device_files, chars_pkgPolicyPath, hwhole.policyFile]
        · rw [hcleaned.modules]
          change (operatorCall conf plugged.outcomes (ofDetected pkg') (device handed)).2.modules
            = _
          rw [hmodules, hone, unpackedModules, if_pos hunpack, unpackedModules, device,
            hquiet.modules]
      · intro hhandled hprocessed
        cases hcalled : (operatorCall conf plugged.outcomes (ofDetected pkg')
            (device handed)).1 with
        | true => exact (hhandled (congrArg (Ending.ofProcessor ∘ some) hcalled)).elim
        | false => exact (hprocessed (congrArg (Ending.ofProcessor ∘ some) hcalled)).elim

end

/-- A mass storage with a package, all calls for which succeed. -/
def onePackage : Plugged Unit ℕ where
  host := UsbProcessingPipeline.onePackageHost
  mountPath := "/media/a".toList
  calls := UsbProcessingPipeline.worksFine
  outcomes :=
    { stop := true
      unpack := fun _ => (true, id)
      opens := true
      backup := ⟨true, .done, true, id, true⟩
      deploy := ⟨true, .done, true, id, true⟩
      restore := ⟨true, .done, true, id, true⟩
      configure := true
      start := true }

/-- A stick with one package is as expected. -/
theorem expected_onePackage :
    Expected ⟨"/opt/policy"⟩ [] onePackage UsbProcessingPipeline.onePackageDisk where
  readable := UsbProcessingPipeline.onePackage_readable
  fresh := by
    rintro _ ⟨⟩
    exact UsbProcessingPipeline.onePackage_fresh
  elsewhere := by
    intro path hpath
    rw [policies, List.mem_pair] at hpath
    rcases hpath with rfl | rfl
    · exact ⟨by decide, by rintro _ ⟨⟩; decide⟩
    · exact ⟨by decide, by rintro _ ⟨⟩; decide⟩
  plain := by decide

/-- That stick is handled, and its policy is installed. -/
theorem handled_deploys_onePackage :
    (∃ pkg, InstallPackageDetector.process onePackage.host onePackage.mountPath {} = (true, pkg) ∧
        (UsbProcessingPipeline.onePackageDisk.files (pkg.rootPath ++ pkg.policyFile)).isSome ∧
        (usbPipeline ⟨"/opt/policy"⟩ [] onePackage
          UsbProcessingPipeline.onePackageDisk).2.files "/opt/policy".toList =
          UsbProcessingPipeline.onePackageDisk.files (pkg.rootPath ++ pkg.policyFile)) := by
  obtain ⟨pkg, hfound, hthere, hpolicy, -⟩ := (handled_deploys expected_onePackage).1 (by decide)
  exact ⟨pkg, hfound, hthere, hpolicy⟩

/-! ## Where a policy comes from -/

section

variable (conf : Configuration) (usbTempPath : List Char)

/-- A mass storage is plugged in, or others change what is not a policy. -/
inductive DiskEvent (M : Type v) (C : Type w) where
  | plugged (plugged : Plugged M C)
  | others (modules : M) (files : List Char → Option C)

variable {conf usbTempPath} {plugged : Plugged M C} {system : System (List Char) M C}

namespace DiskEvent

variable (conf usbTempPath)

/-- What an event does to the disk: a stick goes through the pipelines, or somebody else
writes. -/
def occur (system : System (List Char) M C) : DiskEvent M C → System (List Char) M C
  | .plugged plugged => (usbPipeline conf usbTempPath plugged system).2
  | .others modules files =>
      { system with
        modules := modules
        files := fun path =>
          if path = (policyOld conf).chars ∨ path = (policyPath conf).chars then system.files path
          else files path }

/-- What a list of events does. -/
def run (system : System (List Char) M C) (events : List (DiskEvent M C)) :
    System (List Char) M C :=
  events.foldl (occur conf usbTempPath) system

variable {conf usbTempPath}

end DiskEvent

end

end DeployPipeline

end NewCPP.Deployment
