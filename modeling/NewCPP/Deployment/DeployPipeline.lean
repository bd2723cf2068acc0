import NewCPP.Deployment.FileMover

/-!
# Deploying a package

`DeployPipeline`: the platform is stopped, the archives of the package are unpacked over
the modules directory, the policy is backed up and replaced, the platform is configured
and started.  Where an archive or the policy cannot be deployed, `fallback` starts the
platform again.

* `command_protocol` — the order of the steps: after a successful stop the platform is
  started exactly once, as the last step, whatever fails.
* `replacement_atomic_iff` — when a policy that cannot be replaced is left as it was.  The
  restoring move trusts any `.old` it finds.
* `fallback_restores_iff` — when `fallback` finds the disk as it was before the call.
  Nothing undoes an unpacked archive.

## Design notes

**Paths.**  A package comes in a temporary folder that was made for it, so that none of
its files is the policy or its backup: `Path` keeps the two apart.

**Unpacking.**  `Unpacker::unpack` of the `n`-th archive succeeds or fails as
`unpack n` says, and does to the modules directory what it says, also when it fails.

**Commands.**  The commands that stop, configure and start the platform do not touch the
modules directory or the policy.
-/

namespace NewCPP.Deployment

universe v w

variable {M : Type v} {C : Type w}

/-- A path on the device, or of a file of a package. -/
inductive Path where
  | installed (path : String)
  | package (path : String)
  deriving DecidableEq

/-- A detected package: its folder, and the names of its files in there. -/
structure InstallPkg where
  rootPath : String
  policyFile : String
  archives : List String

namespace InstallPkg

/-- The policy file, with its folder or without. -/
def getPolicyPath (pkg : InstallPkg) (fullpath : Bool) : String :=
  if fullpath then pkg.rootPath ++ pkg.policyFile else pkg.policyFile

/-- The archives, with their folder or without. -/
def getArchivesPath (pkg : InstallPkg) (fullpath : Bool) : List String :=
  if fullpath then pkg.archives.map fun arch => pkg.rootPath ++ arch else pkg.archives

end InstallPkg

/-- The value of `policyPath`. -/
structure Configuration where
  confPolicyPath : String

/-- How the steps of a deployment turn out. -/
structure Outcomes (M : Type v) (C : Type w) where
  stop : Bool
  unpack : ℕ → Bool × (M → M)
  /-- Whether the policy can be opened, if there is one. -/
  opens : Bool
  backup : MoveOutcome C
  deploy : MoveOutcome C
  restore : MoveOutcome C
  configure : Bool
  start : Bool

namespace DeployPipeline

/-- The system on which a package is deployed. -/
abbrev Device (M : Type v) (C : Type w) := System Path M C

/-- A command of the configuration; `ok` is whether it returns 0. -/
def systemCmdExecutor (ok : Bool) (key : CommandKey) (device : Device M C) :
    Bool × Device M C :=
  (ok, device.record (.command key))

section

variable (conf : Configuration) (outcomes : Outcomes M C)

/-- The file the policy is installed as. -/
def policyPath : Path := .installed conf.confPolicyPath

/-- The file the policy in use is moved to. -/
def policyOld : Path := .installed (conf.confPolicyPath ++ ".old")

/-- The platform is started again; what the command returns is not looked at. -/
def fallback (device : Device M C) : Device M C :=
  (systemCmdExecutor outcomes.start .startMlplatform device).2

/-- One archive is unpacked to the modules. -/
def deployArchive (index : ℕ) (path : Path) (device : Device M C) : Bool × Device M C :=
  let unpacked := outcomes.unpack index
  (unpacked.1, { device.record (.unpack path) with modules := unpacked.2 device.modules })

/-- The loop over the archives, from one on. -/
def deployArchives : ℕ → List Path → Device M C → Bool × Device M C
  | _, [], device => (true, device)
  | index, path :: rest, device =>
      let deployed := deployArchive outcomes index path device
      if deployed.1 then deployArchives (index + 1) rest deployed.2 else (false, deployed.2)

/-- The policy in use is moved out of the way, if it can be opened. -/
def backupPolicy (device : Device M C) : Bool × Device M C :=
  let device := device.record (.openFile (policyPath conf))
  if (device.files (policyPath conf)).isSome ∧ outcomes.opens = true then
    device.moveFile outcomes.backup (policyPath conf) (policyOld conf) true
  else (true, device)

/-- The backup is moved back; the result is not looked at. -/
def restorePolicy (device : Device M C) : Device M C :=
  (device.moveFile outcomes.restore (policyOld conf) (policyPath conf) true).2

/-- Backup, then the move of the new policy, then the backup moved back if that fails. -/
def deployPolicyFile (path : Path) (device : Device M C) : Bool × Device M C :=
  let backedUp := backupPolicy conf outcomes device
  if backedUp.1 then
    let moved := backedUp.2.moveFile outcomes.deploy path (policyPath conf) true
    if moved.1 then (true, moved.2) else (false, restorePolicy conf outcomes moved.2)
  else (false, backedUp.2)

/-- The paths of the archives of a package. -/
def archivePaths (pkg : InstallPkg) : List Path :=
  (pkg.getArchivesPath true).map Path.package

/-- The path of the policy of a package. -/
def pkgPolicyPath (pkg : InstallPkg) : Path :=
  .package (pkg.getPolicyPath true)

/-- The device after the stop command and the archives. -/
def unpackAll (pkg : InstallPkg) (device : Device M C) : Bool × Device M C :=
  deployArchives outcomes 0 (archivePaths pkg)
    (systemCmdExecutor outcomes.stop .stopMlplatform device).2

/-- `DeployPipeline::operator()`. -/
def operatorCall (pkg : InstallPkg) (device : Device M C) : Bool × Device M C :=
  let stopped := systemCmdExecutor outcomes.stop .stopMlplatform device
  if stopped.1 then
    let unpacked := deployArchives outcomes 0 (archivePaths pkg) stopped.2
    if unpacked.1 then
      let policy := deployPolicyFile conf outcomes (pkgPolicyPath pkg) unpacked.2
      if policy.1 then
        let configured := systemCmdExecutor outcomes.configure .configureMlplatform policy.2
        systemCmdExecutor outcomes.start .startMlplatform configured.2
      else (false, fallback outcomes policy.2)
    else (false, fallback outcomes unpacked.2)
  else (false, stopped.2)

/-! ## The archives -/

/-- The archives up to and including the first that cannot be unpacked. -/
def attempted {α : Type*} : ℕ → List α → List α
  | _, [] => []
  | index, archive :: rest =>
      archive :: if (outcomes.unpack index).1 then attempted (index + 1) rest else []

/-- What unpacking these makes of the modules directory. -/
def unpackedModules {α : Type*} : ℕ → List α → M → M
  | _, [], modules => modules
  | index, _ :: rest, modules =>
      if (outcomes.unpack index).1 then
        unpackedModules (index + 1) rest ((outcomes.unpack index).2 modules)
      else (outcomes.unpack index).2 modules

/-- Every archive from one on can be unpacked. -/
def AllUnpack (index : ℕ) (archives : ℕ) : Prop :=
  ∀ i < archives, (outcomes.unpack (index + i)).1 = true

/-- All archives unpack if the first does and the others do. -/
theorem allUnpack_succ (index archives : ℕ) :
    AllUnpack outcomes index (archives + 1) ↔
      (outcomes.unpack index).1 = true ∧ AllUnpack outcomes (index + 1) archives := by
  constructor
  · intro h
    refine ⟨h 0 (Nat.succ_pos archives), fun i hi => ?_⟩
    have hnext := h (i + 1) (Nat.succ_lt_succ hi)
    rwa [show index + (i + 1) = index + 1 + i by omega] at hnext
  · rintro ⟨hfirst, hrest⟩ i hi
    cases i with
    | zero => exact hfirst
    | succ i =>
        rw [show index + (i + 1) = index + 1 + i by omega]
        exact hrest i (Nat.lt_of_succ_lt_succ hi)

/-- **The loop over the archives.** -/
theorem deployArchives_spec (paths : List Path) :
    ∀ (index : ℕ) (device : Device M C),
      let deployed := deployArchives outcomes index paths device
      (deployed.1 = true ↔ AllUnpack outcomes index paths.length) ∧
        deployed.2.modules = unpackedModules outcomes index paths device.modules ∧
        deployed.2.files = device.files ∧
        deployed.2.log = device.log ++ (attempted outcomes index paths).map .unpack := by
  induction paths with
  | nil =>
      intro index device
      refine ⟨?_, rfl, rfl, by simp [deployArchives, attempted]⟩
      simp [deployArchives, AllUnpack]
  | cons path rest ih =>
      intro index device
      simp only [deployArchives, deployArchive, unpackedModules, attempted, List.length_cons,
        allUnpack_succ]
      by_cases hunpacks : (outcomes.unpack index).1 = true
      · obtain ⟨hall, hmodules, hfiles, hlog⟩ := ih (index + 1)
          { device.record (.unpack path) with
            modules := (outcomes.unpack index).2 device.modules }
        simp only [hunpacks, if_true, true_and]
        refine ⟨hall, hmodules, hfiles, ?_⟩
        rw [hlog]
        simp [System.record]
      · simp [hunpacks, System.record]

/-! ## The policy -/

/-- The backup is another file. -/
theorem policyOld_ne : policyOld conf ≠ policyPath conf := by
  rintro h
  have hlength := congrArg String.length (Path.installed.inj h)
  simp at hlength

/-- The backup touches two files. -/
theorem touches_backupPolicy (device : Device M C) :
    System.Touches [policyPath conf, policyOld conf] device
      (backupPolicy conf outcomes device).2 := by
  have hopen : System.Touches [policyPath conf, policyOld conf] device
      (device.record (.openFile (policyPath conf))) :=
    System.touches_record _ device trivial
  dsimp only [backupPolicy]
  split
  · exact hopen.trans (System.touches_moveFile _ _ _ _ _)
  · exact hopen

/-- Deploying the policy touches three files. -/
theorem touches_deployPolicyFile (path : Path) (device : Device M C) :
    System.Touches [path, policyOld conf, policyPath conf] device
      (deployPolicyFile conf outcomes path device).2 := by
  have hbackup : System.Touches [path, policyOld conf, policyPath conf] device
      (backupPolicy conf outcomes device).2 :=
    (touches_backupPolicy conf outcomes device).mono (by simp)
  dsimp only [deployPolicyFile]
  split
  · have hmove := hbackup.trans ((System.touches_moveFile (backupPolicy conf outcomes device).2
      outcomes.deploy path (policyPath conf) true).mono (by simp))
    split
    · exact hmove
    · exact hmove.trans ((System.touches_moveFile _ _ _ _ _).mono (by simp))
  · exact hbackup

end

/-! ## The end of a deployment -/

theorem length_archivePaths (pkg : InstallPkg) :
    (archivePaths pkg).length = pkg.archives.length := by
  simp [archivePaths, InstallPkg.getArchivesPath]

/-- How a deployment ends, given how the archives and the policy turned out. -/
def conclude (outcomes : Outcomes M C) (stopped : Device M C)
    (unpacked policy : Bool × Device M C) : Bool × Device M C :=
  if outcomes.stop then
    if unpacked.1 then
      if policy.1 then
        systemCmdExecutor outcomes.start .startMlplatform
          (systemCmdExecutor outcomes.configure .configureMlplatform policy.2).2
      else (false, fallback outcomes policy.2)
    else (false, fallback outcomes unpacked.2)
  else (false, stopped)

/-- A deployment in terms of its archives and its policy. -/
theorem operatorCall_eq (conf : Configuration) (outcomes : Outcomes M C) (pkg : InstallPkg)
    (device : Device M C) :
    operatorCall conf outcomes pkg device =
      conclude outcomes (systemCmdExecutor outcomes.stop .stopMlplatform device).2
        (unpackAll outcomes pkg device)
        (deployPolicyFile conf outcomes (pkgPolicyPath pkg)
          (unpackAll outcomes pkg device).2) := rfl

/-- A deployment succeeds if each of its four parts does. -/
theorem conclude_eq_true (outcomes : Outcomes M C) (stopped : Device M C)
    (unpacked policy : Bool × Device M C) :
    (conclude outcomes stopped unpacked policy).1 = true ↔
      outcomes.stop = true ∧ unpacked.1 = true ∧ policy.1 = true ∧ outcomes.start = true := by
  rw [conclude]
  cases outcomes.stop with
  | false => simp
  | true =>
      cases unpacked.1 with
      | false => simp
      | true => cases policy.1 <;> simp [systemCmdExecutor]

/-- What is done after the archives, given the steps on the policy. -/
theorem log_conclude (outcomes : Outcomes M C) (stopped : Device M C)
    {unpacked policy : Bool × Device M C} {policySteps : List (Action Path)}
    (hpolicy : policy.2.log = unpacked.2.log ++ policySteps) :
    (conclude outcomes stopped unpacked policy).2.log =
      if outcomes.stop then
        unpacked.2.log ++
          (if unpacked.1 then
            policySteps ++ (if policy.1 then [.command .configureMlplatform] else [])
          else []) ++ [.command .startMlplatform]
      else stopped.log := by
  rw [conclude]
  cases outcomes.stop with
  | false => rfl
  | true =>
      cases unpacked.1 with
      | false => simp [fallback, systemCmdExecutor, System.record]
      | true =>
          cases policy.1 with
          | false => simp [fallback, systemCmdExecutor, System.record, hpolicy]
          | true => simp [systemCmdExecutor, System.record, hpolicy]

/-! ## The policy that is left -/

section

variable (outcomes : Outcomes M C)

/-- A backup of the policy is tried. -/
def BackedUp (policy : Option C) : Prop :=
  policy.isSome ∧ outcomes.opens = true

/-- The policy of the package takes the place of the policy. -/
def PolicyDeploys (policy pkgPolicy : Option C) : Prop :=
  (BackedUp outcomes policy → outcomes.backup.Moves policy) ∧ outcomes.deploy.Moves pkgPolicy

instance (policy : Option C) : Decidable (BackedUp outcomes policy) :=
  inferInstanceAs (Decidable (_ ∧ _))

/-- What a backup leaves at the policy path. -/
def afterBackup (policy : Option C) : Option C :=
  if BackedUp outcomes policy then
    if outcomes.backup.rename = .done ∨ outcomes.backup.removeSrc = true then none else policy
  else policy

/-- What the restoring move finds in `.old`: the backup, or what was there before. -/
def spare (policy old : Option C) : Option C :=
  if BackedUp outcomes policy then policy else old

/-- A deployment of the policy that fails leaves the policy as it was: the backup failed;
or the restoring move brings the same content; or it fails too, and the moves before it
have left that content at the policy path. -/
def PolicyKept (policy old pkgPolicy : Option C) : Prop :=
  (BackedUp outcomes policy ∧ ¬outcomes.backup.Moves policy) ∨
    (outcomes.restore.Moves (spare outcomes policy old) ∧ spare outcomes policy old = policy) ∨
    (¬outcomes.restore.Moves (spare outcomes policy old) ∧
      outcomes.restore.leaves (spare outcomes policy old)
        (outcomes.deploy.leaves pkgPolicy (afterBackup outcomes policy)) = policy)

end

variable (conf : Configuration) (outcomes : Outcomes M C)

/-- **The backup**: whether it succeeds and what it leaves. -/
theorem backupPolicy_spec (device : Device M C) :
    let policy := device.files (policyPath conf)
    let backedUp := backupPolicy conf outcomes device
    (backedUp.1 = true ↔ (BackedUp outcomes policy → outcomes.backup.Moves policy)) ∧
      (backedUp.1 = true →
        backedUp.2.files (policyPath conf) = afterBackup outcomes policy ∧
        backedUp.2.files (policyOld conf) =
          spare outcomes policy (device.files (policyOld conf))) ∧
      (backedUp.1 = false → backedUp.2.files (policyPath conf) = policy) := by
  intro policy backedUp
  have hne : policyPath conf ≠ policyOld conf := (policyOld_ne conf).symm
  obtain ⟨hmoves, hold, hpath⟩ := (device.record (.openFile (policyPath conf))).moveFile_files
    outcomes.backup hne
  simp only [System.record_files] at hmoves hold hpath
  by_cases hbacked : BackedUp outcomes policy
  · have hmoved : backedUp = (device.record (.openFile (policyPath conf))).moveFile
        outcomes.backup (policyPath conf) (policyOld conf) true := if_pos hbacked
    rw [hmoved, hmoves, hold, hpath, afterBackup, spare, if_pos hbacked, if_pos hbacked]
    refine ⟨by simp [hbacked, policy], fun hmoves => ?_, fun hfails => ?_⟩
    · simp [hmoves, policy]
    · rw [← Bool.not_eq_true, hmoves] at hfails
      simp [hfails, policy]
  · have hkept : backedUp = (true, device.record (.openFile (policyPath conf))) :=
      if_neg hbacked
    rw [hkept, afterBackup, spare, if_neg hbacked, if_neg hbacked]
    exact ⟨by simp [hbacked], fun _ => ⟨rfl, rfl⟩, by rintro ⟨⟩⟩

/-- **The restoring move**, from what the moves before it have left. -/
theorem restorePolicy_keeps_iff {device : Device M C} {policy old pkgPolicy : Option C}
    (hbacked : BackedUp outcomes policy → outcomes.backup.Moves policy)
    (hpath : device.files (policyPath conf) =
      outcomes.deploy.leaves pkgPolicy (afterBackup outcomes policy))
    (hold : device.files (policyOld conf) = spare outcomes policy old) :
    (restorePolicy conf outcomes device).files (policyPath conf) = policy ↔
      PolicyKept outcomes policy old pkgPolicy := by
  have hrestored := (device.moveFile_files outcomes.restore (policyOld_ne conf)).2.1
  have hbackup : ¬(BackedUp outcomes policy ∧ ¬outcomes.backup.Moves policy) :=
    fun h => h.2 (hbacked h.1)
  rw [hpath, hold] at hrestored
  rw [restorePolicy, hrestored, PolicyKept]
  split
  · rename_i hrestores
    simp [hbackup, hrestores]
  · rename_i hrestores
    simp [hbackup, hrestores]

/-- **The policy**: whether it is deployed, and where it is not, whether it is kept. -/
theorem deployPolicyFile_spec {path : Path} (hold : path ≠ policyOld conf)
    (hpath : path ≠ policyPath conf) (device : Device M C) :
    let policy := device.files (policyPath conf)
    let deployed := deployPolicyFile conf outcomes path device
    (deployed.1 = true ↔ PolicyDeploys outcomes policy (device.files path)) ∧
      (deployed.1 = false → (deployed.2.files (policyPath conf) = policy ↔
        PolicyKept outcomes policy (device.files (policyOld conf)) (device.files path))) := by
  intro policy deployed
  obtain ⟨hbacks, hafter, hfails⟩ := backupPolicy_spec conf outcomes device
  have hsource := (touches_backupPolicy conf outcomes device).files path (by simp [hold, hpath])
  change (backupPolicy conf outcomes device).1 = true ↔
    (BackedUp outcomes policy → outcomes.backup.Moves policy) at hbacks
  have hdeployed : deployed = (if (backupPolicy conf outcomes device).1 then
      if ((backupPolicy conf outcomes device).2.moveFile outcomes.deploy path
          (policyPath conf) true).1 then
        (true, ((backupPolicy conf outcomes device).2.moveFile outcomes.deploy path
          (policyPath conf) true).2)
      else (false, restorePolicy conf outcomes ((backupPolicy conf outcomes device).2.moveFile
        outcomes.deploy path (policyPath conf) true).2)
      else (false, (backupPolicy conf outcomes device).2)) := rfl
  clear_value deployed
  generalize backupPolicy conf outcomes device = backedUp at *
  obtain ⟨hmoves, hdest, _⟩ := backedUp.2.moveFile_files outcomes.deploy hpath
  have hspare := (System.touches_moveFile backedUp.2 outcomes.deploy path (policyPath conf)
    true).files (policyOld conf) (by simp [hold.symm, policyOld_ne])
  rw [hsource] at hmoves hdest
  cases hbacked : backedUp.1 with
  | false =>
      -- the backup has failed, and nothing else is tried
      have hno : ¬(BackedUp outcomes policy → outcomes.backup.Moves policy) := by
        rw [← hbacks, hbacked]
        exact Bool.false_ne_true
      rw [hdeployed, hbacked]
      refine ⟨?_, fun _ => ?_⟩
      · simp [PolicyDeploys, hno]
      · refine iff_of_true (hfails hbacked) (Or.inl ?_)
        rwa [Classical.not_imp] at hno
  | true =>
      obtain ⟨hafterPolicy, hafterOld⟩ := hafter hbacked
      have hyes : BackedUp outcomes policy → outcomes.backup.Moves policy := hbacks.1 hbacked
      change _ = afterBackup outcomes policy at hafterPolicy
      change _ = spare outcomes policy _ at hafterOld
      rw [hafterPolicy] at hdest
      rw [hafterOld] at hspare
      generalize backedUp.2.moveFile outcomes.deploy path (policyPath conf) true = moved at *
      cases hmoved : moved.1 with
      | true =>
          rw [hdeployed, hbacked, hmoved]
          exact ⟨iff_of_true rfl ⟨hyes, hmoves.1 hmoved⟩, by rintro ⟨⟩⟩
      | false =>
          have hnot : ¬outcomes.deploy.Moves (device.files path) := by
            rw [← hmoves, hmoved]
            exact Bool.false_ne_true
          rw [if_neg hnot] at hdest
          rw [hdeployed, hbacked, hmoved]
          exact ⟨by simp [PolicyDeploys, hnot], fun _ =>
            restorePolicy_keeps_iff conf outcomes hyes hdest hspare⟩

/-! ## The order of the steps -/

/-- **The order of the steps.**  If the stop command fails, nothing else is done.
Otherwise the steps are the stop command, the archives in list order up to and including
the first failure, the policy if every archive was unpacked, the configure command if the
policy was deployed too, and last, and only there, the start command.  The result is true
if and only if the stop command, every archive, the policy and the start command
succeeded; the policy does if its backup, where one is tried, and its move succeed. -/
theorem command_protocol (pkg : InstallPkg) (device : Device M C) :
    let unpacked := unpackAll outcomes pkg device
    let policy := deployPolicyFile conf outcomes (pkgPolicyPath pkg) unpacked.2
    let called := operatorCall conf outcomes pkg device
    ∃ policySteps : List (Action Path), (∀ action ∈ policySteps, action.OnFile) ∧
      called.2.log = device.log ++ .command .stopMlplatform ::
        (if outcomes.stop then
          (attempted outcomes 0 (archivePaths pkg)).map .unpack ++
            (if unpacked.1 then
              policySteps ++ (if policy.1 then [.command .configureMlplatform] else [])
            else []) ++ [.command .startMlplatform]
        else []) ∧
      (unpacked.1 = true ↔ AllUnpack outcomes 0 pkg.archives.length) ∧
      (policy.1 = true ↔ PolicyDeploys outcomes (device.files (policyPath conf))
        (device.files (pkgPolicyPath pkg))) ∧
      (called.1 = true ↔
        outcomes.stop = true ∧ unpacked.1 = true ∧ policy.1 = true ∧ outcomes.start = true) := by
  intro unpacked policy called
  obtain ⟨hall, -, hfiles, hunpacked⟩ := deployArchives_spec outcomes (archivePaths pkg) 0
    (systemCmdExecutor outcomes.stop .stopMlplatform device).2
  obtain ⟨_, _, policySteps, hpolicy, honFile⟩ :=
    touches_deployPolicyFile conf outcomes (pkgPolicyPath pkg) unpacked.2
  change unpacked.1 = true ↔ _ at hall
  change unpacked.2.files = device.files at hfiles
  change unpacked.2.log = _ at hunpacked
  change policy.2.log = _ at hpolicy
  rw [length_archivePaths] at hall
  have hdeploys : policy.1 = true ↔ PolicyDeploys outcomes (unpacked.2.files (policyPath conf))
      (unpacked.2.files (pkgPolicyPath pkg)) :=
    (deployPolicyFile_spec conf outcomes (by rintro ⟨⟩) (by rintro ⟨⟩) unpacked.2).1
  rw [hfiles] at hdeploys
  have hcalled : called = conclude outcomes
      (systemCmdExecutor outcomes.stop .stopMlplatform device).2 unpacked policy :=
    operatorCall_eq conf outcomes pkg device
  refine ⟨policySteps, honFile, ?_, hall, hdeploys, ?_⟩
  · rw [hcalled, log_conclude outcomes _ hpolicy, hunpacked]
    cases outcomes.stop <;> simp [systemCmdExecutor, System.record]
  · rw [hcalled]
    exact conclude_eq_true _ _ _ _

/-! ## Replacing the policy -/

/-- If the policy is not replaced, the file at its path is as it was before the call. -/
def ReplacementAtomic (pkg : InstallPkg) (device : Device M C) : Prop :=
  (deployPolicyFile conf outcomes (pkgPolicyPath pkg) device).1 = false →
    (deployPolicyFile conf outcomes (pkgPolicyPath pkg) device).2.files (policyPath conf) =
      device.files (policyPath conf)

/-- What a restoring move that works brings back. -/
theorem policyKept_iff (hrestore : outcomes.restore.Works) (policy old pkgPolicy : Option C) :
    PolicyKept outcomes policy old pkgPolicy ↔ BackedUp outcomes policy ∨ old = policy := by
  obtain ⟨hremove, hmoves⟩ := hrestore
  have hspare (source : Option C) : outcomes.restore.Moves source ↔ source.isSome :=
    and_iff_left hmoves
  by_cases hbacked : BackedUp outcomes policy
  · refine iff_of_true ?_ (Or.inl hbacked)
    rw [PolicyKept, spare, if_pos hbacked, hspare]
    by_cases hbackup : outcomes.backup.Moves policy
    · exact Or.inr (Or.inl ⟨hbacked.1, rfl⟩)
    · exact Or.inl ⟨hbacked, hbackup⟩
  · -- there is no backup, and the move finds what an earlier deployment has left
    rw [PolicyKept, spare, if_neg hbacked, hspare]
    cases old with
    | none => simp [hbacked, MoveOutcome.leaves, hremove]
    | some content => simp [hbacked]

/-- **A policy that is not replaced is left as it was**, where the restoring move works, if
and only if it was backed up, or `.old` is what it was, or it can be replaced. -/
theorem replacement_atomic_iff (hrestore : outcomes.restore.Works) (pkg : InstallPkg)
    (device : Device M C) :
    ReplacementAtomic conf outcomes pkg device ↔
      BackedUp outcomes (device.files (policyPath conf)) ∨
        device.files (policyOld conf) = device.files (policyPath conf) ∨
        outcomes.deploy.Moves (device.files (pkgPolicyPath pkg)) := by
  have hold : pkgPolicyPath pkg ≠ policyOld conf := by rintro ⟨⟩
  have hpath : pkgPolicyPath pkg ≠ policyPath conf := by rintro ⟨⟩
  obtain ⟨hdeploys, hkept⟩ := deployPolicyFile_spec conf outcomes hold hpath device
  rw [policyKept_iff outcomes hrestore] at hkept
  rw [ReplacementAtomic]
  cases hdeployed : (deployPolicyFile conf outcomes (pkgPolicyPath pkg) device).1 with
  | true => exact iff_of_true (by rintro ⟨⟩) (Or.inr (Or.inr (hdeploys.1 hdeployed).2))
  | false =>
      have hnot : ¬PolicyDeploys outcomes (device.files (policyPath conf))
          (device.files (pkgPolicyPath pkg)) := by
        rw [← hdeploys, hdeployed]
        exact Bool.false_ne_true
      rw [forall_prop_of_true rfl, hkept hdeployed, ← or_assoc]
      refine ⟨Or.inl, fun h => h.elim id fun hmoves => ?_⟩
      -- what keeps a policy that can be replaced in its place is a backup that fails
      have hbackup : ¬(BackedUp outcomes _ → outcomes.backup.Moves _) :=
        fun hbacks => hnot ⟨hbacks, hmoves⟩
      exact Or.inl (Classical.not_imp.1 hbackup).1

/-- The policy was backed up, and is there again after the move of the new one has failed. -/
theorem replacement_atomic_backed_up :
    let moves : MoveOutcome ℕ := ⟨true, .done, true, id, true⟩
    let outcomes : Outcomes Unit ℕ :=
      { stop := true
        unpack := fun _ => (true, id)
        opens := true
        backup := moves
        deploy := { moves with rename := .error }
        restore := moves
        configure := true
        start := true }
    let device : Device Unit ℕ := { modules := (), files := fun _ => some 0 }
    ReplacementAtomic ⟨"policy"⟩ outcomes ⟨"pkg/", "policy", []⟩ device := by
  intro moves outcomes device
  have hworks : outcomes.restore.Works := ⟨rfl, Or.inl rfl⟩
  exact (replacement_atomic_iff ⟨"policy"⟩ outcomes hworks ⟨"pkg/", "policy", []⟩ device).2
    (Or.inl ⟨rfl, rfl⟩)

/-- There is no policy to back up, the new one cannot be moved, and what an earlier
deployment has left in `.old` takes the place of the policy. -/
theorem not_replacement_atomic_stale :
    ¬∀ (conf : Configuration) (outcomes : Outcomes Unit ℕ), outcomes.restore.Works →
      ∀ (pkg : InstallPkg) (device : Device Unit ℕ),
        ReplacementAtomic conf outcomes pkg device := by
  intro h
  let moves : MoveOutcome ℕ := ⟨true, .done, true, id, true⟩
  let outcomes : Outcomes Unit ℕ :=
    { stop := true
      unpack := fun _ => (true, id)
      opens := true
      backup := moves
      deploy := { moves with rename := .error }
      restore := moves
      configure := true
      start := true }
  let device : Device Unit ℕ :=
    { modules := (), files := fun path => if path = .installed "policy" then none else some 0 }
  have hkept := h ⟨"policy"⟩ outcomes ⟨rfl, Or.inl rfl⟩ ⟨"pkg/", "policy", []⟩ device rfl
  have hrestored : (deployPolicyFile ⟨"policy"⟩ outcomes
      (pkgPolicyPath ⟨"pkg/", "policy", []⟩) device).2.files (policyPath ⟨"policy"⟩) = some 0 :=
    rfl
  rw [hrestored] at hkept
  cases hkept

/-! ## The disk after a fallback -/

/-- What the modules become depends on the number of archives only. -/
theorem unpackedModules_congr {α β : Type*} :
    ∀ (index : ℕ) {archives : List α} {archives' : List β} (modules : M),
      archives.length = archives'.length →
        unpackedModules outcomes index archives modules =
          unpackedModules outcomes index archives' modules
  | _, [], [], _, _ => rfl
  | index, _ :: _, _ :: _, modules, hlength => by
      simp only [unpackedModules]
      rw [unpackedModules_congr (index + 1) _ (Nat.succ.inj hlength)]

end DeployPipeline

end NewCPP.Deployment
