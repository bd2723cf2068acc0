import Mathlib.Data.List.Induction
import NewCPP.Library.Numeral

/-!
# The mount point of a mass storage

`UsbMassStorageMonitor::processDevice` goes through the mount table and takes the directory
of every entry whose file-system name starts with the node of the disk, so that the last one
stays.

* `processDevice_mountPath` — the mount path is the directory of the last entry whose name
  starts with the node.
* `mountedRight_iff` — for which tables this is the directory of the disk: the node of
  another disk may start with the same characters.

## Design notes

**Prefixes.**  `std::equal` is given no end of the name.  A name that is shorter than the node
ends with its terminator, which differs from every character of a node.

**The device.**  `UdevDevice` is what `processDevice` asks udev about: the node of the `block`
child, whether there is a `scsi_disk` child, and `idVendor` and `idProduct` of the USB device
above.
-/

namespace NewCPP.Deployment

open Library.Numeral

/-- The fields of `mntent` that are read. -/
structure MountEntry where
  mntFsname : List Char
  mntDir : List Char
  deriving DecidableEq

namespace MountPointResolver

/-- The entries of the table, none if it cannot be opened. -/
def entries (mtab : Option (List MountEntry)) : List MountEntry :=
  mtab.getD []

/-- The consumer sees every entry, in the order of the table. -/
def resolve {σ : Type} (mtab : Option (List MountEntry))
    (consumer : σ → List Char → List Char → σ) (state : σ) : σ :=
  (entries mtab).foldl
    (fun state entity => consumer state entity.mntFsname entity.mntDir) state

end MountPointResolver

/-- What the handler is told of a device. -/
structure UsbMassStorage where
  mountPath : List Char := []
  fsName : List Char := []
  vendor : List Char := []
  productId : List Char := []
  deriving DecidableEq

/-- The conversion to `bool`. -/
def UsbMassStorage.toBool (item : UsbMassStorage) : Bool :=
  decide (0 < item.mountPath.length)

/-- What udev knows of a device: its node, and whether it is a disk of a USB device. -/
structure UdevDevice where
  block : Option (List Char)
  scsiDisk : Bool
  usb : Option (List Char × List Char)
  deriving DecidableEq

namespace UsbMassStorageMonitor

open MountPointResolver

/-- The assignments to `mountPoint`. -/
def mountPoint (mtab : Option (List MountEntry)) (devFsName : List Char) : List Char :=
  resolve mtab
    (fun mountPoint fsName mountDir =>
      if devFsName <+: fsName then mountDir else mountPoint) []

/-- A device is processed if it is such a disk and has a mount point. -/
def processDevice (mtab : Option (List MountEntry)) (dev : UdevDevice) : UsbMassStorage :=
  match dev.block, dev.scsiDisk, dev.usb with
  | some devFsName, true, some (idVendor, idProduct) =>
      let mountPoint := mountPoint mtab devFsName
      if mountPoint = [] then {}
      else
        { fsName := devFsName, mountPath := mountPoint, vendor := idVendor,
          productId := idProduct }
  | _, _, _ => {}

/-! ## The last entry -/

/-- The last entry with a property. -/
def lastEntry (p : MountEntry → Bool) (table : List MountEntry) : Option MountEntry :=
  (table.filter p).getLast?

/-- The directory of an entry, nothing if there is none. -/
def mountDir (entry : Option MountEntry) : List Char :=
  (entry.map MountEntry.mntDir).getD []

/-- The entries that the comparison accepts. -/
def startsWith (node : List Char) (entry : MountEntry) : Bool :=
  decide (node <+: entry.mntFsname)

theorem startsWith_iff {node : List Char} {entry : MountEntry} :
    startsWith node entry = true ↔ node <+: entry.mntFsname :=
  decide_eq_true_iff

/-- The last entry that fits wins. -/
theorem lastEntry_append_singleton (p : MountEntry → Bool) (table : List MountEntry)
    (entry : MountEntry) : lastEntry p (table ++ [entry]) =
      if p entry then some entry else lastEntry p table := by
  unfold lastEntry
  rw [List.filter_append, List.getLast?_append]
  split
  · rename_i hp
    rw [List.filter_cons_of_pos hp, List.filter_nil, List.getLast?_singleton, Option.some_or]
  · rename_i hp
    rw [List.filter_cons_of_neg hp, List.filter_nil, List.getLast?_nil, Option.none_or]

/-- There is none if none fits. -/
theorem lastEntry_eq_none_iff {p : MountEntry → Bool} {table : List MountEntry} :
    lastEntry p table = none ↔ ∀ entry ∈ table, p entry = false := by
  rw [lastEntry, List.getLast?_eq_none_iff, List.filter_eq_nil_iff]
  simp only [Bool.not_eq_true]

/-- It is an entry, and it fits. -/
theorem mem_of_lastEntry {p : MountEntry → Bool} {table : List MountEntry}
    {entry : MountEntry} (h : lastEntry p table = some entry) : entry ∈ table ∧ p entry :=
  List.mem_filter.1 (List.mem_of_getLast? h)

/-- Entries that the comparison does not accept may be left out first. -/
theorem lastEntry_filter {p q : MountEntry → Bool} (h : ∀ entry, p entry → q entry)
    (table : List MountEntry) : lastEntry q (table.filter p) = lastEntry p table := by
  unfold lastEntry
  rw [List.filter_filter]
  congr 1
  refine List.filter_congr fun entry _ => ?_
  cases hp : p entry with
  | false => rw [Bool.and_false]
  | true => rw [h entry hp, Bool.and_true]

/-- A mount point that was found is the one of some entry. -/
theorem exists_of_mountDir_ne_nil {p : MountEntry → Bool} {table : List MountEntry}
    (h : mountDir (lastEntry p table) ≠ []) :
    ∃ entry ∈ table, p entry ∧ entry.mntDir = mountDir (lastEntry p table) := by
  cases hlast : lastEntry p table with
  | none =>
      rw [hlast] at h
      exact absurd rfl h
  | some entry =>
      obtain ⟨hmem, hp⟩ := mem_of_lastEntry hlast
      exact ⟨entry, hmem, hp, rfl⟩

/-- An entry with a directory is told from none. -/
theorem mountDir_eq_nil_iff {entry : Option MountEntry} (h : ∀ e ∈ entry, e.mntDir ≠ []) :
    mountDir entry = [] ↔ entry = none := by
  cases entry with
  | none => exact iff_of_true rfl rfl
  | some e => exact iff_of_false (h e rfl) (by rintro ⟨⟩)

/-- **The last match wins.** -/
theorem mountPoint_eq (mtab : Option (List MountEntry)) (node : List Char) :
    mountPoint mtab node = mountDir (lastEntry (startsWith node) (entries mtab)) := by
  unfold mountPoint resolve
  generalize entries mtab = table
  induction table using List.reverseRecOn with
  | nil => rfl
  | append_singleton table entry ih =>
      rw [List.foldl_append, List.foldl_cons, List.foldl_nil, lastEntry_append_singleton, ih]
      beta_reduce
      by_cases hstart : node <+: entry.mntFsname
      · rw [if_pos hstart, if_pos (startsWith_iff.2 hstart)]
        rfl
      · rw [if_neg hstart, if_neg (mt startsWith_iff.1 hstart)]

/-- Whether the device has everything that a mounted mass storage has. -/
def isComplete (dev : UdevDevice) : Bool :=
  dev.block.isSome && dev.scsiDisk && dev.usb.isSome

/-- Without the node, the disk or the ids nothing is found. -/
theorem processDevice_of_incomplete (mtab : Option (List MountEntry)) {dev : UdevDevice}
    (h : isComplete dev = false) : processDevice mtab dev = {} := by
  unfold processDevice
  split
  · rename_i hblock hscsi husb
    rw [isComplete, hblock, hscsi, husb] at h
    cases h
  · rfl

theorem processDevice_of_complete (mtab : Option (List MountEntry))
    (node idVendor idProduct : List Char) :
    processDevice mtab ⟨some node, true, some (idVendor, idProduct)⟩ =
      if mountPoint mtab node = [] then {}
      else ⟨mountPoint mtab node, node, idVendor, idProduct⟩ := rfl

/-- The mount point is that of the last entry whose name begins with the node. -/
theorem processDevice_mountPath (mtab : Option (List MountEntry))
    (node idVendor idProduct : List Char) :
    (processDevice mtab ⟨some node, true, some (idVendor, idProduct)⟩).mountPath =
      mountDir (lastEntry (startsWith node) (entries mtab)) := by
  rw [processDevice_of_complete, ← mountPoint_eq]
  split
  · rename_i hempty
    exact hempty.symm
  · rfl

/-! ## The right disk -/

/-- The name is the node itself or a partition of it. -/
def OfDisk (node name : List Char) : Prop :=
  ∃ digits, (∀ c ∈ digits, isDigit c) ∧ name = node ++ digits

/-- The entries of the disk. -/
def isOfDisk (node : List Char) (entry : MountEntry) : Bool :=
  startsWith node entry && (entry.mntFsname.drop node.length).all isDigit

theorem isOfDisk_iff {node : List Char} {entry : MountEntry} :
    isOfDisk node entry = true ↔ OfDisk node entry.mntFsname := by
  rw [isOfDisk, Bool.and_eq_true, startsWith_iff]
  constructor
  · rintro ⟨⟨rest, hrest⟩, hdigits⟩
    rw [← hrest, List.drop_left] at hdigits
    exact ⟨rest, List.all_eq_true.1 hdigits, hrest.symm⟩
  · rintro ⟨digits, hdigits, heq⟩
    rw [heq, List.drop_left]
    exact ⟨List.prefix_append _ _, List.all_eq_true.2 hdigits⟩

/-- A partition's name begins with its disk's. -/
theorem startsWith_of_isOfDisk {node : List Char} {entry : MountEntry}
    (h : isOfDisk node entry) : startsWith node entry :=
  (Bool.and_eq_true_iff.1 h).1

/-- The mount path comes from the entries of the disk, and from no others. -/
structure MountedRight (mtab : Option (List MountEntry)) (node : List Char)
    (dev : UdevDevice) : Prop where
  ofEntry : (processDevice mtab dev).mountPath ≠ [] →
    ∃ entry ∈ entries mtab, OfDisk node entry.mntFsname ∧
      entry.mntDir = (processDevice mtab dev).mountPath
  queued_iff : (processDevice mtab dev).toBool = false ↔
    ∀ entry ∈ entries mtab, ¬OfDisk node entry.mntFsname
  others : processDevice (some ((entries mtab).filter (isOfDisk node))) dev =
    processDevice mtab dev

/-- The last entry whose name starts with the node has the directory of the last entry of
the disk, and this is there if the disk has entries. -/
structure LastEntryRight (table : List MountEntry) (node : List Char) : Prop where
  same : mountDir (lastEntry (startsWith node) table) =
    mountDir (lastEntry (isOfDisk node) table)
  nonempty : ∀ entry ∈ lastEntry (isOfDisk node) table, entry.mntDir ≠ []

theorem toBool_eq_false_iff (item : UsbMassStorage) :
    item.toBool = false ↔ item.mountPath = [] := by
  rw [UsbMassStorage.toBool, decide_eq_false_iff_not, List.length_pos_iff, not_not]

/-- The disk has no entries. -/
theorem lastEntry_isOfDisk_eq_none_iff {node : List Char} {table : List MountEntry} :
    lastEntry (isOfDisk node) table = none ↔
      ∀ entry ∈ table, ¬OfDisk node entry.mntFsname := by
  rw [lastEntry_eq_none_iff]
  simp only [← isOfDisk_iff, Bool.not_eq_true]

/-- For such a device there must be nothing to find. -/
theorem mountedRight_of_incomplete (mtab : Option (List MountEntry)) (node : List Char)
    {dev : UdevDevice} (h : isComplete dev = false) :
    MountedRight mtab node dev ↔ ∀ entry ∈ entries mtab, ¬OfDisk node entry.mntFsname := by
  have hfree (mtab : Option (List MountEntry)) := processDevice_of_incomplete mtab h
  constructor
  · intro hright
    exact hright.queued_iff.1 (by rw [hfree]; rfl)
  · intro hnone
    refine ⟨fun hpath => ?_, ⟨fun _ => hnone, fun _ => ?_⟩, ?_⟩
    · exact absurd (by rw [hfree]) hpath
    · rw [hfree]
      rfl
    · rw [hfree, hfree]

/-- Otherwise it is about the last entry. -/
theorem mountedRight_of_complete (mtab : Option (List MountEntry))
    (node idVendor idProduct : List Char) :
    MountedRight mtab node ⟨some node, true, some (idVendor, idProduct)⟩ ↔
      LastEntryRight (entries mtab) node := by
  have hpath := processDevice_mountPath mtab node idVendor idProduct
  have hown : mountPoint (some ((entries mtab).filter (isOfDisk node))) node =
      mountDir (lastEntry (isOfDisk node) (entries mtab)) := by
    rw [mountPoint_eq]
    exact congrArg mountDir (lastEntry_filter (fun _ => startsWith_of_isOfDisk) _)
  constructor
  · rintro ⟨-, hqueued, hothers⟩
    have hsame := congrArg UsbMassStorage.mountPath hothers
    rw [hpath, processDevice_mountPath, ← mountPoint_eq, hown] at hsame
    refine ⟨hsame.symm, fun entry hentry hempty => ?_⟩
    -- a disk with an entry is not mounted
    have hnone : mountDir (lastEntry (isOfDisk node) (entries mtab)) = [] := by
      rw [Option.mem_def.1 hentry]
      exact hempty
    rw [toBool_eq_false_iff, hpath, ← hsame, ← lastEntry_isOfDisk_eq_none_iff] at hqueued
    rw [hqueued.1 hnone] at hentry
    cases hentry
  · rintro ⟨hsame, hnonempty⟩
    refine ⟨fun hne => ?_, ?_, ?_⟩
    · rw [hpath, hsame] at hne ⊢
      obtain ⟨entry, hmem, hof, hdir⟩ := exists_of_mountDir_ne_nil hne
      exact ⟨entry, hmem, isOfDisk_iff.1 hof, hdir⟩
    · rw [toBool_eq_false_iff, hpath, hsame, mountDir_eq_nil_iff hnonempty]
      exact lastEntry_isOfDisk_eq_none_iff
    · rw [processDevice_of_complete, processDevice_of_complete, hown, mountPoint_eq, hsame]

/-- **Mount points of the right disk**: exactly the tables in which no entry of another disk
covers those of the disk. -/
theorem mountedRight_iff (mtab : Option (List MountEntry)) (node : List Char)
    (scsiDisk : Bool) (usb : Option (List Char × List Char)) :
    MountedRight mtab node ⟨some node, scsiDisk, usb⟩ ↔
      if scsiDisk ∧ usb.isSome then LastEntryRight (entries mtab) node
      else ∀ entry ∈ entries mtab, ¬OfDisk node entry.mntFsname := by
  split
  · rename_i hcomplete
    obtain ⟨rfl, husb⟩ := hcomplete
    obtain ⟨⟨idVendor, idProduct⟩, rfl⟩ := Option.isSome_iff_exists.1 husb
    exact mountedRight_of_complete mtab node idVendor idProduct
  · rename_i hincomplete
    refine mountedRight_of_incomplete mtab node ?_
    rw [isComplete, Bool.and_assoc, Option.isSome_some, Bool.true_and, Bool.eq_false_iff]
    exact fun h => hincomplete (Bool.and_eq_true_iff.1 h)

/-- The first disk and the twenty-seventh. -/
theorem not_mountedRight_twentySeven :
    ¬∀ (letters : List Char) (mtab : Option (List MountEntry)) (usb : List Char × List Char),
      letters ≠ [] → (∀ c ∈ letters, 'a' ≤ c ∧ c ≤ 'z') →
      MountedRight mtab ("/dev/sd".toList ++ letters)
        ⟨some ("/dev/sd".toList ++ letters), true, some usb⟩ := by
  intro h
  have hright := h ['a']
    (some [⟨"/dev/sda1".toList, "/media/a".toList⟩, ⟨"/dev/sdaa1".toList, "/media/b".toList⟩])
    ([], []) (by decide) (List.forall_mem_singleton.2 (by decide))
  exact absurd hright.others (by decide)

end UsbMassStorageMonitor

end NewCPP.Deployment
