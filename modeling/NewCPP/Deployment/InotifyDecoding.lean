import Mathlib.Algebra.Order.Ring.Nat
import NewCPP.Deployment.FolderMonitor
import NewCPP.Library.Buffer
import NewCPP.Library.LittleEndian

/-!
# Decoding inotify events

The bytes that `read` leaves in the event buffer, and the loop in which `parseEvents`
walks over them.

* `parseEvents_bytes` — the loop handles the records in the buffer, one round for each.
* `decoded_iff` — for which records the paths are the names that the kernel reports.  A
  name is taken together with the null characters behind it.

## Design notes

**Numbers.**  The fields of an event are little-endian, as on the platforms that the
project builds for.

**Accesses.**  What the loop reads of the buffer is logged, as offsets and lengths.

**Records.**  An `InotifyRecord` is what the kernel writes: the four fields and a name with at
least one null character behind it, or no name at all.  `InotifyRecord.event` is the event that
the model of the monitor goes on with, and `round` one round of the loop.

**Masks.**  A mask is a word of bits.  `eventMask` reads the bits in the order in which the code
asks for them, so that a mask with several of them is the first.
-/

namespace NewCPP.Deployment

open Library Library.Buffer

/-! ## The records of the kernel -/

/-- An event as the kernel reports it, and how many null characters it puts behind the
name. -/
structure InotifyRecord where
  wd : UInt32
  mask : UInt32
  cookie : UInt32
  name : List UInt8
  padding : ℕ
  noNul : 0 ∉ name
  terminated : name ≠ [] → 0 < padding
  fits : name.length + padding < 2 ^ 32

namespace InotifyRecord

/-- The `len` bytes behind the header. -/
def paddedName (record : InotifyRecord) : List UInt8 :=
  record.name ++ List.replicate record.padding 0

/-- The sixteen bytes in front of the name. -/
def header (record : InotifyRecord) : List UInt8 :=
  LittleEndian.bytes 4 record.wd.toNat ++ LittleEndian.bytes 4 record.mask.toNat ++
    LittleEndian.bytes 4 record.cookie.toNat ++
    LittleEndian.bytes 4 record.paddedName.length

/-- A record as the kernel writes it. -/
def bytes (record : InotifyRecord) : List UInt8 :=
  record.header ++ record.paddedName

end InotifyRecord

/-! ## The loop -/

/-- A file that was open for writing was closed. -/
def inCloseWrite : UInt32 := 0x8
/-- A file that was open for reading was closed. -/
def inCloseNowrite : UInt32 := 0x10
/-- Either of the two, as the monitor asks for it. -/
def inClose : UInt32 := inCloseWrite ||| inCloseNowrite
/-- A file was opened. -/
def inOpen : UInt32 := 0x20
/-- A file was created in the folder. -/
def inCreate : UInt32 := 0x100
/-- A file was deleted from the folder. -/
def inDelete : UInt32 := 0x200
/-- The watch is gone. -/
def inIgnored : UInt32 := 0x8000

/-- Four bytes of the buffer as a word of the machine. -/
def u32At (buffer : List UInt8) (offset : ℕ) : UInt32 :=
  UInt32.ofNat (LittleEndian.value (window buffer offset 4))

/-- A string of the bytes. -/
def chars (bytes : List UInt8) : List Char :=
  bytes.map Char.ofUInt8

/-- `handleStateChange` on the mask itself: an `IN_OPEN` bit wins over an `IN_CLOSE` bit. -/
def WatchedFile.handleMask (event : UInt32) (now : ℕ) (file : WatchedFile) : WatchedFile :=
  let file := { file with lastAccessTime := now }
  if event &&& inOpen ≠ 0 then { file with inUse := true }
  else if event &&& inClose ≠ 0 then { file with inUse := false }
  else file

/-- A round of the loop: the mask, and the path unless the event is skipped. -/
structure ParseRound where
  mask : UInt32
  path : Option (List UInt8)
  deriving DecidableEq

/-- The state of the loop over the buffer, with the bytes it has looked at. -/
structure Parsing where
  monitor : FolderMonitor
  rounds : List ParseRound := []
  accesses : List (ℕ × ℕ) := []

namespace Parsing

/-- What a round does with an event that is not skipped. -/
def handlePath (now : ℕ) (monitor : FolderMonitor) (mask : UInt32) (path : List Char) :
    FolderMonitor :=
  if mask &&& inCreate ≠ 0 then
    { monitor with
      watchedFiles := monitor.watchedFiles ++ [{ lastAccessTime := now, path := path }] }
  else if mask &&& inDelete ≠ 0 then
    { monitor with watchedFiles := monitor.watchedFiles.eraseP fun file => file.path = path }
  else
    { monitor with
      watchedFiles := FolderMonitor.modifyFile path (WatchedFile.handleMask mask now)
        monitor.watchedFiles }

/-- `parseEvents` from `index` on. -/
def parseEvents (now : ℕ) (buffer : List UInt8) (length index : ℕ) (parsing : Parsing) :
    Parsing :=
  if index < length then
    let mask := u32At buffer (index + 4)
    let len := u32At buffer (index + 12)
    let next := index + (inotifyEventSize + len.toNat)
    if mask &&& inIgnored ≠ 0 then
      parseEvents now buffer length next
        { parsing with
          rounds := parsing.rounds ++ [⟨mask, none⟩]
          accesses := parsing.accesses ++ [(index + 12, 4), (index + 4, 4)] }
    else
      let path := window buffer (index + inotifyEventSize) len.toNat
      parseEvents now buffer length next
        { monitor := handlePath now parsing.monitor mask (chars path)
          rounds := parsing.rounds ++ [⟨mask, some path⟩]
          accesses := parsing.accesses ++
            [(index + 12, 4), (index + 4, 4), (index + inotifyEventSize, len.toNat)] }
  else parsing
termination_by length - index
decreasing_by all_goals (simp only [inotifyEventSize]; omega)

end Parsing

/-! ## One record -/

/-- The kind of event that the tests on a mask find, in their order. -/
def eventMask (mask : UInt32) : EventMask :=
  if mask &&& inIgnored ≠ 0 then .inIgnored
  else if mask &&& inCreate ≠ 0 then .inCreate
  else if mask &&& inDelete ≠ 0 then .inDelete
  else if mask &&& inOpen ≠ 0 then .inOpen
  else if mask &&& inCloseWrite ≠ 0 then .inCloseWrite
  else if mask &&& inCloseNowrite ≠ 0 then .inCloseNowrite
  else .other

/-- `IN_CLOSE` is either of the two. -/
theorem and_inClose_ne_zero_iff (mask : UInt32) :
    mask &&& inClose ≠ 0 ↔ mask &&& inCloseWrite ≠ 0 ∨ mask &&& inCloseNowrite ≠ 0 := by
  have hbits : mask &&& inClose = (mask &&& inCloseWrite) ||| (mask &&& inCloseNowrite) := by
    apply UInt32.toBitVec_inj.1
    simp only [inClose, UInt32.toBitVec_and, UInt32.toBitVec_or]
    exact BitVec.and_or_distrib_left
  rw [hbits, ne_eq, UInt32.or_eq_zero_iff, not_and_or]

/-- On a mask with none of the three other bits, the two agree. -/
theorem handleMask_eq {mask : UInt32} (hignored : mask &&& inIgnored = 0)
    (hcreate : mask &&& inCreate = 0) (hdelete : mask &&& inDelete = 0) (now : ℕ) :
    WatchedFile.handleMask mask now = WatchedFile.handleStateChange (eventMask mask) now := by
  funext file
  have hkind := and_inClose_ne_zero_iff mask
  unfold WatchedFile.handleMask eventMask
  rw [if_neg (not_not.2 hignored), if_neg (not_not.2 hcreate), if_neg (not_not.2 hdelete)]
  by_cases hopen : mask &&& inOpen = 0
  · by_cases hwrite : mask &&& inCloseWrite = 0
    · by_cases hnowrite : mask &&& inCloseNowrite = 0
      · simp [hopen, hwrite, hnowrite, hkind, WatchedFile.handleStateChange]
      · simp [hopen, hwrite, hnowrite, hkind, WatchedFile.handleStateChange]
    · simp [hopen, hwrite, hkind, WatchedFile.handleStateChange]
  · simp [hopen, WatchedFile.handleStateChange]

/-- A round does what the event of its kind does. -/
theorem handlePath_eq {mask : UInt32} (hignored : mask &&& inIgnored = 0) (now : ℕ)
    (monitor : FolderMonitor) (path : List Char) :
    Parsing.handlePath now monitor mask path = monitor.handleEvent now ⟨eventMask mask, path⟩ := by
  by_cases hcreate : mask &&& inCreate = 0
  · by_cases hdelete : mask &&& inDelete = 0
    · have hmask : eventMask mask ≠ .inIgnored ∧ eventMask mask ≠ .inCreate ∧
          eventMask mask ≠ .inDelete := by
        unfold eventMask
        rw [if_neg (not_not.2 hignored), if_neg (not_not.2 hcreate), if_neg (not_not.2 hdelete)]
        split_ifs <;> decide
      rw [Parsing.handlePath, if_neg (not_not.2 hcreate), if_neg (not_not.2 hdelete),
        handleMask_eq hignored hcreate hdelete, FolderMonitor.handleEvent]
      split
      · exact absurd (by assumption) hmask.1
      · exact absurd (by assumption) hmask.2.1
      · exact absurd (by assumption) hmask.2.2
      · rfl
    · have hmask : eventMask mask = .inDelete := by
        simp [eventMask, hignored, hcreate, hdelete]
      rw [hmask, Parsing.handlePath, if_neg (not_not.2 hcreate), if_pos hdelete]
      rfl
  · have hmask : eventMask mask = .inCreate := by
      simp [eventMask, hignored, hcreate]
    rw [hmask, Parsing.handlePath, if_pos hcreate]
    rfl

/-! ## The walk over the records -/

namespace InotifyRecord

/-- The event that the monitor sees. -/
def event (record : InotifyRecord) : InotifyEvent :=
  ⟨eventMask record.mask, chars record.paddedName⟩

/-- The round of a record whose path is taken to be `path`. -/
def round (path : InotifyRecord → List UInt8) (record : InotifyRecord) : ParseRound :=
  ⟨record.mask, if record.mask &&& inIgnored ≠ 0 then none else some (path record)⟩

theorem length_paddedName (record : InotifyRecord) :
    record.paddedName.length = record.name.length + record.padding := by
  rw [paddedName, List.length_append, List.length_replicate]

/-- A record has its header and its name. -/
theorem length_bytes (record : InotifyRecord) :
    record.bytes.length = inotifyEventSize + record.paddedName.length := by
  simp only [bytes, header, List.length_append, LittleEndian.length_bytes]
  rfl

end InotifyRecord

/-- A field is read back from a buffer. -/
theorem u32At_append (front : List UInt8) {value : ℕ} (h : value < 2 ^ 32) (rest : List UInt8) :
    u32At (front ++ (LittleEndian.bytes 4 value ++ rest)) front.length = UInt32.ofNat value := by
  have hwindow := window_append front (LittleEndian.bytes 4 value) rest
  rw [LittleEndian.length_bytes] at hwindow
  rw [u32At, hwindow, LittleEndian.value_bytes h]

section Record

variable (record : InotifyRecord) (front rest : List UInt8)

/-- Where the loop looks for the mask, it is. -/
theorem mask_at : u32At (front ++ (record.bytes ++ rest)) (front.length + 4) = record.mask := by
  have hfield := u32At_append (front ++ LittleEndian.bytes 4 record.wd.toNat)
    record.mask.toNat_lt (LittleEndian.bytes 4 record.cookie.toNat ++
      (LittleEndian.bytes 4 record.paddedName.length ++ (record.paddedName ++ rest)))
  rw [List.length_append, LittleEndian.length_bytes, UInt32.ofNat_toNat] at hfield
  rw [← hfield]
  simp only [InotifyRecord.bytes, InotifyRecord.header, List.append_assoc]

/-- Where it looks for the length, it is. -/
theorem len_at : (u32At (front ++ (record.bytes ++ rest)) (front.length + 12)).toNat =
    record.paddedName.length := by
  have hfits : record.paddedName.length < 2 ^ 32 := by
    rw [record.length_paddedName]
    exact record.fits
  have hfield := u32At_append (front ++ (LittleEndian.bytes 4 record.wd.toNat ++
    (LittleEndian.bytes 4 record.mask.toNat ++ LittleEndian.bytes 4 record.cookie.toNat)))
    hfits (record.paddedName ++ rest)
  simp only [List.length_append, LittleEndian.length_bytes] at hfield
  have hbytes : front ++ (record.bytes ++ rest) =
      front ++ (LittleEndian.bytes 4 record.wd.toNat ++ (LittleEndian.bytes 4 record.mask.toNat ++
        LittleEndian.bytes 4 record.cookie.toNat)) ++
        (LittleEndian.bytes 4 record.paddedName.length ++ (record.paddedName ++ rest)) := by
    simp only [InotifyRecord.bytes, InotifyRecord.header, List.append_assoc]
  rw [hbytes, hfield]
  exact UInt32.toNat_ofNat_of_lt' hfits

/-- And there the name begins. -/
theorem name_at : window (front ++ (record.bytes ++ rest)) (front.length + inotifyEventSize)
    record.paddedName.length = record.paddedName := by
  have hfield := window_append (front ++ record.header) record.paddedName rest
  have hlength : record.header.length = inotifyEventSize := by
    simp only [InotifyRecord.header, List.length_append, LittleEndian.length_bytes]
    rfl
  rw [List.length_append, hlength] at hfield
  rw [InotifyRecord.bytes]
  simpa only [List.append_assoc] using hfield

end Record

namespace Parsing

/-- What the loop has done with some records: a round for each, with its `len` bytes as the
path, and no byte read from `length` on. -/
structure Walked (now length : ℕ) (records : List InotifyRecord) (before after : Parsing) :
    Prop where
  monitor : after.monitor = before.monitor.parseEvents now (records.map InotifyRecord.event)
  rounds : after.rounds =
    before.rounds ++ records.map (InotifyRecord.round InotifyRecord.paddedName)
  inside : (∀ access ∈ before.accesses, access.1 + access.2 ≤ length) →
    ∀ access ∈ after.accesses, access.1 + access.2 ≤ length

/-- The round for the record at the front. -/
theorem parseEvents_cons (now length : ℕ) (record : InotifyRecord) (front rest : List UInt8)
    (parsing : Parsing) (hlength : front.length + record.bytes.length ≤ length) :
    ∃ next, Walked now length [record] parsing next ∧
      parseEvents now (front ++ (record.bytes ++ rest)) length front.length parsing =
        parseEvents now (front ++ (record.bytes ++ rest)) length
          (front ++ record.bytes).length next := by
  have hsize := record.length_bytes
  have hlt : front.length < length := by
    simp only [inotifyEventSize] at hsize
    omega
  rw [parseEvents, if_pos hlt]
  simp only [mask_at, len_at, name_at, List.length_append, hsize]
  have hhead : ∀ access ∈ [(front.length + 12, 4), (front.length + 4, 4)],
      access.1 + access.2 ≤ length := by
    simp only [inotifyEventSize] at hsize
    rw [List.forall_mem_cons, List.forall_mem_singleton]
    constructor <;> omega
  -- of an event that is ignored the name is not read
  by_cases hignored : record.mask &&& inIgnored = 0
  · refine ⟨_, ⟨?_, ?_, ?_⟩, if_neg (not_not.2 hignored)⟩
    · exact handlePath_eq hignored now parsing.monitor _
    · simp [InotifyRecord.round, hignored]
    · intro hbefore access haccess
      have hname : front.length + inotifyEventSize + record.paddedName.length ≤ length := by
        omega
      rcases List.mem_append.1 haccess with hold | hnew
      · exact hbefore access hold
      · rw [List.mem_cons, List.mem_cons, List.mem_singleton] at hnew
        rcases hnew with rfl | rfl | rfl
        · exact hhead _ List.mem_cons_self
        · exact hhead _ (List.mem_cons_of_mem _ List.mem_cons_self)
        · exact hname
  · refine ⟨_, ⟨?_, ?_, ?_⟩, if_pos hignored⟩
    · have hmask : eventMask record.mask = .inIgnored := if_pos hignored
      simp [FolderMonitor.parseEvents, InotifyRecord.event, FolderMonitor.handleEvent, hmask]
    · simp [InotifyRecord.round, hignored]
    · intro hbefore access haccess
      exact (List.mem_append.1 haccess).elim (hbefore access) (hhead access)

/-- One record, then the others. -/
theorem Walked.cons {now length : ℕ} {record : InotifyRecord} {records : List InotifyRecord}
    {before next after : Parsing} (hfirst : Walked now length [record] before next)
    (hrest : Walked now length records next after) :
    Walked now length (record :: records) before after where
  monitor := by
    rw [hrest.monitor, hfirst.monitor]
    rfl
  rounds := by rw [hrest.rounds, hfirst.rounds, List.append_assoc]; rfl
  inside h := hrest.inside (hfirst.inside h)

/-- The loop from the first of some records on, the last of which ends at `length`. -/
theorem parseEvents_records (now : ℕ) (records : List InotifyRecord) (front rest : List UInt8)
    (parsing : Parsing) :
    let length := front.length + (records.flatMap InotifyRecord.bytes).length
    Walked now length records parsing
      (parseEvents now (front ++ (records.flatMap InotifyRecord.bytes ++ rest)) length
        front.length parsing) := by
  induction records generalizing front parsing with
  | nil =>
      intro length
      rw [parseEvents, if_neg (by simp [length])]
      exact ⟨rfl, by simp, id⟩
  | cons record records ih =>
      intro length
      obtain ⟨next, hnext, hround⟩ := parseEvents_cons now length record front
        (records.flatMap InotifyRecord.bytes ++ rest) parsing (by
          simp only [length, List.flatMap_cons, List.length_append]
          omega)
      rw [List.flatMap_cons, List.append_assoc, hround]
      have hrest := ih (front ++ record.bytes) next
      rw [List.length_append, List.append_assoc] at hrest
      refine hnext.cons ?_
      have hlength : length = front.length + record.bytes.length +
          (records.flatMap InotifyRecord.bytes).length := by
        simp only [length, List.flatMap_cons, List.length_append]
        omega
      rw [hlength, List.length_append]
      exact hrest

end Parsing

/-! ## Names -/

/-- The call of `parseEvents` after a `read` of these records, whatever the rest of the
buffer holds. -/
def parseRecords (now : ℕ) (monitor : FolderMonitor) (records : List InotifyRecord)
    (rest : List UInt8) : Parsing :=
  let bytes := records.flatMap InotifyRecord.bytes
  Parsing.parseEvents now (bytes ++ rest) bytes.length 0 { monitor := monitor }

/-- The loop handles the records, each once and in order, reads only their bytes, and takes
`path` of each as its path. -/
structure DecodedAs (path : InotifyRecord → List UInt8) (now : ℕ) (monitor : FolderMonitor)
    (records : List InotifyRecord) (rest : List UInt8) : Prop where
  rounds : (parseRecords now monitor records rest).rounds =
    records.map (InotifyRecord.round path)
  inside : ∀ access ∈ (parseRecords now monitor records rest).accesses,
    access.1 + access.2 ≤ (records.flatMap InotifyRecord.bytes).length
  monitor : (parseRecords now monitor records rest).monitor = monitor.parseEvents now
    (records.map fun record => ⟨eventMask record.mask, chars (path record)⟩)

/-- The path of a record is its name with the null characters. -/
theorem decodedAs_paddedName (now : ℕ) (monitor : FolderMonitor) (records : List InotifyRecord)
    (rest : List UInt8) :
    DecodedAs InotifyRecord.paddedName now monitor records rest := by
  have hwalk := Parsing.parseEvents_records now records [] rest { monitor := monitor }
  simp only [List.nil_append, List.length_nil, Nat.zero_add] at hwalk
  refine ⟨hwalk.rounds.trans (List.nil_append _), ?_, hwalk.monitor⟩
  exact hwalk.inside fun _ h => (by cases h)

/-- Only a name without padding is what stands in the buffer. -/
theorem InotifyRecord.paddedName_eq_name_iff (record : InotifyRecord) :
    record.paddedName = record.name ↔ record.padding = 0 := by
  rw [paddedName, List.append_right_eq_self, List.replicate_eq_nil_iff]

/-- **The names of inotify events.**  The loop handles the records in the buffer one after
the other and within their bytes, with the null characters behind a name as a part of the
path.  The paths are the names if and only if no record that is handled has any: then none
has a name. -/
theorem decoded_iff (now : ℕ) (monitor : FolderMonitor) (records : List InotifyRecord)
    (rest : List UInt8) :
    DecodedAs InotifyRecord.paddedName now monitor records rest ∧
      (DecodedAs InotifyRecord.name now monitor records rest ↔
        ∀ record ∈ records, record.mask &&& inIgnored = 0 → record.padding = 0) := by
  have hpadded := decodedAs_paddedName now monitor records rest
  refine ⟨hpadded, fun h record hrecord hignored => ?_, fun h => ?_⟩
  · -- the rounds of both readings are the same, so the paths are
    have hrounds := hpadded.rounds.symm.trans h.rounds
    have hround := List.map_inj_left.1 hrounds record hrecord
    rw [InotifyRecord.round, InotifyRecord.round, ParseRound.mk.injEq,
      if_neg (not_not.2 hignored), if_neg (not_not.2 hignored), Option.some_inj] at hround
    exact record.paddedName_eq_name_iff.1 hround.2
  · have hname : ∀ record ∈ records, record.mask &&& inIgnored = 0 →
        record.paddedName = record.name := fun record hrecord hignored =>
      record.paddedName_eq_name_iff.2 (h record hrecord hignored)
    refine ⟨hpadded.rounds.trans (List.map_congr_left fun record hrecord => ?_),
      hpadded.inside, hpadded.monitor.trans ?_⟩
    · rw [InotifyRecord.round, InotifyRecord.round]
      by_cases hignored : record.mask &&& inIgnored = 0
      · rw [hname record hrecord hignored]
      · rw [if_pos hignored, if_pos hignored]
    · rw [FolderMonitor.parseEvents, FolderMonitor.parseEvents, List.foldl_map, List.foldl_map]
      refine List.foldl_ext _ _ _ fun monitor record hrecord => ?_
      by_cases hignored : record.mask &&& inIgnored = 0
      · rw [hname record hrecord hignored]
      · have hmask : eventMask record.mask = .inIgnored := if_pos hignored
        rw [hmask]
        rfl

/-- A file with the name `a` is created. -/
def createdA : InotifyRecord where
  wd := 1
  mask := inCreate
  cookie := 0
  name := [97]
  padding := 15
  noNul := by decide
  terminated := by decide
  fits := by decide

/-- Its path has fifteen characters more than its name. -/
theorem not_decoded_name : ¬∀ now monitor records rest,
    DecodedAs InotifyRecord.name now monitor records rest := by
  intro h
  have hpadded := decodedAs_paddedName 0 (FolderMonitor.create 3) [createdA] []
  have hrounds := hpadded.rounds.symm.trans (h 0 (FolderMonitor.create 3) [createdA] []).rounds
  revert hrounds
  decide

end NewCPP.Deployment
