import Mathlib.Data.List.Induction
import NewCPP.V4LFrameCodec

/-!
# The recorder and its two files

`DatFileWriter` writes frames to a data file and, next to it, an index file of
16-byte records: the frame's timestamp and the offset in the data file at which it
begins.

## Design notes

**Streams.**  An `std::ofstream` is what it has put on disk and what it still
buffers; closing it writes the rest.  Opening and writing succeed.

**Machine integers.**  `timestamp` is an `unsigned long`, `mRawDataStreamSize` a
`std::streamsize`; both are 64-bit and stored as the bytes of the object, least
significant first (`objectBytes`).

**Offsets.**  A session is a writer from its construction to its destruction.  The
offset a record should hold is not in the program's state: `Disk.begins` records, next
to the files, where each frame of the data file begins.  Nothing the code does reads it.

The result of the module is `index_consistent_iff`: the offset counter lives in the
writer and starts at zero, so the index is right exactly when at most one session
since the last truncation saved anything (and the counter did not wrap).
-/

namespace NewCPP

open Library ConverterUtils

/-! ## Objects in memory -/

/-- The bytes of a 64-bit object in memory. -/
def objectBytes (value : UInt64) : List CChar :=
  (bytes64 value).reverse

/-- The 64-bit object with these bytes. -/
def objectValue (cells : List CChar) : UInt64 :=
  word64 cells.reverse

@[simp] theorem length_objectBytes (value : UInt64) : (objectBytes value).length = 8 := by
  rw [objectBytes, List.length_reverse, length_bytes64]

/-- The bytes of an object give its value back. -/
@[simp] theorem objectValue_objectBytes (value : UInt64) :
    objectValue (objectBytes value) = value := by
  rw [objectValue, objectBytes, List.reverse_reverse, word64_bytes64]

/-! ## The writer -/

/-- `std::ofstream`. -/
structure OFStream where
  disk : List CChar := []
  buffered : List CChar := []
  deriving DecidableEq, Repr

namespace OFStream

/-- `std::ofstream::write`: the bytes stay in the buffer of the stream. -/
def write (s : OFStream) (bs : List CChar) : OFStream :=
  { s with buffered := s.buffered ++ bs }

/-- The buffer goes to the disk. -/
def flush (s : OFStream) : OFStream :=
  { disk := s.disk ++ s.buffered }

/-- What the file holds once the stream is closed. -/
def contents (s : OFStream) : List CChar :=
  s.disk ++ s.buffered

/-- What was written is in the file, or will be. -/
@[simp] theorem contents_write (s : OFStream) (bs : List CChar) :
    (s.write bs).contents = s.contents ++ bs :=
  (List.append_assoc _ _ _).symm

/-- A flush moves bytes and changes nothing. -/
@[simp] theorem contents_flush (s : OFStream) : s.flush.contents = s.contents :=
  List.append_nil _

end OFStream

/-- `DatFileWriter::WritingStrategy`. -/
inductive WritingStrategy
  | append
  | truncate
  deriving DecidableEq, Repr

/-- After so many writes both streams are flushed. -/
def framesCountToFlush : ℕ := 10

/-- The members of the class. -/
structure DatFileWriter where
  mRawDataStream : OFStream := {}
  mIndiciesStream : OFStream := {}
  mRawDataStreamSize : Int64 := 0
  mFramesWritten : ℕ := 0
  mFilesOpened : Bool := false
  mStrategy : WritingStrategy := .append
  deriving DecidableEq, Repr

namespace DatFileWriter

/-- `open` of a file with the given content. -/
def openStream (strategy : WritingStrategy) (content : List CChar) : OFStream :=
  match strategy with
  | .append => { disk := content }
  | .truncate => {}

/-- `OpenFiles`: both files, by the strategy; once open they stay so. -/
def openFiles (writer : DatFileWriter) (raw idx : List CChar) : Bool × DatFileWriter :=
  if writer.mFilesOpened then (true, writer)
  else
    (true,
      { writer with
        mRawDataStream := openStream writer.mStrategy raw
        mIndiciesStream := openStream writer.mStrategy idx
        mFilesOpened := true })

/-- `mRawDataStreamSize += frameSize` adds a `uint64_t` to a signed counter. -/
def saveMetaData (writer : DatFileWriter) (timestamp frameSize : UInt64) : DatFileWriter :=
  if writer.mFilesOpened then
    let mIndiciesStream := writer.mIndiciesStream.write (objectBytes timestamp)
    let mIndiciesStream :=
      mIndiciesStream.write (objectBytes writer.mRawDataStreamSize.toUInt64)
    { writer with
      mIndiciesStream := mIndiciesStream
      mRawDataStreamSize := writer.mRawDataStreamSize + frameSize.toInt64 }
  else writer

/-- `Write`: the bytes go to the data file, and each tenth write flushes both. -/
def write (writer : DatFileWriter) (data : List CChar) : ℤ × DatFileWriter :=
  if writer.mFilesOpened then
    let mRawDataStream := writer.mRawDataStream.write data
    let mFramesWritten := (writer.mFramesWritten + 1) % 2 ^ 16
    (toInt data.length,
      if mFramesWritten = framesCountToFlush then
        { writer with
          mRawDataStream := mRawDataStream.flush
          mIndiciesStream := writer.mIndiciesStream.flush
          mFramesWritten := 0 }
      else { writer with mRawDataStream := mRawDataStream, mFramesWritten := mFramesWritten })
  else (-1, writer)

/-- The writer as the `IWriteStream` it is. -/
def stream : IWriteStream DatFileWriter :=
  ⟨write⟩

/-! ### What each call does to the files -/

section Calls

variable {writer : DatFileWriter}

/-- Writing does not close the files. -/
@[simp] theorem write_mFilesOpened (data : List CChar) :
    (writer.write data).2.mFilesOpened = writer.mFilesOpened := by
  unfold write
  split
  · dsimp only
    split <;> rfl
  · rfl

/-- The size of the data file is counted elsewhere. -/
@[simp] theorem write_mRawDataStreamSize (data : List CChar) :
    (writer.write data).2.mRawDataStreamSize = writer.mRawDataStreamSize := by
  unfold write
  split
  · dsimp only
    split <;> rfl
  · rfl

/-- Flushing aside, a write appends to the data file only. -/
theorem write_contents (hopen : writer.mFilesOpened = true) (data : List CChar) :
    (writer.write data).2.mRawDataStream.contents = writer.mRawDataStream.contents ++ data ∧
      (writer.write data).2.mIndiciesStream.contents = writer.mIndiciesStream.contents := by
  unfold write
  rw [if_pos hopen]
  dsimp only
  split
  · exact ⟨by rw [OFStream.contents_flush, OFStream.contents_write],
      OFStream.contents_flush _⟩
  · exact ⟨OFStream.contents_write _ _, rfl⟩

end Calls

end DatFileWriter

/-! ## Sessions -/

/-- `updateFrame` stores inside the header.  A frame that was never named nor
deserialized has no header and cannot be serialized. -/
structure V4LFrame.HasHeader (frame : V4LFrame) : Prop where
  fixed : converter.frameHeaderLength ≤ frame.mHeader.length
  video : frame.mVideoOffset + converter.offsetVideoColorFormat < frame.mHeader.length

/-- A frame to save, with the timestamp to index it by. -/
structure Saved where
  timestamp : UInt64
  frame : V4LFrame
  hasHeader : frame.HasHeader

theorem Saved.frameSize_pos (saved : Saved) : 0 < saved.frame.frameSize := by
  have h := saved.hasHeader.fixed
  rw [converter.frameHeaderLength] at h
  rw [V4LFrame.frameSize]
  omega

/-- A writer's life: its strategy and what it saves. -/
structure Session where
  strategy : WritingStrategy
  saved : List Saved

/-- The session saves a frame. -/
def Session.saves (session : Session) : Bool :=
  !session.saved.isEmpty

/-- The two files, and where the frames of the data file begin. -/
structure Disk where
  raw : List CChar := []
  idx : List CChar := []
  begins : List ℕ := []
  deriving DecidableEq, Repr

/-- A writer at work, with the frame positions of its data file. -/
structure Recording where
  writer : DatFileWriter
  begins : List ℕ

namespace Recording

/-- A new writer on the two files, opened. -/
def start (strategy : WritingStrategy) (disk : Disk) : Recording where
  writer := (DatFileWriter.openFiles { mStrategy := strategy } disk.raw disk.idx).2
  begins :=
    match strategy with
    | .append => disk.begins
    | .truncate => []

/-- `SaveMetaData(timestamp, frame.frameSize())` and `frame.SerializeTo(writer)`. -/
def save (recording : Recording) (saved : Saved) : Recording :=
  let writer := recording.writer.saveMetaData saved.timestamp
    (UInt64.ofNat saved.frame.frameSize)
  { writer := (saved.frame.serializeTo DatFileWriter.stream writer).2.2
    begins := recording.begins ++ [writer.mRawDataStream.contents.length] }

/-- The destructor closes both streams. -/
def close (recording : Recording) : Disk where
  raw := recording.writer.mRawDataStream.contents
  idx := recording.writer.mIndiciesStream.contents
  begins := recording.begins

end Recording

/-- A writer from its construction to its destruction. -/
def Session.run (disk : Disk) (session : Session) : Disk :=
  (session.saved.foldl Recording.save (Recording.start session.strategy disk)).close

/-- Sessions one after another, on files that do not exist before. -/
def runSessions (sessions : List Session) : Disk :=
  sessions.foldl Session.run {}

/-- The offset in the `i`-th record of an index file. -/
def recordOffset (idx : List CChar) (i : ℕ) : ℤ :=
  (objectValue (Buffer.window idx (16 * i + 8) 8)).toInt64.toInt

/-- Every record holds the offset at which its frame begins. -/
def IndexConsistent (disk : Disk) : Prop :=
  disk.idx.length = 16 * disk.begins.length ∧
    ∀ i < disk.begins.length, recordOffset disk.idx i = disk.begins.getD i 0

instance (disk : Disk) : Decidable (IndexConsistent disk) :=
  inferInstanceAs (Decidable (_ ∧ _))

/-- The sessions whose files the last one left: from the last `Truncate` on. -/
def sinceTruncate (sessions : List Session) : List Session :=
  sessions.foldl (fun kept session =>
    match session.strategy with
    | .append => kept ++ [session]
    | .truncate => [session]) []

/-! ## The index file as a list of entries -/

/-- Timestamp and offset, as they lie in the index file. -/
def recordBytes (entry : UInt64 × Int64) : List CChar :=
  objectBytes entry.1 ++ objectBytes entry.2.toUInt64

/-- A record has sixteen bytes. -/
@[simp] theorem length_recordBytes (entry : UInt64 × Int64) :
    (recordBytes entry).length = 16 := by
  rw [recordBytes, List.length_append, length_objectBytes, length_objectBytes]

/-- The index file with these entries. -/
def idxBytes (entries : List (UInt64 × Int64)) : List CChar :=
  (entries.map recordBytes).flatten

@[simp] theorem idxBytes_cons (entry : UInt64 × Int64) (entries : List (UInt64 × Int64)) :
    idxBytes (entry :: entries) = recordBytes entry ++ idxBytes entries := by
  rw [idxBytes, List.map_cons, List.flatten_cons, idxBytes]

/-- The records of an index file stand one behind the other. -/
theorem idxBytes_append (es es' : List (UInt64 × Int64)) :
    idxBytes (es ++ es') = idxBytes es ++ idxBytes es' := by
  rw [idxBytes, List.map_append, List.flatten_append, idxBytes, idxBytes]

theorem length_idxBytes (entries : List (UInt64 × Int64)) :
    (idxBytes entries).length = 16 * entries.length := by
  induction entries with
  | nil => rfl
  | cons entry entries ih =>
      rw [idxBytes_cons, List.length_append, length_recordBytes, ih, List.length_cons]
      omega

/-- So the records behind the first `i` begin at `16 * i`. -/
theorem drop_idxBytes (entries : List (UInt64 × Int64)) :
    ∀ i, (idxBytes entries).drop (16 * i) = idxBytes (entries.drop i) := by
  induction entries with
  | nil =>
      intro i
      rw [List.drop_nil, idxBytes, List.map_nil, List.flatten_nil, List.drop_nil]
  | cons entry entries ih =>
      intro i
      cases i with
      | zero => rfl
      | succ i =>
          have hsplit : 16 * (i + 1) = 16 + 16 * i := by omega
          rw [idxBytes_cons, hsplit, ← List.drop_drop,
            List.drop_left' (length_recordBytes entry), ih, List.drop_succ_cons]

/-- The position in the `i`-th record. -/
theorem recordOffset_idxBytes {entries : List (UInt64 × Int64)} {i : ℕ}
    (h : i < entries.length) :
    recordOffset (idxBytes entries) i = (entries[i]).2.toInt := by
  have hwindow : Buffer.window (idxBytes entries) (16 * i + 8) 8 =
      objectBytes (entries[i]).2.toUInt64 := by
    rw [Buffer.window, ← List.drop_drop, drop_idxBytes, List.drop_eq_getElem_cons h,
      idxBytes_cons, recordBytes, List.append_assoc,
      List.drop_left' (length_objectBytes _), List.take_left' (length_objectBytes _)]
  rw [recordOffset, hwindow, objectValue_objectBytes, Int64.toInt64_toUInt64]

/-- The index is right when its offsets are the positions, entry by entry. -/
theorem indexConsistent_iff_map {disk : Disk} {entries : List (UInt64 × Int64)}
    (hidx : disk.idx = idxBytes entries) :
    IndexConsistent disk ↔
      entries.map (fun entry => entry.2.toInt) =
        disk.begins.map fun position : ℕ => (position : ℤ) := by
  rw [IndexConsistent, hidx, length_idxBytes]
  constructor
  · rintro ⟨hlen, hall⟩
    apply List.ext_getElem
    · rw [List.length_map, List.length_map]
      omega
    · intro i h₁ h₂
      rw [List.length_map] at h₁ h₂
      have h := hall i h₂
      rw [recordOffset_idxBytes h₁, List.getD_eq_getElem _ _ h₂] at h
      rw [List.getElem_map, List.getElem_map, h]
  · intro hmap
    have hlen := congrArg List.length hmap
    rw [List.length_map, List.length_map] at hlen
    refine ⟨by omega, fun i hi => ?_⟩
    have h := congrArg (fun offsets => offsets[i]?) hmap
    simp only [List.getElem?_map, List.getElem?_eq_getElem hi,
      List.getElem?_eq_getElem (hlen ▸ hi), Option.map_some, Option.some.injEq] at h
    rw [recordOffset_idxBytes (hlen ▸ hi), List.getD_eq_getElem _ _ hi, h]

/-! ## One session -/

/-- Where frames begin that are laid one behind the other from `start` on. -/
def positions (start : ℕ) : List Saved → List ℕ
  | [] => []
  | saved :: rest => start :: positions (start + saved.frame.frameSize) rest

/-- The entries of a writer whose counter stands at `count`. -/
def indexEntries (count : ℕ) : List Saved → List (UInt64 × Int64)
  | [] => []
  | saved :: rest =>
      (saved.timestamp, Int64.ofNat count) ::
        indexEntries (count + saved.frame.frameSize) rest

/-- Every frame has its position. -/
theorem length_positions (start : ℕ) (saved : List Saved) :
    (positions start saved).length = saved.length := by
  induction saved generalizing start with
  | nil => rfl
  | cons saved rest ih => rw [positions, List.length_cons, ih, List.length_cons]

/-- Every frame has its entry. -/
theorem length_indexEntries (count : ℕ) (saved : List Saved) :
    (indexEntries count saved).length = saved.length := by
  induction saved generalizing count with
  | nil => rfl
  | cons saved rest ih => rw [indexEntries, List.length_cons, ih, List.length_cons]

/-- The bytes a session appends to the data file. -/
def rawBytes (saved : List Saved) : List CChar :=
  (saved.map fun s => V4LFrame.encoded s.frame).flatten

/-- The frames of a data file stand one behind the other. -/
theorem rawBytes_cons (saved : Saved) (rest : List Saved) :
    rawBytes (saved :: rest) = V4LFrame.encoded saved.frame ++ rawBytes rest := by
  rw [rawBytes, List.map_cons, List.flatten_cons, rawBytes]

theorem length_rawBytes_cons (saved : Saved) (rest : List Saved) :
    (rawBytes (saved :: rest)).length = saved.frame.frameSize + (rawBytes rest).length := by
  rw [rawBytes_cons, List.length_append, V4LFrame.length_encoded]

/-- What saving one frame adds to both files, while the counters stay in step. -/
theorem Recording.save_spec {recording : Recording} (saved : Saved) {count : ℕ}
    (hopen : recording.writer.mFilesOpened = true)
    (hcount : recording.writer.mRawDataStreamSize = Int64.ofNat count) :
    (recording.save saved).writer.mFilesOpened = true ∧
      (recording.save saved).writer.mRawDataStreamSize =
        Int64.ofNat (count + saved.frame.frameSize) ∧
      (recording.save saved).writer.mRawDataStream.contents =
        recording.writer.mRawDataStream.contents ++ V4LFrame.encoded saved.frame ∧
      (recording.save saved).writer.mIndiciesStream.contents =
        recording.writer.mIndiciesStream.contents ++
          recordBytes (saved.timestamp, Int64.ofNat count) ∧
      (recording.save saved).begins =
        recording.begins ++ [recording.writer.mRawDataStream.contents.length] := by
  -- the writer between `SaveMetaData` and `SerializeTo`
  obtain ⟨writer, hwriter⟩ : ∃ writer, writer =
      recording.writer.saveMetaData saved.timestamp (UInt64.ofNat saved.frame.frameSize) :=
    ⟨_, rfl⟩
  have hmeta := hwriter
  rw [DatFileWriter.saveMetaData, if_pos hopen] at hmeta
  have hopen₁ : writer.mFilesOpened = true := by
    rw [hmeta]
    exact hopen
  have hraw : writer.mRawDataStream = recording.writer.mRawDataStream := by
    rw [hmeta]
  have hidx : writer.mIndiciesStream.contents =
      recording.writer.mIndiciesStream.contents ++
        recordBytes (saved.timestamp, Int64.ofNat count) := by
    rw [hmeta]
    dsimp only
    rw [OFStream.contents_write, OFStream.contents_write, hcount, List.append_assoc,
      recordBytes]
  have hsize : writer.mRawDataStreamSize = Int64.ofNat (count + saved.frame.frameSize) := by
    rw [hmeta, Int64.ofNat_add, ← hcount]
    rfl
  -- `SerializeTo` writes the header, then the payload
  obtain ⟨header, hheader⟩ : ∃ header, header =
      (writer.write saved.frame.updateFrame.mHeader).2 := ⟨_, rfl⟩
  have hopen₂ : header.mFilesOpened = true := by
    rw [hheader, DatFileWriter.write_mFilesOpened, hopen₁]
  obtain ⟨hraw₁, hidx₁⟩ :=
    DatFileWriter.write_contents hopen₁ saved.frame.updateFrame.mHeader
  obtain ⟨hraw₂, hidx₂⟩ := DatFileWriter.write_contents hopen₂ saved.frame.mDataContainer
  rw [← hheader] at hraw₁ hidx₁
  have hdata : saved.frame.updateFrame.mDataContainer = saved.frame.mDataContainer := by
    rw [V4LFrame.updateFrame]
  have hsave : recording.save saved =
      { writer := (header.write saved.frame.mDataContainer).2
        begins := recording.begins ++ [recording.writer.mRawDataStream.contents.length] } := by
    rw [Recording.save, ← hwriter, V4LFrame.serializeTo, hdata, hraw, hheader]
    rfl
  rw [hsave]
  refine ⟨?_, ?_, ?_, ?_, rfl⟩
  · exact (DatFileWriter.write_mFilesOpened _).trans hopen₂
  · exact (DatFileWriter.write_mRawDataStreamSize _).trans
      (by rw [hheader, DatFileWriter.write_mRawDataStreamSize, hsize])
  · rw [hraw₂, hraw₁, hraw, V4LFrame.encoded, List.append_assoc]
  · rw [hidx₂, hidx₁, hidx]

/-- A whole session: the frames go behind what is there, the entries count from the
writer's own zero. -/
theorem Recording.foldl_save (saved : List Saved) :
    ∀ (recording : Recording) (count : ℕ), recording.writer.mFilesOpened = true →
      recording.writer.mRawDataStreamSize = Int64.ofNat count →
      (saved.foldl Recording.save recording).close =
        { raw := recording.writer.mRawDataStream.contents ++ rawBytes saved
          idx := recording.writer.mIndiciesStream.contents ++
            idxBytes (indexEntries count saved)
          begins := recording.begins ++
            positions recording.writer.mRawDataStream.contents.length saved } := by
  induction saved with
  | nil =>
      intro recording count _ _
      simp only [List.foldl_nil, Recording.close, rawBytes, idxBytes, indexEntries, positions,
        List.map_nil, List.flatten_nil, List.append_nil]
  | cons saved rest ih =>
      intro recording count hopen hcount
      obtain ⟨hopen', hcount', hraw, hidx, hbegins⟩ :=
        Recording.save_spec saved hopen hcount
      rw [List.foldl_cons, ih _ _ hopen' hcount', hraw, hidx, hbegins, rawBytes_cons, indexEntries,
        positions, idxBytes_cons, List.length_append, V4LFrame.length_encoded]
      simp only [List.append_assoc, List.singleton_append]

/-- The disk a session starts from. -/
def Session.base (disk : Disk) (session : Session) : Disk :=
  match session.strategy with
  | .append => disk
  | .truncate => {}

theorem Session.run_eq (disk : Disk) (session : Session) :
    session.run disk =
      { raw := (session.base disk).raw ++ rawBytes session.saved
        idx := (session.base disk).idx ++ idxBytes (indexEntries 0 session.saved)
        begins := (session.base disk).begins ++
          positions (session.base disk).raw.length session.saved } := by
  obtain ⟨strategy, saved⟩ := session
  have hrun := Recording.foldl_save saved (Recording.start strategy disk) 0 rfl rfl
  rw [Session.run, hrun]
  cases strategy with
  | append =>
      simp only [Recording.start, DatFileWriter.openFiles, DatFileWriter.openStream,
        Session.base, OFStream.contents, List.append_nil, Bool.false_eq_true, if_false]
  | truncate =>
      simp only [Recording.start, DatFileWriter.openFiles, DatFileWriter.openStream,
        Session.base, OFStream.contents, List.append_nil, Bool.false_eq_true, if_false]

/-! ## What the sessions leave -/

theorem rawBytes_append (saved saved' : List Saved) :
    rawBytes (saved ++ saved') = rawBytes saved ++ rawBytes saved' := by
  rw [rawBytes, List.map_append, List.flatten_append, rawBytes, rawBytes]

theorem positions_append (saved saved' : List Saved) :
    ∀ start, positions start (saved ++ saved') =
      positions start saved ++ positions (start + (rawBytes saved).length) saved' := by
  induction saved with
  | nil => exact fun _ => rfl
  | cons head rest ih =>
      intro start
      rw [List.cons_append, positions, ih, positions, List.cons_append, length_rawBytes_cons,
        Nat.add_assoc]

/-- The frames that these sessions save, in order. -/
def savedFrames (sessions : List Session) : List Saved :=
  sessions.flatMap Session.saved

/-- The entries that these sessions write, each counting from zero. -/
def savedEntries (sessions : List Session) : List (UInt64 × Int64) :=
  sessions.flatMap fun session => indexEntries 0 session.saved

/-- What a list of sessions leaves, none of which but the first truncates. -/
def leftBy (sessions : List Session) : Disk where
  raw := rawBytes (savedFrames sessions)
  idx := idxBytes (savedEntries sessions)
  begins := positions 0 (savedFrames sessions)

theorem sinceTruncate_concat (sessions : List Session) (session : Session) :
    sinceTruncate (sessions ++ [session]) =
      match session.strategy with
      | .append => sinceTruncate sessions ++ [session]
      | .truncate => [session] := by
  rw [sinceTruncate, List.foldl_append, List.foldl_cons, List.foldl_nil, sinceTruncate]

theorem leftBy_concat (sessions : List Session) (session : Session) :
    leftBy (sessions ++ [session]) =
      { raw := (leftBy sessions).raw ++ rawBytes session.saved
        idx := (leftBy sessions).idx ++ idxBytes (indexEntries 0 session.saved)
        begins := (leftBy sessions).begins ++
          positions (leftBy sessions).raw.length session.saved } := by
  simp only [leftBy, savedFrames, savedEntries, List.flatMap_append, List.flatMap_cons,
    List.flatMap_nil, List.append_nil, rawBytes_append, idxBytes_append, positions_append,
    Nat.zero_add]

/-- **The files after any sequence of sessions.** -/
theorem runSessions_eq (sessions : List Session) :
    runSessions sessions = leftBy (sinceTruncate sessions) := by
  induction sessions using List.reverseRecOn with
  | nil => rfl
  | append_singleton sessions session ih =>
      have hrun : runSessions (sessions ++ [session]) =
          session.run (runSessions sessions) := by
        rw [runSessions, List.foldl_append, List.foldl_cons, List.foldl_nil, runSessions]
      obtain ⟨strategy, saved⟩ := session
      rw [hrun, Session.run_eq, sinceTruncate_concat, ih]
      cases strategy with
      | append => rw [leftBy_concat, Session.base]
      | truncate =>
          have h := leftBy_concat [] ⟨.truncate, saved⟩
          rw [List.nil_append] at h
          rw [h]
          rfl

/-! ## When the index is right -/

/-- A counter that counts positions is right as long as it does not wrap. -/
theorem indexEntries_eq_positions_iff (saved : List Saved) :
    ∀ start, (indexEntries start saved).map (fun entry => entry.2.toInt) =
        (positions start saved).map (fun position : ℕ => (position : ℤ)) ↔
      ∀ position ∈ positions start saved, position < 2 ^ 63 := by
  have hcell (position : ℕ) :
      (Int64.ofNat position).toInt = position ↔ position < 2 ^ 63 := by
    constructor
    · intro h
      have := (Int64.ofNat position).toInt_lt
      omega
    · exact Int64.toInt_ofNat_of_lt
  induction saved with
  | nil => exact fun _ => ⟨fun _ _ h => absurd h List.not_mem_nil, fun _ => rfl⟩
  | cons head rest ih =>
      intro start
      rw [indexEntries, positions, List.map_cons, List.map_cons, List.cons.injEq,
        List.forall_mem_cons, hcell, ih]

theorem rawBytes_eq_nil_iff (saved : List Saved) :
    (rawBytes saved).length = 0 ↔ saved = [] := by
  constructor
  · intro h
    cases saved with
    | nil => rfl
    | cons saved rest =>
        have := saved.frameSize_pos
        rw [length_rawBytes_cons] at h
        omega
  · rintro rfl
    rfl

/-- A session that starts behind existing frames gets its first offset wrong. -/
theorem indexEntries_ne_positions {saved : List Saved} (hsaved : saved ≠ []) {start : ℕ}
    (hstart : start ≠ 0) :
    (indexEntries 0 saved).map (fun entry => entry.2.toInt) ≠
      (positions start saved).map (fun position : ℕ => (position : ℤ)) := by
  obtain ⟨head, rest, rfl⟩ := List.exists_cons_of_ne_nil hsaved
  intro h
  rw [indexEntries, positions, List.map_cons, List.map_cons, List.cons.injEq] at h
  have hfirst : ((0 : ℕ) : ℤ) = start := by
    rw [← h.1, Int64.toInt_ofNat_of_lt (by omega)]
  omega

/-- The offsets of several sessions, laid behind `start` bytes. -/
theorem savedEntries_eq_positions_iff (sessions : List Session) :
    ∀ start, (savedEntries sessions).map (fun entry => entry.2.toInt) =
        (positions start (savedFrames sessions)).map (fun position : ℕ => (position : ℤ)) ↔
      ((sessions.filter Session.saves).length ≤ if start = 0 then 1 else 0) ∧
        ∀ position ∈ positions start (savedFrames sessions), position < 2 ^ 63 := by
  induction sessions with
  | nil =>
      exact fun _ => ⟨fun _ => ⟨Nat.zero_le _, fun _ h => absurd h List.not_mem_nil⟩,
        fun _ => rfl⟩
  | cons session rest ih =>
      intro start
      obtain ⟨strategy, saved⟩ := session
      by_cases hsaved : saved = []
      · rw [hsaved]
        exact ih start
      · have hsaves : Session.saves ⟨strategy, saved⟩ = true := by
          rw [Session.saves, Bool.not_eq_true', List.isEmpty_eq_false_iff]
          exact hsaved
        have hpos : (rawBytes saved).length ≠ 0 := mt (rawBytes_eq_nil_iff saved).mp hsaved
        have hframes : savedFrames (⟨strategy, saved⟩ :: rest) =
            saved ++ savedFrames rest := List.flatMap_cons
        have hentries : savedEntries (⟨strategy, saved⟩ :: rest) =
            indexEntries 0 saved ++ savedEntries rest := List.flatMap_cons
        have hsplit (a b c d : List ℤ) (hlen : a.length = c.length) :
            a ++ b = c ++ d ↔ a = c ∧ b = d :=
          ⟨fun h => List.append_inj h hlen, fun h => by rw [h.1, h.2]⟩
        rw [hframes, hentries, positions_append, List.map_append, List.map_append,
          hsplit _ _ _ _ (by rw [List.length_map, List.length_map, length_indexEntries,
            length_positions]), ih, if_neg (by omega), List.filter_cons_of_pos hsaves,
          List.length_cons, List.forall_mem_append]
        by_cases hstart : start = 0
        · rw [hstart, if_pos rfl, indexEntries_eq_positions_iff]
          constructor
          · rintro ⟨hfirst, hcount, hrest⟩
            exact ⟨by omega, hfirst, hrest⟩
          · rintro ⟨hcount, hfirst, hrest⟩
            exact ⟨hfirst, by omega, hrest⟩
        · rw [if_neg hstart]
          constructor
          · rintro ⟨hfirst, -⟩
            exact absurd hfirst (indexEntries_ne_positions hsaved hstart)
          · rintro ⟨hcount, -⟩
            omega

/-- The number of sessions that left frames in the files. -/
def savingSessions (sessions : List Session) : ℕ :=
  ((sinceTruncate sessions).filter Session.saves).length

/-- **When the index is right.**  After any sequence of sessions on the two files every
record holds the offset of its frame exactly when at most one session since the last
`Truncate` saved a frame and every frame begins at an offset that a `std::streamsize` can
hold. -/
theorem index_consistent_iff (sessions : List Session) :
    IndexConsistent (runSessions sessions) ↔
      savingSessions sessions ≤ 1 ∧
        ∀ position ∈ positions 0 (savedFrames (sinceTruncate sessions)), position < 2 ^ 63 := by
  have hidx : (leftBy (sinceTruncate sessions)).idx =
      idxBytes (savedEntries (sinceTruncate sessions)) := rfl
  rw [runSessions_eq, indexConsistent_iff_map hidx]
  exact savedEntries_eq_positions_iff (sinceTruncate sessions) 0

/-- A named frame without payload. -/
def emptyFrame : Saved where
  timestamp := 1
  frame := V4LFrame.build [.name []]
  hasHeader := ⟨by decide, by decide⟩

/-- Two sessions that append a frame each: the second record says offset 0, its frame
begins at 44. -/
theorem index_inconsistent :
    ¬IndexConsistent (runSessions [⟨.append, [emptyFrame]⟩, ⟨.append, [emptyFrame]⟩]) := by
  decide

end NewCPP
