import NewCPP.Converter
import NewCPP.Library.Source

/-!
# The V4L frame and its codec

`V4LFrame` as the source has it: the setters, the encoder `SerializeTo`, the blocking
decoder `DeserializeFrom` and the resumable decoder `AsyncDeserializeFrom`, over the
stream interfaces `IReadStream` and `IWriteStream`.

## Design notes

**Streams.**  `IReadStream::Read` returns an `int`.  A negative result is a refusal of
`Library.Source`; a result `k ≥ 0` comes with the `k` bytes stored at the start of the
caller's buffer.

**Machine integers.**  Header fields are `UInt32` and `UInt64`.  `size_t` values are
naturals; the two places where the source's arithmetic can leave the range,
`headerSize` and `dataSize`, carry their wrap-around.  `bytesRead` is a `uint32_t` and
wraps at `2 ^ 32`.

**What a run leaves behind.**  A decoder run is a `Decode`: the frame, the stream, the
way it ended and the log of what it did to `mHeader`.  The blocking decoder loops
until its bytes arrive, so it takes fuel, and `Outcome.spent` is a run still inside
such a loop.  A run that reads memory outside the header has no defined continuation
and ends in `Outcome.undefined`.

Both decoders contain the same statements for the two size fields and for the header
fields; these are `announcedFrameSize`, `announcedHeaderSize` and `parseFields`.
-/

namespace NewCPP

open Library

universe u

/-- `IReadStream`: `Read` into a buffer. -/
abbrev IReadStream (σ : Type u) := Source σ CChar

/-- `IWriteStream`: `Write` from a buffer, with its `int` result. -/
structure IWriteStream (τ : Type u) where
  write : τ → List CChar → ℤ × τ

/-- `static_cast<int>` of a `size_t`. -/
def toInt (size : ℕ) : ℤ := Int.bmod size (2 ^ 32)

/-- A writer that accepts every byte: it appends them and returns their number. -/
structure IWriteStream.Accepts {τ : Type u} (W : IWriteStream τ)
    (written : τ → List CChar) : Prop where
  result : ∀ t bs, (W.write t bs).1 = toInt bs.length
  appended : ∀ t bs, written (W.write t bs).2 = written t ++ bs

/-- The writer that keeps what it is given. -/
def IWriteStream.append : IWriteStream (List CChar) where
  write t bs := (toInt bs.length, t ++ bs)

theorem IWriteStream.append_accepts : IWriteStream.append.Accepts fun t => t where
  result _ _ := by rw [append]
  appended _ _ := by rw [append]

/-- `V4LFrame::State`. -/
inductive State
  | ifHeader
  | v4lHeader
  | v4lBody
  | deserialized
  deriving DecidableEq, Repr

/-- `V4LFrame`.  `mDataContainer` holds the bytes its pointer and size denote. -/
structure V4LFrame where
  mDataContainer : List CChar := []
  mTimestamp : UInt64 := 0
  mName : List CChar := []
  mInputWidth : UInt32 := 0
  mInputHeight : UInt32 := 0
  mBytesPerLine : UInt32 := 0
  mBitsPerPixel : UInt8 := 0
  mColorFormat : UInt8 := 0
  mHeader : List CChar := []
  mVideoOffset : ℕ := 0
  state : State := .ifHeader
  accumulated : ℕ := 0
  deriving DecidableEq, Repr

/-- `std::vector<char>::resize`. -/
def resize (cells : List CChar) (size : ℕ) : List CChar :=
  cells.take size ++ List.replicate (size - cells.length) 0

@[simp] theorem length_resize (cells : List CChar) (size : ℕ) :
    (resize cells size).length = size := by
  simp only [resize, List.length_append, List.length_take, List.length_replicate]
  omega

theorem take_resize {cells : List CChar} {size : ℕ} (h : cells.length ≤ size) :
    (resize cells size).take cells.length = cells := by
  rw [resize, List.take_of_length_le h, List.take_left]

namespace V4LFrame

/-! ## Setters -/

/-- Lay the header out for the current name.  `mHeader` is all zeros before the fixed
fields are stored. -/
def prepareHeader (frame : V4LFrame) : V4LFrame :=
  let nameLength := min frame.mName.length converter.maxNameLength
  let mVideoOffset := converter.frameHeaderLength + ConverterUtils.getPaddedSize nameLength
  let mHeader := List.replicate (mVideoOffset + converter.videoHeaderLength) 0
  let mHeader := ConverterUtils.setU32 mHeader converter.offsetHeaderSize
    (UInt32.ofNat mVideoOffset - 4)
  let mHeader := mHeader.set converter.offsetHeaderVersion converter.headerVersion.toInt8
  let mHeader :=
    mHeader.set converter.offsetHeaderSubversion converter.headerSubversion.toInt8
  let mHeader := mHeader.set converter.offsetNameLength (UInt8.ofNat nameLength).toInt8
  let mHeader := mHeader.set converter.offsetReserved1 0
  let mHeader :=
    ConverterUtils.setU32 mHeader converter.offsetMediaType converter.mediaTypeVideo
  let mHeader := ConverterUtils.setU32 mHeader converter.offsetMediaSubtype
    converter.mediaSubtypeVideoUncompressed
  let mHeader :=
    Buffer.blit mHeader converter.frameHeaderLength (frame.mName.take nameLength)
  { frame with mVideoOffset := mVideoOffset, mHeader := mHeader }

/-- The header is written when the frame is serialized, not here. -/
def setTimestamp (frame : V4LFrame) (timestamp : UInt64) : V4LFrame :=
  { frame with mTimestamp := timestamp }

/-- The container takes the place of the one before. -/
def setData (frame : V4LFrame) (data : List CChar) : V4LFrame :=
  { frame with mDataContainer := data }

/-- The only setter that lays the header out again. -/
def setName (frame : V4LFrame) (name : List CChar) : V4LFrame :=
  prepareHeader { frame with mName := name }

/-- A setter of the video header. -/
def setInputWidth (frame : V4LFrame) (width : UInt32) : V4LFrame :=
  { frame with mInputWidth := width }

/-- A setter of the video header. -/
def setInputHeight (frame : V4LFrame) (height : UInt32) : V4LFrame :=
  { frame with mInputHeight := height }

/-- A setter of the video header. -/
def setBytesPerLine (frame : V4LFrame) (bytesPerLine : UInt32) : V4LFrame :=
  { frame with mBytesPerLine := bytesPerLine }

/-- A setter of the video header. -/
def setBitsPerPixel (frame : V4LFrame) (bitsPerPixel : UInt8) : V4LFrame :=
  { frame with mBitsPerPixel := bitsPerPixel }

/-- A setter of the video header. -/
def setColorFormat (frame : V4LFrame) (colorFormat : UInt8) : V4LFrame :=
  { frame with mColorFormat := colorFormat }

/-- The bytes of the header and of the data. -/
def frameSize (frame : V4LFrame) : ℕ :=
  frame.mDataContainer.length + frame.mHeader.length

/-! ## Encoder -/

/-- Store the fields that may have changed since the header was laid out. -/
def updateFrame (frame : V4LFrame) : V4LFrame :=
  let frameSize := frame.mHeader.length + frame.mDataContainer.length
  let mHeader := ConverterUtils.setU32 frame.mHeader converter.offsetFrameSize
    (UInt32.ofNat frameSize)
  let mHeader := ConverterUtils.setU64 mHeader converter.offsetTimestamp frame.mTimestamp
  let mHeader := ConverterUtils.setU32 mHeader
    (frame.mVideoOffset + converter.offsetVideoWidth) frame.mInputWidth
  let mHeader := ConverterUtils.setU32 mHeader
    (frame.mVideoOffset + converter.offsetVideoHeight) frame.mInputHeight
  let mHeader := ConverterUtils.setU32 mHeader
    (frame.mVideoOffset + converter.offsetVideoBytesPerLine) frame.mBytesPerLine
  let mHeader := mHeader.set (frame.mVideoOffset + converter.offsetVideoBitsPerPixel)
    frame.mBitsPerPixel.toInt8
  let mHeader := mHeader.set (frame.mVideoOffset + converter.offsetVideoColorFormat)
    frame.mColorFormat.toInt8
  { frame with mHeader := mHeader }

/-- Header, then payload; true when the writer's results add up to their sizes. -/
def serializeTo {τ : Type u} (W : IWriteStream τ) (frame : V4LFrame) (writer : τ) :
    Bool × V4LFrame × τ :=
  let frame := frame.updateFrame
  let header := W.write writer frame.mHeader
  let data := W.write header.2 frame.mDataContainer
  (header.1 + data.1 == toInt (frame.mDataContainer.length + frame.mHeader.length),
    frame, data.2)

/-! ## What a decoder run is -/

/-- A statement of a decoder that depends on the size of `mHeader` or on the sizes
the header announces. -/
inductive HeaderAccess
  /-- `mHeader[i]` while `mHeader` has `size` cells -/
  | index (i size : ℕ)
  /-- the name range `[28, 28 + nameLength)` of a header of `size` cells -/
  | name (nameLength : ℤ) (size : ℕ)
  /-- the `size_t` subtraction `frameSize - headerSize` -/
  | payload (frameSize headerSize : ℕ)
  deriving DecidableEq, Repr

/-- The access stays inside the header; the subtraction does not wrap. -/
def HeaderAccess.InRange : HeaderAccess → Prop
  | index i size => i < size
  | name nameLength size =>
      0 ≤ nameLength ∧ converter.frameHeaderLength + nameLength ≤ size
  | payload frameSize headerSize => headerSize ≤ frameSize

instance (access : HeaderAccess) : Decidable access.InRange := by
  cases access <;> unfold HeaderAccess.InRange <;> infer_instance

/-- How a decoder run ends. -/
inductive Outcome
  | returned (result : Bool)
  /-- `new char[dataSize]` throws `std::bad_alloc` -/
  | threwBadAlloc
  /-- `mName.assign` throws `std::length_error` -/
  | threwLengthError
  /-- the frame is already deserialized -/
  | threwRuntimeError
  /-- memory outside the header was read -/
  | undefined
  /-- still inside a read loop when the fuel is spent -/
  | spent
  deriving DecidableEq, Repr

/-- A decoder run: its end, the frame and stream it leaves, and its header accesses. -/
structure Decode (σ : Type u) where
  outcome : Outcome
  frame : V4LFrame
  stream : σ
  accesses : List HeaderAccess

/-- Go on after a phase that returned true. -/
def Decode.andThen {σ : Type u} (run : Decode σ) (next : V4LFrame → σ → Decode σ) :
    Decode σ :=
  if run.outcome = .returned true then
    let rest := next run.frame run.stream
    { rest with accesses := run.accesses ++ rest.accesses }
  else run

/-! ## The statements both decoders share -/

/-- `getU32(mHeader, OFFSET_FRAME_SIZE)`. -/
def announcedFrameSize (mHeader : List CChar) : ℕ :=
  (ConverterUtils.getU32 mHeader converter.offsetFrameSize).toNat

/-- `getU32(mHeader, OFFSET_HEADER_SIZE) + 4 + VIDEO_HEADER_LENGTH`: the first sum is a
`uint32_t` and wraps, the second is a `size_t`. -/
def announcedHeaderSize (mHeader : List CChar) : ℕ :=
  (ConverterUtils.getU32 mHeader converter.offsetHeaderSize + 4).toNat
    + converter.videoHeaderLength

/-- `frameSize - headerSize` in `size_t`. -/
def sizeSub (frameSize headerSize : ℕ) : ℕ :=
  (frameSize + (2 ^ 64 - headerSize)) % 2 ^ 64

/-- `new char[dataSize]`: no implementation allocates more than `PTRDIFF_MAX` bytes.
The fresh cells are indeterminate and never read before a stream has filled them. -/
def newChar (dataSize : ℕ) : Option (List CChar) :=
  if dataSize < 2 ^ 63 then some (List.replicate dataSize 0) else none

/-- The cells of a `len`-byte field. -/
def fieldAccesses (offset len size : ℕ) : List HeaderAccess :=
  (List.range len).map fun i => .index (offset + i) size

/-- The size fields are read from a header of eight cells. -/
def sizeAccesses (mHeader : List CChar) : List HeaderAccess :=
  fieldAccesses converter.offsetFrameSize 4 mHeader.length
    ++ fieldAccesses converter.offsetHeaderSize 4 mHeader.length
    ++ [.payload (announcedFrameSize mHeader) (announcedHeaderSize mHeader)]

/-- From the size fields to the resized header: allocate the payload, locate the video
header from the end, make room for the rest of the header.  `mHeader` still has its
first eight cells only. -/
def parseSizes (frame : V4LFrame) : Option V4LFrame :=
  let frameSize := announcedFrameSize frame.mHeader
  let headerSize := announcedHeaderSize frame.mHeader
  (newChar (sizeSub frameSize headerSize)).map fun data =>
    { frame with
      mDataContainer := data
      mVideoOffset := headerSize - converter.videoHeaderLength
      mHeader := resize frame.mHeader headerSize }

/-- The name length as the decoders read it, a signed `char`. -/
def nameLength (mHeader : List CChar) : ℤ :=
  (mHeader.getD converter.offsetNameLength 0).toInt

/-- The field assignments, in the source's order. -/
def assignFields (frame : V4LFrame) : V4LFrame :=
  { frame with
    mTimestamp := ConverterUtils.getU64 frame.mHeader converter.offsetTimestamp
    mName := Buffer.window frame.mHeader converter.frameHeaderLength
      (nameLength frame.mHeader).toNat
    mInputWidth := ConverterUtils.getU32 frame.mHeader
      (frame.mVideoOffset + converter.offsetVideoWidth)
    mInputHeight := ConverterUtils.getU32 frame.mHeader
      (frame.mVideoOffset + converter.offsetVideoHeight)
    mBytesPerLine := ConverterUtils.getU32 frame.mHeader
      (frame.mVideoOffset + converter.offsetVideoBytesPerLine)
    mBitsPerPixel := (frame.mHeader.getD
      (frame.mVideoOffset + converter.offsetVideoBitsPerPixel) 0).toUInt8
    mColorFormat := (frame.mHeader.getD
      (frame.mVideoOffset + converter.offsetVideoColorFormat) 0).toUInt8 }

/-- Up to and including the name: the timestamp, the length byte, the address
`&mHeader[28]` and the range read through it. -/
def nameAccesses (mHeader : List CChar) : List HeaderAccess :=
  fieldAccesses converter.offsetTimestamp 8 mHeader.length
    ++ [.index converter.offsetNameLength mHeader.length,
        .index converter.frameHeaderLength mHeader.length,
        .name (nameLength mHeader) mHeader.length]

/-- The video header fields. -/
def videoAccesses (mVideoOffset size : ℕ) : List HeaderAccess :=
  fieldAccesses (mVideoOffset + converter.offsetVideoWidth) 4 size
    ++ fieldAccesses (mVideoOffset + converter.offsetVideoHeight) 4 size
    ++ fieldAccesses (mVideoOffset + converter.offsetVideoBytesPerLine) 4 size
    ++ [.index (mVideoOffset + converter.offsetVideoBitsPerPixel) size,
        .index (mVideoOffset + converter.offsetVideoColorFormat) size]

/-- Parse the fields of a complete header.  A negative length byte converts to a huge
`size_type`, which `assign` rejects.  Taking the address `&mHeader[28]` reads nothing:
with an empty name a header of 28 cells is parsed without leaving its memory. -/
def parseFields {σ : Type u} (frame : V4LFrame) (stream : σ) : Decode σ :=
  let size := frame.mHeader.length
  if size < converter.offsetTimestamp + 8 then
    ⟨.undefined, frame, stream, nameAccesses frame.mHeader⟩
  else if nameLength frame.mHeader < 0 then
    ⟨.threwLengthError, frame, stream, nameAccesses frame.mHeader⟩
  else if size < converter.frameHeaderLength + (nameLength frame.mHeader).toNat then
    ⟨.undefined, frame, stream, nameAccesses frame.mHeader⟩
  else
    ⟨.returned true, frame.assignFields, stream,
      nameAccesses frame.mHeader ++ videoAccesses frame.mVideoOffset size⟩

/-! ## Blocking decoder -/

/-- How a read loop of `DeserializeFrom` ends. -/
inductive LoopEnd
  | done
  | failed
  | spent
  deriving DecidableEq, Repr

/-- `do { read = Read(buf + bytesRead, size - bytesRead); if (read < 0) return false;
bytesRead += read; } while (bytesRead != size)`.  A `Read` that returns 0 is retried. -/
def readLoop {σ : Type u} (R : IReadStream σ) (size : ℕ) :
    ℕ → List CChar → ℕ → σ → LoopEnd × List CChar × σ
  | 0, buf, _, stream => (.spent, buf, stream)
  | fuel + 1, buf, bytesRead, stream =>
      match R.read stream (size - bytesRead) with
      | (none, stream) => (.failed, buf, stream)
      | (some bs, stream) =>
          let buf := Buffer.blit buf bytesRead bs
          let bytesRead := (bytesRead + bs.length) % 2 ^ 32
          if bytesRead ≠ size then readLoop R size fuel buf bytesRead stream
          else (.done, buf, stream)

/-- The run a finished read loop is part of. -/
def ofLoop {σ : Type u} (loop : LoopEnd × List CChar × σ) (store : List CChar → V4LFrame) :
    Decode σ :=
  match loop with
  | (.done, buf, stream) => ⟨.returned true, store buf, stream, []⟩
  | (.failed, buf, stream) => ⟨.returned false, store buf, stream, []⟩
  | (.spent, buf, stream) => ⟨.spent, store buf, stream, []⟩

/-- The sizes of the frame, from its first eight bytes. -/
def sizesPhase {σ : Type u} (frame : V4LFrame) (stream : σ) : Decode σ :=
  match frame.parseSizes with
  | none => ⟨.threwBadAlloc, frame, stream, sizeAccesses frame.mHeader⟩
  | some sized => ⟨.returned true, sized, stream, sizeAccesses frame.mHeader⟩

/-- The first eight bytes. -/
def readSizeBytes {σ : Type u} (R : IReadStream σ) (fuel : ℕ) (frame : V4LFrame)
    (stream : σ) : Decode σ :=
  ofLoop (readLoop R 8 fuel (resize frame.mHeader 8) 0 stream)
    fun buf => { frame with mHeader := buf }

/-- The rest of the header, behind the eight bytes already there. -/
def readHeader {σ : Type u} (R : IReadStream σ) (fuel : ℕ) (frame : V4LFrame)
    (stream : σ) : Decode σ :=
  ofLoop (readLoop R frame.mHeader.length fuel frame.mHeader 8 stream)
    fun buf => { frame with mHeader := buf }

/-- The payload. -/
def readPayload {σ : Type u} (R : IReadStream σ) (fuel : ℕ) (frame : V4LFrame)
    (stream : σ) : Decode σ :=
  ofLoop (readLoop R frame.mDataContainer.length fuel frame.mDataContainer 0 stream)
    fun buf => { frame with mDataContainer := buf }

/-- Everything behind the size fields. -/
def deserializeRest {σ : Type u} (R : IReadStream σ) (fuel : ℕ) (frame : V4LFrame)
    (stream : σ) : Decode σ :=
  (readHeader R fuel frame stream).andThen fun frame stream =>
  (parseFields frame stream).andThen (readPayload R fuel)

/-- The blocking decoder: the two sizes first, then the header and the body. -/
def deserializeFrom {σ : Type u} (R : IReadStream σ) (fuel : ℕ) (frame : V4LFrame)
    (stream : σ) : Decode σ :=
  (readSizeBytes R fuel frame stream).andThen fun frame stream =>
  (sizesPhase frame stream).andThen (deserializeRest R fuel)

/-! ## Resumable decoder -/

/-- `while (actSize < bufSize)`: every iteration that does not return advances
`actSize`, so the missing number of bytes bounds the iterations. -/
def fillLoop {σ : Type u} (R : IReadStream σ) :
    ℕ → List CChar → ℕ → σ → Bool × List CChar × ℕ × σ
  | 0, buf, actSize, stream => (true, buf, actSize, stream)
  | missing + 1, buf, actSize, stream =>
      if actSize < buf.length then
        match R.read stream (buf.length - actSize) with
        | (none, stream) => (false, buf, actSize, stream)
        | (some [], stream) => (false, buf, actSize, stream)
        | (some (b :: bs), stream) =>
            fillLoop R missing (Buffer.blit buf actSize (b :: bs))
              (actSize + (b :: bs).length) stream
      else (true, buf, actSize, stream)

/-- `fillupBuffer`, with the buffer's size as its length. -/
def fillupBuffer {σ : Type u} (R : IReadStream σ) (buf : List CChar) (actSize : ℕ)
    (stream : σ) : Bool × List CChar × ℕ × σ :=
  fillLoop R (buf.length - actSize) buf actSize stream

/-- `case State::IF_HEADER`: the eight bytes of the two sizes. -/
def parseIFrameHeader {σ : Type u} (R : IReadStream σ) (frame : V4LFrame) (stream : σ) :
    Decode σ :=
  let mHeader := if frame.mHeader.length ≠ 8 then resize frame.mHeader 8 else frame.mHeader
  let filled := fillupBuffer R mHeader frame.accumulated stream
  let frame := { frame with mHeader := filled.2.1, accumulated := filled.2.2.1 }
  if filled.1 then
    (sizesPhase frame filled.2.2.2).andThen fun frame stream =>
      ⟨.returned true, { frame with state := .v4lHeader }, stream, []⟩
  else ⟨.returned false, frame, filled.2.2.2, []⟩

/-- `case State::V4L_HEADER`: what is left of the header. -/
def parseV4LFrameHeader {σ : Type u} (R : IReadStream σ) (frame : V4LFrame) (stream : σ) :
    Decode σ :=
  let filled := fillupBuffer R frame.mHeader frame.accumulated stream
  let frame := { frame with mHeader := filled.2.1, accumulated := filled.2.2.1 }
  if filled.1 then
    (parseFields frame filled.2.2.2).andThen fun frame stream =>
      ⟨.returned true, { frame with state := .v4lBody, accumulated := 0 }, stream, []⟩
  else ⟨.returned false, frame, filled.2.2.2, []⟩

/-- `case State::V4L_BODY`. -/
def fillBody {σ : Type u} (R : IReadStream σ) (frame : V4LFrame) (stream : σ) : Decode σ :=
  let filled := fillupBuffer R frame.mDataContainer frame.accumulated stream
  let frame := { frame with mDataContainer := filled.2.1, accumulated := filled.2.2.1 }
  if filled.1 then ⟨.returned true, { frame with state := .deserialized }, filled.2.2.2, []⟩
  else ⟨.returned false, frame, filled.2.2.2, []⟩

/-- `while (true) switch (state)`: a phase that returns true moves to the next state
and continues, the body phase returns. -/
def asyncDeserializeFrom {σ : Type u} (R : IReadStream σ) (frame : V4LFrame) (stream : σ) :
    Decode σ :=
  match frame.state with
  | .ifHeader =>
      (parseIFrameHeader R frame stream).andThen fun frame stream =>
      (parseV4LFrameHeader R frame stream).andThen (fillBody R)
  | .v4lHeader => (parseV4LFrameHeader R frame stream).andThen (fillBody R)
  | .v4lBody => fillBody R frame stream
  | .deserialized => ⟨.threwRuntimeError, frame, stream, []⟩

end V4LFrame

end NewCPP
