import NewCPP.V4LFrameDecode

/-!
# Encoding and decoding are inverse

Two round trips through the V4L frame codec.

* **Decode after encode** (`deserializeAll_serializeAll`): a list of frames built by
  the setters, serialized one after another and read back through short reads of any
  size, comes back frame by frame with its content.  The encoder lays the header out
  for its name (`Prepared`), the decoder derives the layout from the size fields; the
  theorem is that the two agree on where everything is.
* **Encode after decode** (`serialize_deserialize`): whatever byte string the decoder
  accepts, serializing the frame at once writes the same bytes, whoever produced them.
  Here the header's layout is foreign and fields may overlap; what carries the proof
  is that every store of `updateFrame` puts back the value just loaded from that place.

## Design notes

**Buffers.**  Both directions are stated with the library of buffers: `updateFrame` is a run of
writes to fields (`blitAll`), each of which is found back (`window_blitAll_of_mem`) as long as
the fields do not overlap.  For a header from elsewhere they may, and then each write is one
that puts back what is there.

**Layout.**  A name goes into the header with 63 characters at most, padded to a multiple of
four.  `Prepared` says of a header that it is laid out for the frame's name, and every setter
keeps it.
-/

namespace NewCPP

open Library ConverterUtils

universe u v

namespace V4LFrame

/-! ## Frames built by setters -/

/-- A call of one of the public setters. -/
inductive Setter
  | timestamp (value : UInt64)
  | data (payload : List CChar)
  | name (value : List CChar)
  | inputWidth (value : UInt32)
  | inputHeight (value : UInt32)
  | bytesPerLine (value : UInt32)
  | bitsPerPixel (value : UInt8)
  | colorFormat (value : UInt8)
  deriving DecidableEq, Repr

/-- The setter's effect. -/
def Setter.apply (frame : V4LFrame) : Setter → V4LFrame
  | timestamp value => frame.setTimestamp value
  | data payload => frame.setData payload
  | name value => frame.setName value
  | inputWidth value => frame.setInputWidth value
  | inputHeight value => frame.setInputHeight value
  | bytesPerLine value => frame.setBytesPerLine value
  | bitsPerPixel value => frame.setBitsPerPixel value
  | colorFormat value => frame.setColorFormat value

/-- A fresh frame after a sequence of setter calls. -/
def build (setters : List Setter) : V4LFrame :=
  setters.foldl Setter.apply {}

/-- The sequence names its frame: without `setName` there is no header to serialize. -/
def Named (setters : List Setter) : Prop :=
  ∃ value, Setter.name value ∈ setters

/-- What a frame says: its fields and payload. -/
structure Content where
  timestamp : UInt64
  name : List CChar
  inputWidth : UInt32
  inputHeight : UInt32
  bytesPerLine : UInt32
  bitsPerPixel : UInt8
  colorFormat : UInt8
  payload : List CChar
  deriving DecidableEq, Repr

/-- What the getters return. -/
def content (frame : V4LFrame) : Content where
  timestamp := frame.mTimestamp
  name := frame.mName
  inputWidth := frame.mInputWidth
  inputHeight := frame.mInputHeight
  bytesPerLine := frame.mBytesPerLine
  bitsPerPixel := frame.mBitsPerPixel
  colorFormat := frame.mColorFormat
  payload := frame.mDataContainer

/-- The content with the name cut to what a header can hold. -/
def Content.cut (content : Content) : Content :=
  { content with name := content.name.take converter.maxNameLength }

/-- The header is laid out for the frame's name: the video header behind the padded
name, its offset in the header-size field, the name and its length in place. -/
structure Prepared (frame : V4LFrame) : Prop where
  offset_ge : 28 + min frame.mName.length 63 ≤ frame.mVideoOffset
  offset_le : frame.mVideoOffset ≤ 28 + 64
  length : frame.mHeader.length = frame.mVideoOffset + 16
  size_field : Buffer.window frame.mHeader 4 4 = bytes32 (UInt32.ofNat frame.mVideoOffset - 4)
  name_length : Buffer.window frame.mHeader 10 1 =
    [(UInt8.ofNat (min frame.mName.length 63)).toInt8]
  name : Buffer.window frame.mHeader 28 (min frame.mName.length 63) = frame.mName.take 63

/-- The header `prepareHeader` lays out for the cut name `name`, with the video header
at `offset`: its stores in order. -/
def layout (offset : ℕ) (name : List CChar) : List CChar :=
  let header := setU32 (List.replicate (offset + 16) 0) 4 (UInt32.ofNat offset - 4)
  let header := (((header.set 8 1).set 9 0).set 10 (UInt8.ofNat name.length).toInt8).set 11 0
  let header := setU32 (setU32 header 12 0x0100) 16 0
  Buffer.blit header 28 name

section Layout

variable {offset : ℕ} {name : List CChar} (h : 28 + name.length ≤ offset)

include h

theorem length_layout : (layout offset name).length = offset + 16 := by
  rw [layout, Buffer.length_blit] <;>
    simp only [length_setU32, List.length_set, List.length_replicate]
  omega

theorem window_layout_size :
    Buffer.window (layout offset name) 4 4 = bytes32 (UInt32.ofNat offset - 4) := by
  simp (disch := ((try simp only [length_setU32, List.length_set, List.length_replicate]); omega))
    only [layout, Buffer.window_blit_of_disjoint, window_setU32, window_set,
      window_setU32_self]

theorem window_layout_nameLength :
    Buffer.window (layout offset name) 10 1 = [(UInt8.ofNat name.length).toInt8] := by
  simp (disch := ((try simp only [length_setU32, List.length_set, List.length_replicate]); omega))
    only [layout, Buffer.window_blit_of_disjoint, window_setU32, window_set,
      window_set_self]

theorem window_layout_name : Buffer.window (layout offset name) 28 name.length = name := by
  rw [layout, Buffer.window_blit_self]
  simp only [length_setU32, List.length_set, List.length_replicate]
  omega

end Layout

/-- The header after `prepareHeader`. -/
theorem prepareHeader_mHeader (frame : V4LFrame) :
    frame.prepareHeader.mHeader =
      layout (28 + getPaddedSize (min frame.mName.length 63)) (frame.mName.take 63) := by
  have hlen : (frame.mName.take 63).length = min frame.mName.length 63 := by
    rw [List.length_take, Nat.min_comm]
  have htake : frame.mName.take (min frame.mName.length 63) = frame.mName.take 63 := by
    rcases Nat.le_total frame.mName.length 63 with h | h
    · rw [Nat.min_eq_left h, List.take_length, List.take_of_length_le h]
    · rw [Nat.min_eq_right h]
  rw [layout, hlen, ← htake]
  rfl

theorem prepared_of_layout {frame : V4LFrame}
    (hoffset : frame.mVideoOffset = 28 + getPaddedSize (min frame.mName.length 63))
    (hheader : frame.mHeader = layout frame.mVideoOffset (frame.mName.take 63)) :
    Prepared frame := by
  have hlen : (frame.mName.take 63).length = min frame.mName.length 63 := by
    rw [List.length_take, Nat.min_comm]
  have hroom : 28 + (frame.mName.take 63).length ≤ frame.mVideoOffset := by
    rw [hlen, hoffset, getPaddedSize]
    omega
  refine ⟨by omega, ?_, ?_, ?_, ?_, ?_⟩
  · rw [hoffset, getPaddedSize]
    omega
  · rw [hheader, length_layout hroom]
  · rw [hheader, window_layout_size hroom]
  · rw [hheader, window_layout_nameLength hroom, hlen]
  · rw [hheader, ← hlen, window_layout_name hroom]

theorem prepareHeader_mVideoOffset (frame : V4LFrame) :
    frame.prepareHeader.mVideoOffset =
      converter.frameHeaderLength +
        getPaddedSize (min frame.mName.length converter.maxNameLength) := rfl

theorem prepareHeader_prepared (frame : V4LFrame) : Prepared frame.prepareHeader := by
  have hname : frame.prepareHeader.mName = frame.mName := by
    rw [prepareHeader]
  have hoffset := prepareHeader_mVideoOffset frame
  rw [converter.frameHeaderLength, converter.maxNameLength] at hoffset
  refine prepared_of_layout ?_ ?_
  · rw [hoffset, hname]
  · rw [hoffset, hname, prepareHeader_mHeader]

/-- Only `setName` touches what the layout depends on. -/
theorem Prepared.apply {frame : V4LFrame} (h : Prepared frame) (setter : Setter) :
    Prepared (setter.apply frame) := by
  cases setter with
  | name value => exact prepareHeader_prepared _
  | _ => exact ⟨h.1, h.2, h.3, h.4, h.5, h.6⟩

/-- **A named frame is prepared**, whatever setters were called and in whatever order:
the last `setName` lays the header out and the calls behind it leave it alone. -/
theorem build_prepared {setters : List Setter} (h : Named setters) :
    Prepared (build setters) := by
  have hrun (rest : List Setter) : ∀ frame : V4LFrame, Prepared frame →
      Prepared (rest.foldl Setter.apply frame) := by
    induction rest with
    | nil => exact fun _ h => h
    | cons setter rest ih => exact fun _ h => ih _ (h.apply setter)
  obtain ⟨value, hmem⟩ := h
  obtain ⟨before, after, rfl⟩ := List.append_of_mem hmem
  rw [build, List.foldl_append, List.foldl_cons]
  exact hrun after _ (prepareHeader_prepared _)

/-! ## What `updateFrame` stores -/

theorem updateFrame_mHeader (frame : V4LFrame) :
    frame.updateFrame.mHeader =
      ((setU32 (setU32 (setU32
        (setU64 (setU32 frame.mHeader 0
          (UInt32.ofNat (frame.mHeader.length + frame.mDataContainer.length)))
          20 frame.mTimestamp)
        frame.mVideoOffset frame.mInputWidth)
        (frame.mVideoOffset + 4) frame.mInputHeight)
        (frame.mVideoOffset + 8) frame.mBytesPerLine).set
        (frame.mVideoOffset + 12) frame.mBitsPerPixel.toInt8).set
        (frame.mVideoOffset + 13) frame.mColorFormat.toInt8 := by
  simp only [updateFrame, converter.offsetFrameSize, converter.offsetTimestamp,
    converter.offsetVideoWidth, converter.offsetVideoHeight,
    converter.offsetVideoBytesPerLine, converter.offsetVideoBitsPerPixel,
    converter.offsetVideoColorFormat, Nat.add_zero]

theorem length_updateFrame_mHeader (frame : V4LFrame) :
    frame.updateFrame.mHeader.length = frame.mHeader.length := by
  rw [updateFrame_mHeader]
  simp only [List.length_set, length_setU32, length_setU64]

/-- The stores of `updateFrame`: for each, where, and the cells. -/
def stores (frame : V4LFrame) : List (Buffer.Write CChar) :=
  [(0, bytes32 (UInt32.ofNat (frame.mHeader.length + frame.mDataContainer.length))),
    (20, bytes64 frame.mTimestamp),
    (frame.mVideoOffset, bytes32 frame.mInputWidth),
    (frame.mVideoOffset + 4, bytes32 frame.mInputHeight),
    (frame.mVideoOffset + 8, bytes32 frame.mBytesPerLine),
    (frame.mVideoOffset + 12, [frame.mBitsPerPixel.toInt8]),
    (frame.mVideoOffset + 13, [frame.mColorFormat.toInt8])]

section Update

variable {frame : V4LFrame} (hroom : frame.mVideoOffset + 14 ≤ frame.mHeader.length)
variable (hoffset : 28 ≤ frame.mVideoOffset)

include hroom hoffset

/-- `updateFrame` as a run of writes. -/
theorem updateFrame_eq_blitAll :
    frame.updateFrame.mHeader = Buffer.blitAll frame.mHeader (stores frame) := by
  rw [updateFrame_mHeader, Buffer.set_eq_blit, Buffer.set_eq_blit, setU32_eq_blit,
    setU32_eq_blit, setU32_eq_blit, setU64_eq_blit, setU32_eq_blit]
  · rfl
  all_goals
    try simp only [List.length_set, length_setU32, length_setU64]
    omega

theorem stores_fit : ∀ write ∈ stores frame, write.Fits frame.mHeader := by
  simp only [stores, List.forall_mem_cons, Buffer.Write.Fits, List.length_singleton,
    length_bytes32, length_bytes64]
  refine ⟨?_, ?_, ?_, ?_, ?_, ?_, ?_, List.forall_mem_nil _⟩ <;> omega

omit hroom in
/-- `updateFrame` goes through the header from front to back. -/
theorem stores_isChain : (stores frame).IsChain Buffer.Write.Before := by
  simp only [stores, List.isChain_cons_cons, List.IsChain.singleton, and_true, Buffer.Write.Before,
    List.length_singleton, length_bytes32, length_bytes64]
  omega

/-- What `updateFrame` stores is found in its place. -/
theorem window_updateFrame_of_mem {off : ℕ} {cells : List CChar}
    (hmem : (off, cells) ∈ stores frame) :
    Buffer.window frame.updateFrame.mHeader off cells.length = cells := by
  rw [updateFrame_eq_blitAll hroom hoffset]
  exact Buffer.window_blitAll_of_mem (stores_fit hroom hoffset)
    (Buffer.pairwise_apart_of_isChain (stores_isChain hoffset)) hmem

theorem getU32_updateFrame {off : ℕ} {value : UInt32}
    (hmem : (off, bytes32 value) ∈ stores frame) :
    getU32 frame.updateFrame.mHeader off = value := by
  have hcells := window_updateFrame_of_mem hroom hoffset hmem
  rw [length_bytes32] at hcells
  rw [getU32_eq_word32, hcells, word32_bytes32]

theorem getU64_updateFrame {off : ℕ} {value : UInt64}
    (hmem : (off, bytes64 value) ∈ stores frame) :
    getU64 frame.updateFrame.mHeader off = value := by
  have hcells := window_updateFrame_of_mem hroom hoffset hmem
  rw [length_bytes64] at hcells
  rw [getU64_eq_word64, hcells, word64_bytes64]

/-- The one-byte fields, cast to `char` when they are stored. -/
theorem getD_updateFrame {off : ℕ} {value : UInt8}
    (hmem : (off, [value.toInt8]) ∈ stores frame) :
    (frame.updateFrame.mHeader.getD off 0).toUInt8 = value := by
  have hcells := window_updateFrame_of_mem hroom hoffset hmem
  rw [List.length_singleton] at hcells
  rw [getD_eq_window, hcells, List.getD_cons_zero, UInt8.toUInt8_toInt8]

/-- Outside the frame size, the timestamp and the video fields, nothing changes. -/
theorem window_updateFrame {off len : ℕ} (hsize : Buffer.Disjoint 0 4 off len)
    (htime : Buffer.Disjoint 20 8 off len)
    (hvideo : Buffer.Disjoint frame.mVideoOffset 14 off len) :
    Buffer.window frame.updateFrame.mHeader off len = Buffer.window frame.mHeader off len := by
  rw [updateFrame_eq_blitAll hroom hoffset]
  apply Buffer.window_blitAll_of_disjoint (stores_fit hroom hoffset)
  simp only [stores, List.forall_mem_cons, List.length_singleton, length_bytes32,
    length_bytes64]
  refine ⟨hsize, htime, ?_, ?_, ?_, ?_, ?_, List.forall_mem_nil _⟩ <;> omega

end Update

/-! ## The encoding of a prepared frame -/

/-- The bytes `SerializeTo` writes. -/
def encoded (frame : V4LFrame) : List CChar :=
  frame.updateFrame.mHeader ++ frame.mDataContainer

theorem length_encoded (frame : V4LFrame) : (encoded frame).length = frame.frameSize := by
  rw [encoded, List.length_append, length_updateFrame_mHeader, frameSize, Nat.add_comm]

/-- The name length survives as a signed `char`: it is at most 63. -/
private theorem toInt_ofNat_toInt8 {n : ℕ} (h : n ≤ 63) :
    (UInt8.ofNat n).toInt8.toInt = n := by
  have hall : ∀ m < 64, (UInt8.ofNat m).toInt8.toInt = m := by decide
  exact hall n (by omega)

namespace Prepared

variable {frame : V4LFrame} (hp : Prepared frame)

include hp

theorem room : frame.mVideoOffset + 14 ≤ frame.mHeader.length := by
  rw [hp.length]
  omega

theorem offset : 28 ≤ frame.mVideoOffset := by
  have := hp.offset_ge
  omega

theorem length_header : 44 ≤ frame.updateFrame.mHeader.length := by
  have := hp.offset
  rw [length_updateFrame_mHeader, hp.length]
  omega

/-- The header size the decoder computes is the length of the encoder's header. -/
theorem announcedHeaderSize_encoded :
    announcedHeaderSize (encoded frame) = frame.mHeader.length := by
  have hoffset := hp.offset
  have hle := hp.offset_le
  have hlength := hp.length_header
  have hvo : (UInt32.ofNat frame.mVideoOffset - 4 + 4).toNat = frame.mVideoOffset := by
    rw [UInt32.sub_add_cancel, UInt32.toNat_ofNat']
    omega
  rw [encoded, announcedHeaderSize_append (by omega), announcedHeaderSize,
    getU32_eq_word32, converter.offsetHeaderSize,
    window_updateFrame hp.room hoffset (by omega) (by omega) (by omega), hp.size_field,
    word32_bytes32, hvo, hp.length, converter.videoHeaderLength]

theorem announcedFrameSize_encoded (hsize : frame.frameSize < 2 ^ 32) :
    announcedFrameSize (encoded frame) = frame.frameSize := by
  have hlength := hp.length_header
  rw [frameSize] at hsize ⊢
  rw [encoded, announcedFrameSize_append (by omega), announcedFrameSize,
    converter.offsetFrameSize, getU32_updateFrame hp.room hp.offset List.mem_cons_self,
    UInt32.toNat_ofNat']
  omega

theorem nameLength_encoded :
    nameLength (encoded frame) = min frame.mName.length 63 := by
  have hoffset := hp.offset
  have hlength := hp.length_header
  rw [encoded, nameLength_append (by omega), nameLength, getD_eq_window,
    converter.offsetNameLength,
    window_updateFrame hp.room hoffset (by omega) (by omega) (by omega), hp.name_length,
    List.getD_cons_zero, toInt_ofNat_toInt8 (by omega)]

/-- What the encoder writes is well formed. -/
theorem wellFormed_encoded (hsize : frame.frameSize < 2 ^ 32) :
    WellFormed (encoded frame) := by
  have hoffset := hp.offset_ge
  have hlength := hp.length
  have hheader := hp.announcedHeaderSize_encoded
  have hframe := hp.announcedFrameSize_encoded hsize
  have hname := hp.nameLength_encoded
  have h28 : converter.frameHeaderLength = 28 := rfl
  refine ⟨by omega, by omega, ?_, ?_⟩
  · rw [hheader, hframe, frameSize]
    omega
  · rw [hframe, length_encoded]

/-- **The decoder inverts the encoder**, up to the cut of the name. -/
theorem content_decodedFrom (hsize : frame.frameSize < 2 ^ 32) :
    (decodedFrom {} (encoded frame)).content = frame.content.cut := by
  have hoffset := hp.offset
  have hge := hp.offset_ge
  have hroom := hp.room
  have hheader := hp.announcedHeaderSize_encoded
  have hlength := length_updateFrame_mHeader frame
  have hname := hp.nameLength_encoded
  have hlonger := hp.length_header
  have htake : (encoded frame).take frame.mHeader.length = frame.updateFrame.mHeader := by
    rw [encoded, List.take_left' hlength]
  have hdrop : (encoded frame).drop frame.mHeader.length = frame.mDataContainer := by
    rw [encoded, List.drop_left' hlength]
  have hvideo : frame.mHeader.length - 16 = frame.mVideoOffset := by
    rw [hp.length, Nat.add_sub_cancel]
  rw [encoded, nameLength_append (by omega)] at hname
  have hcells : Buffer.window frame.updateFrame.mHeader 28
      (nameLength frame.updateFrame.mHeader).toNat = frame.mName.take 63 := by
    have hlen : (nameLength frame.updateFrame.mHeader).toNat = min frame.mName.length 63 := by
      omega
    rw [hlen, window_updateFrame hroom hoffset (by omega) (by omega) (by omega), hp.name]
  have htime : getU64 frame.updateFrame.mHeader 20 = frame.mTimestamp :=
    getU64_updateFrame hroom hoffset (by simp [stores])
  have hwidth : getU32 frame.updateFrame.mHeader frame.mVideoOffset = frame.mInputWidth :=
    getU32_updateFrame hroom hoffset (by simp [stores])
  have hheight : getU32 frame.updateFrame.mHeader (frame.mVideoOffset + 4) =
      frame.mInputHeight := getU32_updateFrame hroom hoffset (by simp [stores])
  have hline : getU32 frame.updateFrame.mHeader (frame.mVideoOffset + 8) =
      frame.mBytesPerLine := getU32_updateFrame hroom hoffset (by simp [stores])
  have hbits : (frame.updateFrame.mHeader.getD (frame.mVideoOffset + 12) 0).toUInt8 =
      frame.mBitsPerPixel := getD_updateFrame hroom hoffset (by simp [stores])
  have hcolor : (frame.updateFrame.mHeader.getD (frame.mVideoOffset + 13) 0).toUInt8 =
      frame.mColorFormat := getD_updateFrame hroom hoffset (by simp [stores])
  simp only [decodedFrom, assignFields, content, Content.cut, hheader,
    hp.announcedFrameSize_encoded hsize, Buffer.window, htake, hdrop, frameSize,
    Nat.add_sub_cancel, converter.videoHeaderLength, hvideo]
  simp only [converter.offsetTimestamp, converter.offsetVideoWidth,
    converter.offsetVideoHeight, converter.offsetVideoBytesPerLine,
    converter.offsetVideoBitsPerPixel, converter.offsetVideoColorFormat,
    converter.frameHeaderLength, converter.maxNameLength, Nat.add_zero,
    List.take_length, htime, hwidth, hheight, hline, hbits, hcolor]
  rw [← Buffer.window, hcells]

end Prepared

/-! ## Decode after encode -/

variable {σ : Type u} {τ : Type v} {R : IReadStream σ} {unread : σ → List CChar}
variable {W : IWriteStream τ} {written : τ → List CChar}

/-- A writer that accepts every byte receives the encoding. -/
theorem written_serializeTo (hW : W.Accepts written) (frame : V4LFrame) (writer : τ) :
    written (frame.serializeTo W writer).2.2 = written writer ++ encoded frame := by
  have hdata : frame.updateFrame.mDataContainer = frame.mDataContainer := by
    rw [updateFrame]
  simp only [serializeTo, hW.appended, encoded, hdata, List.append_assoc]

/-- Serialize frames one after another. -/
def serializeAll (W : IWriteStream τ) : List V4LFrame → τ → τ
  | [], writer => writer
  | frame :: frames, writer => serializeAll W frames (frame.serializeTo W writer).2.2

/-- Deserialize fresh frames in turn: each run with the stream it starts from. -/
def deserializeAll (R : IReadStream σ) (fuel : ℕ) : ℕ → σ → List (σ × Decode σ)
  | 0, _ => []
  | count + 1, stream =>
      let run := deserializeFrom R fuel {} stream
      (stream, run) :: deserializeAll R fuel count run.stream

/-- A decoder run that gives `frame` back: it returns true with the frame's content,
the name cut, and has consumed the frame's size. -/
def GivesBack (unread : σ → List CChar) (frame : V4LFrame) (step : σ × Decode σ) : Prop :=
  step.2.outcome = .returned true ∧ step.2.frame.content = frame.content.cut ∧
    ∃ consumed, unread step.1 = consumed ++ unread step.2.stream ∧
      consumed.length = frame.frameSize

theorem written_serializeAll (hW : W.Accepts written) (frames : List V4LFrame) :
    ∀ writer, written (serializeAll W frames writer) =
      written writer ++ (frames.map encoded).flatten := by
  induction frames with
  | nil => exact fun _ => (List.append_nil _).symm
  | cons frame frames ih =>
      intro writer
      rw [serializeAll, ih, written_serializeTo hW, List.map_cons, List.flatten_cons,
        List.append_assoc]

/-- One frame, with more behind it. -/
theorem deserializeFrom_encoded (hR : R.ShortReads unread (2 ^ 31)) {frame : V4LFrame}
    (hp : Prepared frame) (hsize : frame.frameSize < 2 ^ 31) {fuel : ℕ} {s : σ}
    {rest : List CChar} (hs : unread s = encoded frame ++ rest)
    (hfuel : (unread s).length < fuel) :
    (deserializeFrom R fuel {} s).outcome = .returned true ∧
      (deserializeFrom R fuel {} s).frame.content = frame.content.cut ∧
      unread (deserializeFrom R fuel {} s).stream = rest := by
  have hframe := hp.announcedFrameSize_encoded (by omega)
  obtain ⟨hout, hdecoded, hrest⟩ := deserializeFrom_of_wellFormed hR {}
    (hp.wellFormed_encoded (by omega)) (by rw [length_encoded, hframe])
    (by rw [hframe]; exact hsize) hs hfuel
  refine ⟨hout, ?_, hrest⟩
  rw [hdecoded, hp.content_decodedFrom (by omega)]

/-- The reader is positioned at the first byte of the next frame after each one. -/
theorem deserializeAll_encoded (hR : R.ShortReads unread (2 ^ 31)) {fuel : ℕ}
    (rest : List CChar) (frames : List V4LFrame) :
    ∀ {s : σ}, (∀ frame ∈ frames, Prepared frame ∧ frame.frameSize < 2 ^ 31) →
      unread s = (frames.map encoded).flatten ++ rest → (unread s).length < fuel →
      List.Forall₂ (GivesBack unread) frames (deserializeAll R fuel frames.length s) := by
  induction frames with
  | nil => exact fun _ _ _ => List.Forall₂.nil
  | cons frame frames ih =>
      intro s hall hs hfuel
      obtain ⟨hp, hsize⟩ := hall frame List.mem_cons_self
      rw [List.map_cons, List.flatten_cons, List.append_assoc] at hs
      obtain ⟨hout, hcontent, hrest⟩ := deserializeFrom_encoded hR hp hsize hs hfuel
      have hshort := congrArg List.length hs
      rw [List.length_append] at hshort
      refine List.Forall₂.cons ⟨hout, hcontent, encoded frame, ?_, length_encoded frame⟩ ?_
      · exact hs.trans (by rw [hrest])
      · exact ih (fun frame hmem => hall frame (List.mem_cons_of_mem _ hmem)) hrest
          (by rw [hrest]; omega)

/-- **Frames survive the codec.**  Frames built by the setters and serialized one
after another come back in order from a reader of their bytes, however short its
reads: every call returns true, takes the frame's size off the stream and has the
frame's content, with the name cut to 63 bytes. -/
theorem deserializeAll_serializeAll (hW : W.Accepts written)
    (hR : R.ShortReads unread (2 ^ 31)) {calls : List (List Setter)}
    (hcalls : ∀ setters ∈ calls, Named setters ∧ (build setters).frameSize < 2 ^ 31)
    {writer : τ} {bytes rest : List CChar}
    (hbytes : written (serializeAll W (calls.map build) writer) = written writer ++ bytes)
    {s : σ} (hs : unread s = bytes ++ rest) {fuel : ℕ} (hfuel : (unread s).length < fuel) :
    List.Forall₂ (GivesBack unread) (calls.map build)
      (deserializeAll R fuel calls.length s) := by
  rw [written_serializeAll hW] at hbytes
  rw [← List.append_cancel_left hbytes] at hs
  have h := deserializeAll_encoded hR rest (calls.map build) ?_ hs hfuel
  · rwa [List.length_map] at h
  · intro frame hmem
    obtain ⟨setters, hin, rfl⟩ := List.mem_map.mp hmem
    obtain ⟨hnamed, hsize⟩ := hcalls setters hin
    exact ⟨build_prepared hnamed, hsize⟩

/-- A named frame with a payload and one with an empty name, read three bytes a time. -/
theorem two_frames_come_back :
    List.Forall₂ (GivesBack fun s => s)
      ([[.name [97, -1, 98], .data [1, 2, 3, 4, 5], .timestamp 9], [.inputWidth 4, .name []]].map
        build)
      (deserializeAll (Source.pieces 2) 200 2 (serializeAll IWriteStream.append
        ([[.name [97, -1, 98], .data [1, 2, 3, 4, 5], .timestamp 9],
          [.inputWidth 4, .name []]].map build) [])) :=
  deserializeAll_serializeAll IWriteStream.append_accepts (Source.pieces_shortReads 2 _)
    (by
      intro setters hmem
      rcases List.mem_pair.mp hmem with rfl | rfl
      · exact ⟨⟨[97, -1, 98], by simp⟩, by decide⟩
      · exact ⟨⟨[], by simp⟩, by decide⟩)
    (List.nil_append _).symm (List.append_nil _).symm (by decide)

/-! ## Encode after decode -/

/-- Storing the fields just parsed puts every byte back: whether or not the fields
overlap, each store writes the value loaded from the same place. -/
theorem updateFrame_assignFields (frame : V4LFrame)
    (hsize : announcedFrameSize frame.mHeader =
      frame.mHeader.length + frame.mDataContainer.length)
    (hlength : 28 ≤ frame.mHeader.length)
    (hroom : frame.mVideoOffset + 14 ≤ frame.mHeader.length) :
    frame.assignFields.updateFrame.mHeader = frame.mHeader := by
  have hset {i : ℕ} (hi : i < frame.mHeader.length) :
      frame.mHeader.set i (frame.mHeader.getD i 0).toUInt8.toInt8 = frame.mHeader := by
    rw [Int8.toInt8_toUInt8, List.getD_eq_getElem _ _ hi, List.set_getElem_self]
  have hword : UInt32.ofNat (frame.mHeader.length + frame.mDataContainer.length) =
      getU32 frame.mHeader 0 := by
    rw [← hsize, announcedFrameSize, UInt32.ofNat_toNat, converter.offsetFrameSize]
  rw [updateFrame_mHeader]
  simp only [assignFields, hword, converter.offsetTimestamp, converter.offsetVideoWidth,
    converter.offsetVideoHeight, converter.offsetVideoBytesPerLine,
    converter.offsetVideoBitsPerPixel, converter.offsetVideoColorFormat, Nat.add_zero]
  rw [setU32_getU32 (by omega), setU64_getU64 (by omega), setU32_getU32 (by omega),
    setU32_getU32 (by omega), setU32_getU32 (by omega), hset (by omega), hset (by omega)]

/-- Re-encoding a decoded frame gives its bytes. -/
theorem encoded_decodedFrom (frame : V4LFrame) {bytes : List CChar} (hw : WellFormed bytes)
    (hlen : bytes.length = announcedFrameSize bytes) :
    encoded (decodedFrom frame bytes) = bytes := by
  have hname := hw.name_le
  have hheader := hw.header_le
  have h28 : converter.frameHeaderLength = 28 := rfl
  have h16 : converter.videoHeaderLength = 16 := rfl
  have htake : (bytes.take (announcedHeaderSize bytes)).length =
      announcedHeaderSize bytes := by
    rw [List.length_take]
    omega
  have hdata : Buffer.window bytes (announcedHeaderSize bytes)
      (announcedFrameSize bytes - announcedHeaderSize bytes) =
        bytes.drop (announcedHeaderSize bytes) := by
    rw [Buffer.window, List.take_of_length_le]
    rw [List.length_drop]
    omega
  have hback := updateFrame_assignFields { frame with
    mDataContainer := bytes.drop (announcedHeaderSize bytes)
    mVideoOffset := announcedHeaderSize bytes - converter.videoHeaderLength
    mHeader := bytes.take (announcedHeaderSize bytes) }
    (by rw [announcedFrameSize_take _ (by omega), htake, List.length_drop]; omega)
    (by rw [htake]; omega) (by rw [htake]; dsimp only; omega)
  rw [decodedFrom, hdata, encoded, hback]
  exact List.take_append_drop _ _

/-- **The encoder inverts the decoder.**  Serializing a frame right after it was
deserialized writes the bytes that were consumed, for every header the decoder
accepts, its uninterpreted bytes included. -/
theorem serialize_deserialize (hR : R.Lossless unread) (hW : W.Accepts written)
    {fuel : ℕ} {frame : V4LFrame} {s : σ}
    (h : (deserializeFrom R fuel frame s).outcome = .returned true) (writer : τ) :
    ∃ consumed, unread s = consumed ++ unread (deserializeFrom R fuel frame s).stream ∧
      consumed.length = announcedFrameSize consumed ∧
      consumed.length = (deserializeFrom R fuel frame s).frame.frameSize ∧
      written ((deserializeFrom R fuel frame s).frame.serializeTo W writer).2.2 =
        written writer ++ consumed := by
  obtain ⟨bytes, hw, hlen, hs, hframe⟩ := deserializeFrom_returned_true hR h
  have hback := encoded_decodedFrom frame hw hlen
  refine ⟨bytes, hs, hlen, ?_, ?_⟩
  · rw [hframe, ← length_encoded, hback]
  · rw [hframe, written_serializeTo hW, hback]

theorem foreignFrame_written_back :
    ∃ consumed, foreignFrame = consumed ++
        (deserializeFrom (Source.pieces 4) 60 {} foreignFrame).stream ∧
      consumed.length = announcedFrameSize consumed ∧
      consumed.length =
        (deserializeFrom (Source.pieces 4) 60 {} foreignFrame).frame.frameSize ∧
      ((deserializeFrom (Source.pieces 4) 60 {} foreignFrame).frame.serializeTo
        IWriteStream.append []).2.2 = [] ++ consumed :=
  serialize_deserialize (Source.pieces_shortReads 4 0).toLossless
    IWriteStream.append_accepts (by decide) []

end V4LFrame

end NewCPP
