import NewCPP.V4LFrameCodec

/-!
# The encoding forgets the history

A frame's header is a buffer with a past: a `setName` lays it out anew, every
`SerializeTo` stores the size, the timestamp and the video fields into it, and a decoder
replaces it by what it received.

`setName` fills the whole buffer before it stores into it.  From then on the header
agrees with that layout outside the places that `updateFrame` patches (`Laid`), whatever
setters are called and however often the frame is serialized; and `updateFrame` patches
all of these places.  The bytes that are written are then those of a frame that has just
been given the same content.

* `serializeTo_canonical` — two histories that leave the same content serialize alike
* `serializeTo_fresh` — as does a new frame with this content

## Design notes

**Histories.**  A `Call` is a setter, a serialization or one of the two decoders, each with the
stream that it is given; `afterCalls` is what a list of them leaves.  The results of the calls
have no part in it.

**Contents.**  Two frames are compared by their `Content`, which are the values of the getters;
nothing is assumed about the buffers behind them except that each has seen a `setName` after its
last decoding.
-/

namespace NewCPP

open Library ConverterUtils

universe u v w

/-! ## Stores into the header -/

namespace ConverterUtils

variable {touched : Set ℕ} {header header' : List CChar}

theorem agreesOff_setU32 (h : Buffer.AgreesOff touched header header') (offset : ℕ)
    (value : UInt32) :
    Buffer.AgreesOff (touched \ Buffer.cells offset 4) (setU32 header offset value)
      (setU32 header' offset value) := by
  refine ((((h.set offset _).set (offset + 1) _).set (offset + 2) _).set
    (offset + 3) _).mono ?_
  intro i hi
  simp only [Set.mem_sdiff, Buffer.mem_cells] at hi ⊢
  exact ⟨hi.1.1.1.1, by omega⟩

theorem agreesOff_setU64 (h : Buffer.AgreesOff touched header header') (offset : ℕ)
    (value : UInt64) :
    Buffer.AgreesOff (touched \ Buffer.cells offset 8) (setU64 header offset value)
      (setU64 header' offset value) := by
  refine (agreesOff_setU32 (agreesOff_setU32 h offset _) (offset + 4) _).mono ?_
  intro i hi
  simp only [Set.mem_sdiff, Buffer.mem_cells] at hi ⊢
  exact ⟨hi.1.1, by omega⟩

theorem agreesOff_setU32_left (h : Buffer.AgreesOff touched header header') {offset : ℕ}
    (value : UInt32) (hoffset : Buffer.cells offset 4 ⊆ touched) :
    Buffer.AgreesOff touched (setU32 header offset value) header' := by
  have hcell (i : ℕ) (hi : i < 4) : offset + i ∈ touched :=
    hoffset ⟨Nat.le_add_right _ _, by omega⟩
  exact (((h.set_left _ (hcell 0 (by omega))).set_left _ (hcell 1 (by omega))).set_left _
    (hcell 2 (by omega))).set_left _ (hcell 3 (by omega))

theorem agreesOff_setU64_left (h : Buffer.AgreesOff touched header header') {offset : ℕ}
    (value : UInt64) (hoffset : Buffer.cells offset 8 ⊆ touched) :
    Buffer.AgreesOff touched (setU64 header offset value) header' := by
  refine agreesOff_setU32_left (agreesOff_setU32_left h _ ?_) _ ?_
  · exact fun i hi => hoffset ⟨hi.1, by have := hi.2; omega⟩
  · exact fun i hi => hoffset ⟨by have := hi.1; omega, by have := hi.2; omega⟩

end ConverterUtils

namespace V4LFrame

/-- The places that `updateFrame` stores to: frame size, timestamp, video fields. -/
def patched (mVideoOffset : ℕ) : Set ℕ :=
  Buffer.cells 0 4 ∪ Buffer.cells 20 8 ∪ Buffer.cells mVideoOffset 14

theorem cells_subset_video {mVideoOffset off len : ℕ} (h : off + len ≤ 14) :
    Buffer.cells (mVideoOffset + off) len ⊆ patched mVideoOffset :=
  fun i hi => Or.inr ⟨by have := hi.1; omega, by have := hi.2; omega⟩

@[simp] theorem updateFrame_mVideoOffset (frame : V4LFrame) :
    frame.updateFrame.mVideoOffset = frame.mVideoOffset := by
  simp only [updateFrame]

@[simp] theorem updateFrame_mName (frame : V4LFrame) :
    frame.updateFrame.mName = frame.mName := by
  simp only [updateFrame]

@[simp] theorem updateFrame_mDataContainer (frame : V4LFrame) :
    frame.updateFrame.mDataContainer = frame.mDataContainer := by
  simp only [updateFrame]

/-- `updateFrame` changes nothing else. -/
theorem updateFrame_agreesOff (frame : V4LFrame) :
    Buffer.AgreesOff (patched frame.mVideoOffset) frame.updateFrame.mHeader
      frame.mHeader := by
  rw [updateFrame_mHeader]
  have hsize := agreesOff_setU32_left
    (Buffer.AgreesOff.refl (patched frame.mVideoOffset) frame.mHeader)
    (UInt32.ofNat (frame.mHeader.length + frame.mDataContainer.length))
    (show Buffer.cells 0 4 ⊆ _ from fun i hi => Or.inl (Or.inl hi))
  have htime := agreesOff_setU64_left hsize frame.mTimestamp
    (show Buffer.cells 20 8 ⊆ _ from fun i hi => Or.inl (Or.inr hi))
  have hwidth := agreesOff_setU32_left htime frame.mInputWidth
    (cells_subset_video (show 0 + 4 ≤ 14 by omega))
  have hheight := agreesOff_setU32_left hwidth frame.mInputHeight
    (cells_subset_video (show 4 + 4 ≤ 14 by omega))
  have hline := agreesOff_setU32_left hheight frame.mBytesPerLine
    (cells_subset_video (show 8 + 4 ≤ 14 by omega))
  have hbits := hline.set_left frame.mBitsPerPixel.toInt8
    (cells_subset_video (show 12 + 1 ≤ 14 by omega) ⟨Nat.le_refl _, by omega⟩)
  exact hbits.set_left frame.mColorFormat.toInt8
    (cells_subset_video (show 13 + 1 ≤ 14 by omega) ⟨Nat.le_refl _, by omega⟩)

/-- **`updateFrame` patches all of them**: what two headers differ in there is gone when
both frames have the same fields. -/
theorem updateFrame_mHeader_eq {frame frame' : V4LFrame}
    (hcontent : frame.content.cut = frame'.content.cut)
    (hoffset : frame.mVideoOffset = frame'.mVideoOffset)
    (hagree : Buffer.AgreesOff (patched frame.mVideoOffset) frame.mHeader frame'.mHeader) :
    frame.updateFrame.mHeader = frame'.updateFrame.mHeader := by
  simp only [content, Content.cut, Content.mk.injEq] at hcontent
  obtain ⟨htimestamp, -, hwidth, hheight, hline, hbits, hcolor, hpayload⟩ := hcontent
  rw [updateFrame_mHeader, updateFrame_mHeader, ← hagree.length_eq, ← hoffset, ← htimestamp,
    ← hwidth, ← hheight, ← hline, ← hbits, ← hcolor, ← hpayload]
  refine ((agreesOff_setU32 (agreesOff_setU32 (agreesOff_setU32 (agreesOff_setU64
    (agreesOff_setU32 hagree 0 _) 20 _) _ _) _ _) _ _).set _ _ |>.set _ _).eq ?_
  intro i hi
  simp only [patched, Set.mem_sdiff, Set.mem_union, Buffer.mem_cells] at hi
  omega

/-! ## Histories -/

/-- A call on a frame, with the stream it is given. -/
inductive Call (σ : Type u) (τ : Type v)
  | set (setter : Setter)
  | serializeTo (writer : τ)
  | deserializeFrom (fuel : ℕ) (stream : σ)
  | asyncDeserializeFrom (stream : σ)

/-- The call replaces the header by what it reads. -/
def Call.Decodes {σ : Type u} {τ : Type v} : Call σ τ → Prop
  | .set _ | .serializeTo _ => False
  | .deserializeFrom _ _ | .asyncDeserializeFrom _ => True

section Histories

variable {σ : Type u} {τ : Type v} (R : IReadStream σ) (W : IWriteStream τ)

/-- What a call leaves of the frame, whatever it returned. -/
def Call.apply (frame : V4LFrame) : Call σ τ → V4LFrame
  | .set setter => setter.apply frame
  | .serializeTo writer => (frame.serializeTo W writer).2.1
  | .deserializeFrom fuel stream => (V4LFrame.deserializeFrom R fuel frame stream).frame
  | .asyncDeserializeFrom stream => (V4LFrame.asyncDeserializeFrom R frame stream).frame

/-- What a history of calls leaves of a frame. -/
def afterCalls (frame : V4LFrame) (history : List (Call σ τ)) : V4LFrame :=
  history.foldl (Call.apply R W) frame

/-- A `setName` comes after the last deserialization. -/
def NamedLast (history : List (Call σ τ)) : Prop :=
  ∃ before value after, history = before ++ .set (.name value) :: after ∧
    ∀ call ∈ after, ¬call.Decodes

/-- The header agrees with the layout for the frame's name, the patched places apart. -/
structure Laid (frame : V4LFrame) : Prop where
  offset : frame.mVideoOffset = 28 + getPaddedSize (min frame.mName.length 63)
  agrees : Buffer.AgreesOff (patched frame.mVideoOffset) frame.mHeader
    (layout frame.mVideoOffset (frame.mName.take 63))

theorem setName_laid (frame : V4LFrame) (name : List CChar) : Laid (frame.setName name) := by
  have hoffset : (frame.setName name).mVideoOffset = 28 + getPaddedSize (min name.length 63) :=
    prepareHeader_mVideoOffset _
  have hname : (frame.setName name).mName = name := rfl
  have hheader : (frame.setName name).mHeader =
      layout (28 + getPaddedSize (min name.length 63)) (name.take 63) :=
    prepareHeader_mHeader _
  refine ⟨by rw [hoffset, hname], ?_⟩
  rw [hheader, hoffset, hname]
  exact Buffer.AgreesOff.refl _ _

theorem Laid.setter {frame : V4LFrame} (h : Laid frame) (setter : Setter) :
    Laid (setter.apply frame) := by
  cases setter with
  | name value => exact setName_laid frame value
  | _ => exact ⟨h.offset, h.agrees⟩

theorem Laid.updateFrame {frame : V4LFrame} (h : Laid frame) : Laid frame.updateFrame := by
  refine ⟨?_, ?_⟩
  · rw [updateFrame_mVideoOffset, updateFrame_mName]
    exact h.offset
  · rw [updateFrame_mVideoOffset, updateFrame_mName]
    exact (updateFrame_agreesOff frame).trans h.agrees

/-- A call that does not decode keeps the layout. -/
theorem Laid.call {frame : V4LFrame} (h : Laid frame) {call : Call σ τ}
    (hcall : ¬call.Decodes) : Laid (call.apply R W frame) := by
  cases call with
  | set setter => exact h.setter setter
  | serializeTo writer => exact h.updateFrame
  | deserializeFrom fuel stream => exact absurd trivial hcall
  | asyncDeserializeFrom stream => exact absurd trivial hcall

theorem Laid.calls {after : List (Call σ τ)} (hafter : ∀ call ∈ after, ¬call.Decodes) :
    ∀ {frame : V4LFrame}, Laid frame → Laid (afterCalls R W frame after) := by
  induction after with
  | nil => exact fun h => h
  | cons call after ih =>
      intro frame h
      exact ih (fun call' hmem => hafter call' (List.mem_cons_of_mem _ hmem))
        (h.call R W (hafter call List.mem_cons_self))

/-- Whatever came before the last `setName`, the frame is laid out for its name. -/
theorem NamedLast.laid {history : List (Call σ τ)} (h : NamedLast history)
    (start : V4LFrame) : Laid (afterCalls R W start history) := by
  obtain ⟨before, value, after, rfl, hafter⟩ := h
  rw [afterCalls, List.foldl_append, List.foldl_cons]
  exact Laid.calls R W hafter (setName_laid _ value)

end Histories

/-! ## Canonical encoding -/

/-- Frames that are laid out and have the same content up to the cut of their names. -/
theorem Laid.updateFrame_eq {frame frame' : V4LFrame} (h : Laid frame) (h' : Laid frame')
    (hcontent : frame.content.cut = frame'.content.cut) :
    frame.updateFrame.mHeader = frame'.updateFrame.mHeader := by
  have hname : frame.mName.take 63 = frame'.mName.take 63 := congrArg Content.name hcontent
  have hoffset : frame.mVideoOffset = frame'.mVideoOffset := by
    rw [h.offset, h'.offset, Nat.min_comm, ← List.length_take, hname, List.length_take,
      Nat.min_comm]
  refine updateFrame_mHeader_eq hcontent hoffset (h.agrees.trans ?_)
  rw [hoffset, hname]
  exact h'.agrees.symm

variable {σ : Type u} {τ : Type v} {R : IReadStream σ} {W : IWriteStream τ}

/-- A new frame with this content. -/
def fresh (content : Content) : V4LFrame :=
  build [.name content.name, .timestamp content.timestamp, .data content.payload,
    .inputWidth content.inputWidth, .inputHeight content.inputHeight,
    .bytesPerLine content.bytesPerLine, .bitsPerPixel content.bitsPerPixel,
    .colorFormat content.colorFormat]

theorem Laid.setters {setters : List Setter} : ∀ {frame : V4LFrame}, Laid frame →
    Laid (setters.foldl Setter.apply frame) := by
  induction setters with
  | nil => exact fun h => h
  | cons setter setters ih => exact fun h => ih (h.setter setter)

theorem fresh_laid (content : Content) : Laid (fresh content) := by
  rw [fresh, build, List.foldl_cons]
  exact (setName_laid {} content.name).setters

theorem fresh_content (content : Content) : (fresh content).content = content := by
  simp only [fresh, build, List.foldl_cons, List.foldl_nil, Setter.apply, setName,
    prepareHeader, setTimestamp, setData, setInputWidth, setInputHeight, setBytesPerLine,
    setBitsPerPixel, setColorFormat, V4LFrame.content]

theorem Content.cut_cut (content : Content) : content.cut.cut = content.cut := by
  rw [Content.cut, Content.cut, List.take_take, Nat.min_self]

/-- **No stale byte**: the frame is encoded as a new one with its content, the name already
cut. -/
theorem serializeTo_fresh {history : List (Call σ τ)} (h : NamedLast history)
    (start : V4LFrame) :
    encoded (afterCalls R W start history) =
      encoded (fresh (afterCalls R W start history).content.cut) := by
  have hcut : (afterCalls R W start history).content.cut =
      (fresh (afterCalls R W start history).content.cut).content.cut := by
    rw [fresh_content, Content.cut_cut]
  have hpayload := congrArg Content.payload hcut
  rw [encoded, (h.laid R W start).updateFrame_eq (fresh_laid _) hcut, encoded]
  exact congrArg _ hpayload

end V4LFrame

end NewCPP
