import NewCPP.V4LFrameCanonical

/-!
# A frame in a buffer of fixed size

`MemWritter` is the writer behind a buffer of memory.  A `Write` stores as much as fits and
returns how much that was; when it stores nothing, the buffer being full or there being
nothing to store, it returns -1.

`SerializeTo` compares the sum of its two results with the size of the frame.

* `serializeTo_exact` — the sum tells whether the frame fits, the frame without payload
  apart

The memory reaches beyond the buffer, so that a store outside it could be seen.

## Design notes

**The buffer.**  `store` writes into the memory at the place where the writer stands, and
`capacity` is what is left of the buffer.  `ExactlySerialized` has three parts: the result, the
bytes that a frame leaves which fits, and the memory outside the buffer, which is never touched.

**Results.**  `SerializeTo` adds the results of its two writes as `int`, a -1 included; that sum
is what `serializeTo_exact` speaks about.
-/

namespace NewCPP

open Library ConverterUtils

universe u v

/-- `MemWritter`, with the memory from `bufferPtr` on. -/
structure MemWritter where
  memory : List CChar
  size : ℕ
  position : ℕ
  position_le : position ≤ size
  size_le : size ≤ memory.length

namespace MemWritter

/-- `MemWritter(bufferPtr, size)`. -/
def ofBuffer (memory : List CChar) (size : ℕ) (h : size ≤ memory.length) : MemWritter :=
  ⟨memory, size, 0, Nat.zero_le _, h⟩

/-- What is left of the buffer. -/
def capacity (writer : MemWritter) : ℕ :=
  writer.size - writer.position

/-- Store `data`, for which there is room, at the position. -/
def store (writer : MemWritter) (data : List CChar) (h : data.length ≤ writer.capacity) :
    MemWritter where
  memory := Buffer.blit writer.memory writer.position data
  size := writer.size
  position := writer.position + data.length
  position_le := by
    have hposition := writer.position_le
    rw [capacity] at h
    omega
  size_le := by
    have hposition := writer.position_le
    have hsize := writer.size_le
    rw [capacity] at h
    rw [Buffer.length_blit (by omega)]
    exact hsize

/-- `Write`. -/
def write (writer : MemWritter) (data : List CChar) : ℤ × MemWritter :=
  let amount := min data.length (writer.size - writer.position)
  if amount = 0 then (-1, writer)
  else
    (toInt amount, writer.store (data.take amount) (by
      rw [List.length_take, capacity]
      omega))

/-- The writer as the `IWriteStream` it is. -/
def stream : IWriteStream MemWritter where
  write := write

/-! ## One write -/

section OneWrite

variable (writer : MemWritter) (data : List CChar)

theorem write_nothing (h : min data.length writer.capacity = 0) :
    writer.write data = (-1, writer) :=
  if_pos h

theorem write_some (h : min data.length writer.capacity ≠ 0) :
    ∃ hfits, writer.write data = (toInt (min data.length writer.capacity),
      writer.store (data.take (min data.length writer.capacity)) hfits) :=
  ⟨_, if_neg h⟩

theorem write_result :
    (writer.write data).1 =
      if min data.length writer.capacity = 0 then -1
      else toInt (min data.length writer.capacity) := by
  by_cases h : min data.length writer.capacity = 0
  · rw [if_pos h, write_nothing writer data h]
  · obtain ⟨hfits, hwrite⟩ := write_some writer data h
    rw [if_neg h, hwrite]

/-- The memory takes the front of the data that fits, and the position moves behind it. -/
theorem write_stored :
    (writer.write data).2.memory =
        Buffer.blit writer.memory writer.position (data.take writer.capacity) ∧
      (writer.write data).2.position =
        writer.position + (data.take writer.capacity).length ∧
      (writer.write data).2.size = writer.size := by
  have htake : data.take (min data.length writer.capacity) = data.take writer.capacity := by
    rw [Nat.min_comm, ← List.take_take, List.take_length]
  by_cases h : min data.length writer.capacity = 0
  · rw [write_nothing writer data h, ← htake, h, List.take_zero, Buffer.blit_nil]
    exact ⟨rfl, rfl, rfl⟩
  · obtain ⟨hfits, hwrite⟩ := write_some writer data h
    rw [hwrite, ← htake]
    exact ⟨rfl, rfl, rfl⟩

theorem write_capacity :
    (writer.write data).2.capacity = writer.capacity - data.length := by
  obtain ⟨-, hposition, hsize⟩ := write_stored writer data
  rw [capacity, hsize, hposition, List.length_take, capacity]
  omega

theorem length_take_capacity :
    writer.position + (data.take writer.capacity).length ≤ writer.memory.length := by
  have hposition := writer.position_le
  have hsize := writer.size_le
  rw [List.length_take, capacity]
  omega

end OneWrite

/-- Two writes are one write of what they store. -/
theorem write_write_memory (writer : MemWritter) (data data' : List CChar) :
    ((writer.write data).2.write data').2.memory =
      Buffer.blit writer.memory writer.position ((data ++ data').take writer.capacity) := by
  have hroom := length_take_capacity writer (data ++ data')
  obtain ⟨hmemory, hposition, -⟩ := write_stored writer data
  obtain ⟨hmemory', -, -⟩ := write_stored (writer.write data).2 data'
  rw [hmemory', hmemory, hposition, write_capacity]
  rw [List.take_append] at hroom ⊢
  exact Buffer.blit_append hroom

end MemWritter

/-! ## `SerializeTo` -/

theorem toInt_of_lt {n : ℕ} (h : n < 2 ^ 31) : toInt n = n := by
  unfold toInt
  rw [Int.bmod_def]
  split <;> omega

namespace V4LFrame

/-- The result says whether the frame fits, a frame that fits is there as header and
payload, and only what was left of the buffer is written. -/
structure ExactlySerialized (frame : V4LFrame) (writer : MemWritter) : Prop where
  result : (frame.serializeTo MemWritter.stream writer).1 = true ↔
    frame.frameSize ≤ writer.capacity
  written : frame.frameSize ≤ writer.capacity →
    Buffer.window (frame.serializeTo MemWritter.stream writer).2.2.memory writer.position
        frame.frameSize =
      (frame.serializeTo MemWritter.stream writer).2.1.mHeader ++ frame.mDataContainer
  inside : Buffer.AgreesOff (Buffer.cells writer.position writer.capacity)
    (frame.serializeTo MemWritter.stream writer).2.2.memory writer.memory

section Bounded

variable (frame : V4LFrame) (writer : MemWritter)

theorem serializeTo_memory :
    (frame.serializeTo MemWritter.stream writer).2.2.memory =
      Buffer.blit writer.memory writer.position (frame.encoded.take writer.capacity) := by
  simp only [serializeTo, updateFrame_mDataContainer, MemWritter.stream]
  exact MemWritter.write_write_memory writer frame.updateFrame.mHeader frame.mDataContainer

/-- Nothing is written past the buffer, nor before the position. -/
theorem serializeTo_inside :
    Buffer.AgreesOff (Buffer.cells writer.position writer.capacity)
      (frame.serializeTo MemWritter.stream writer).2.2.memory writer.memory := by
  have hroom := writer.length_take_capacity frame.encoded
  have hle : (frame.encoded.take writer.capacity).length ≤ writer.capacity :=
    List.length_take_le _ _
  rw [serializeTo_memory]
  refine ⟨Buffer.length_blit hroom, fun i hi => ?_⟩
  rw [Buffer.mem_cells] at hi
  rw [Buffer.getElem?_blit hroom, if_neg (by omega)]

/-- A frame that fits is in the buffer. -/
theorem serializeTo_written (hfits : frame.frameSize ≤ writer.capacity) :
    Buffer.window (frame.serializeTo MemWritter.stream writer).2.2.memory writer.position
      frame.frameSize = frame.encoded := by
  have hlen := length_encoded frame
  have hroom := writer.length_take_capacity frame.encoded
  rw [serializeTo_memory]
  rw [List.take_of_length_le (by omega)] at hroom ⊢
  rw [← hlen]
  exact Buffer.window_blit_self hroom

end Bounded

/-- The two results add up to the size of the frame if it fits and both writes store
something. -/
theorem serializeTo_result {frame : V4LFrame} (hheader : 0 < frame.mHeader.length)
    (hsize : frame.frameSize < 2 ^ 31) (writer : MemWritter) :
    (frame.serializeTo MemWritter.stream writer).1 = true ↔
      frame.frameSize ≤ writer.capacity ∧ frame.mDataContainer ≠ [] := by
  have hlen := length_updateFrame_mHeader frame
  have hfirst := writer.write_result frame.updateFrame.mHeader
  have hsecond := (writer.write frame.updateFrame.mHeader).2.write_result
    frame.mDataContainer
  have hpayload : frame.mDataContainer ≠ [] ↔ 0 < frame.mDataContainer.length :=
    List.length_pos_iff.symm
  rw [frameSize] at hsize ⊢
  rw [hlen] at hfirst
  rw [MemWritter.write_capacity, hlen] at hsecond
  have hsum : (frame.serializeTo MemWritter.stream writer).1 = true ↔
      (writer.write frame.updateFrame.mHeader).1 +
        ((writer.write frame.updateFrame.mHeader).2.write frame.mDataContainer).1 =
          toInt (frame.mDataContainer.length + frame.mHeader.length) := by
    rw [serializeTo]
    simp only [updateFrame_mDataContainer, hlen, MemWritter.stream, beq_iff_eq]
  rw [hsum, hfirst, hsecond, hpayload, toInt_of_lt hsize]
  -- which of the two writes finds no room, or nothing to store
  split
  · split
    · omega
    · rw [toInt_of_lt (by omega)]
      omega
  · rw [toInt_of_lt (by omega)]
    split
    · omega
    · rw [toInt_of_lt (by omega)]
      omega

/-- The header of a named frame is short. -/
theorem Laid.length {frame : V4LFrame} (h : Laid frame) :
    0 < frame.mHeader.length ∧ frame.mHeader.length ≤ 2 ^ 10 := by
  have hname : (frame.mName.take 63).length = min frame.mName.length 63 := by
    rw [List.length_take, Nat.min_comm]
  have hoffset := h.offset
  rw [getPaddedSize] at hoffset
  rw [h.agrees.length_eq, length_layout (by rw [hname]; omega)]
  omega

variable {σ : Type u} {τ : Type v} {R : IReadStream σ} {W : IWriteStream τ}

/-- **When bounded serialization is exact**: for a named frame and any buffer, unless there
is no payload and the frame would fit. -/
theorem serializeTo_exact {history : List (Call σ τ)} (hnamed : NamedLast history)
    (start : V4LFrame)
    (hpayload : (afterCalls R W start history).mDataContainer.length < 2 ^ 31 - 2 ^ 10)
    (writer : MemWritter) :
    ExactlySerialized (afterCalls R W start history) writer ↔
      (afterCalls R W start history).mDataContainer ≠ [] ∨
        writer.capacity < (afterCalls R W start history).frameSize := by
  obtain ⟨hpos, hle⟩ := (hnamed.laid R W start).length
  generalize afterCalls R W start history = frame at *
  have hresult := serializeTo_result hpos (by rw [frameSize]; omega) writer
  constructor
  · intro hexact
    by_cases hfits : frame.frameSize ≤ writer.capacity
    · exact Or.inl (hresult.mp (hexact.result.mpr hfits)).2
    · exact Or.inr (Nat.lt_of_not_le hfits)
  · intro hcase
    refine ⟨hresult.trans ⟨And.left, fun hfits => ⟨hfits, ?_⟩⟩,
      serializeTo_written frame writer, serializeTo_inside frame writer⟩
    exact hcase.resolve_right (Nat.not_lt_of_le hfits)

/-- A frame with two bytes of payload, in a buffer of 50 bytes. -/
theorem twoBytes_exact :
    ExactlySerialized (afterCalls (Source.pieces 4) IWriteStream.append {}
        [.set (.name [97]), .set (.data [1, 2])])
        (MemWritter.ofBuffer (List.replicate 60 0) 50 (by decide)) ↔
      (afterCalls (Source.pieces 4) IWriteStream.append {}
          [.set (.name [97]), .set (.data [1, 2])]).mDataContainer ≠ [] ∨
        (MemWritter.ofBuffer (List.replicate 60 0) 50 (by decide)).capacity <
          (afterCalls (Source.pieces 4) IWriteStream.append {}
            [.set (.name [97]), .set (.data [1, 2])]).frameSize :=
  serializeTo_exact ⟨[], [97], [.set (.data [1, 2])], rfl, by simp [Call.Decodes]⟩ {}
    (by decide) _

/-- The second write of a frame without payload stores nothing, so that its result is not
the 0 that would complete the sum. -/
theorem not_serializeTo_exact :
    ¬∀ (history : List (Call (List CChar) (List CChar))) (start : V4LFrame),
      NamedLast history →
      (afterCalls (Source.pieces 4) IWriteStream.append start history).mDataContainer.length <
        2 ^ 31 - 2 ^ 10 →
      ∀ writer : MemWritter, ExactlySerialized
        (afterCalls (Source.pieces 4) IWriteStream.append start history) writer := by
  intro h
  have hexact := h [.set (.name [97])] {} ⟨[], [97], [], rfl, by simp⟩ (by decide)
    (MemWritter.ofBuffer (List.replicate 60 0) 50 (by decide))
  exact absurd (hexact.result.mpr (by decide)) (by decide)

end V4LFrame

end NewCPP
