import NewCPP.V4LFrameDecode

/-!
# Truncated frames

A stream ends before the end of the frame that it announces: a file was cut, or a peer has
closed the connection.  From then on `Read` returns 0, and the read loops of
`DeserializeFrom` take only a negative result for the end.

* `truncated_not_returned` — the blocking decoder returns neither true nor false.
* `truncated_spins` — if the part of the frame that is there is consistent, it goes on
  reading for ever; otherwise it may leave with an exception.

Every unit of fuel is one call of `Read`, so that a run which is `spent` with any fuel
calls it for ever.

## Design notes

**The end of a stream.**  A source at its end answers with nothing, for ever, as `chunked false`
of `Library.Source` does; a source that refuses is another matter, and the decoder returns false
there.

**Consistency.**  `FrontConsistent` says that the part of the header that has arrived announces
sizes with which the decoder gets as far as the loop that never ends.
-/

namespace NewCPP

open Library

universe u

namespace V4LFrame

variable {σ : Type u} {R : IReadStream σ} {unread : σ → List CChar}

/-- The stream ends before the size fields, or before the end of the frame. -/
def Truncated (bytes : List CChar) : Prop :=
  bytes.length < 8 ∨ bytes.length < announcedFrameSize bytes

instance (bytes : List CChar) : Decidable (Truncated bytes) := by
  unfold Truncated
  infer_instance

/-- As far as the bytes go, the sizes fit and the name lies inside the header. -/
structure FrontConsistent (bytes : List CChar) : Prop where
  sizes : 8 ≤ bytes.length → announcedHeaderSize bytes ≤ announcedFrameSize bytes
  name : 8 ≤ bytes.length → announcedHeaderSize bytes ≤ bytes.length →
    0 ≤ nameLength bytes ∧
      converter.frameHeaderLength + (nameLength bytes).toNat ≤ announcedHeaderSize bytes

/-! ## No phase returns false -/

theorem readLoop_ne_failed (hanswers : R.Answers) (size fuel : ℕ) :
    ∀ (buf : List CChar) (bytesRead : ℕ) (s : σ),
      (readLoop R size fuel buf bytesRead s).1 ≠ .failed := by
  induction fuel with
  | zero => exact fun _ _ _ h => by cases h
  | succ fuel ih =>
      intro buf bytesRead s
      obtain ⟨bs, s', hread⟩ := hanswers.answer s (size - bytesRead)
      rw [readLoop, hread]
      dsimp only
      split
      · exact ih _ _ _
      · exact fun h => by cases h

/-- A loop over answers fills the buffer, or is still at it. -/
theorem ofLoop_readLoop_answers (hanswers : R.Answers) (size fuel : ℕ) (buf : List CChar)
    (bytesRead : ℕ) (s : σ) (store : List CChar → V4LFrame) :
    (ofLoop (readLoop R size fuel buf bytesRead s) store).outcome = .returned true ∨
      (ofLoop (readLoop R size fuel buf bytesRead s) store).outcome = .spent := by
  have hloop := readLoop_ne_failed hanswers size fuel buf bytesRead s
  generalize readLoop R size fuel buf bytesRead s = loop at hloop ⊢
  obtain ⟨ended, buf', s'⟩ := loop
  cases ended with
  | done => exact Or.inl rfl
  | failed => exact absurd rfl hloop
  | spent => exact Or.inr rfl

theorem readSizeBytes_answers (hanswers : R.Answers) (fuel : ℕ) (frame : V4LFrame) (s : σ) :
    (readSizeBytes R fuel frame s).outcome = .returned true ∨
      (readSizeBytes R fuel frame s).outcome = .spent :=
  ofLoop_readLoop_answers hanswers 8 fuel (resize frame.mHeader 8) 0 s _

theorem readHeader_answers (hanswers : R.Answers) (fuel : ℕ) (frame : V4LFrame) (s : σ) :
    (readHeader R fuel frame s).outcome = .returned true ∨
      (readHeader R fuel frame s).outcome = .spent :=
  ofLoop_readLoop_answers hanswers frame.mHeader.length fuel frame.mHeader 8 s _

theorem readPayload_answers (hanswers : R.Answers) (fuel : ℕ) (frame : V4LFrame) (s : σ) :
    (readPayload R fuel frame s).outcome = .returned true ∨
      (readPayload R fuel frame s).outcome = .spent :=
  ofLoop_readLoop_answers hanswers frame.mDataContainer.length fuel frame.mDataContainer 0 s _

theorem Decode.ne_false {run : Decode σ}
    (h : run.outcome = .returned true ∨ run.outcome = .spent) :
    run.outcome ≠ .returned false := by
  rcases h with h | h
  · rw [h]
    exact fun h => by cases h
  · rw [h]
    exact fun h => by cases h

theorem Decode.andThen_spent {run : Decode σ} {next : V4LFrame → σ → Decode σ}
    (h : run.outcome = .spent) : (run.andThen next).outcome = .spent := by
  rw [Decode.andThen_of_ne (by rw [h]; exact fun h => by cases h), h]

theorem Decode.andThen_ne {outcome : Outcome} {run : Decode σ}
    {next : V4LFrame → σ → Decode σ} (hrun : run.outcome ≠ outcome)
    (hnext : ∀ frame stream, (next frame stream).outcome ≠ outcome) :
    (run.andThen next).outcome ≠ outcome := by
  by_cases htrue : run.outcome = .returned true
  · rw [Decode.andThen_of_true htrue]
    exact hnext run.frame run.stream
  · rw [Decode.andThen_of_ne htrue]
    exact hrun

/-- `return false` stands behind a negative result only. -/
theorem deserializeFrom_ne_false (hanswers : R.Answers) (fuel : ℕ) (frame : V4LFrame)
    (s : σ) : (deserializeFrom R fuel frame s).outcome ≠ .returned false := by
  rw [deserializeFrom]
  refine Decode.andThen_ne (Decode.ne_false (readSizeBytes_answers hanswers fuel frame s))
    fun frame s => ?_
  refine Decode.andThen_ne ?_ fun frame s => ?_
  · intro h
    unfold sizesPhase at h
    split at h
    · cases h
    · cases h
  rw [deserializeRest]
  refine Decode.andThen_ne (Decode.ne_false (readHeader_answers hanswers fuel frame s))
    fun frame s => ?_
  refine Decode.andThen_ne ?_ fun frame s =>
    Decode.ne_false (readPayload_answers hanswers fuel frame s)
  intro h
  simp only [parseFields] at h
  split at h
  · cases h
  · split at h
    · cases h
    · split at h
      · cases h
      · cases h

/-- A frame that was read whole is not truncated. -/
theorem Truncated.not_true (hR : R.Lossless unread) {s : σ} (htrunc : Truncated (unread s))
    (fuel : ℕ) (frame : V4LFrame) :
    (deserializeFrom R fuel frame s).outcome ≠ .returned true := by
  intro h
  obtain ⟨bytes, hw, hlen, hs, -⟩ := deserializeFrom_returned_true hR h
  have hname := hw.name_le
  have hheader := hw.header_le
  have h28 : converter.frameHeaderLength = 28 := rfl
  have hlong : bytes.length ≤ (unread s).length := by
    rw [hs, List.length_append]
    exact Nat.le_add_right _ _
  have hframe : announcedFrameSize (unread s) = announcedFrameSize bytes := by
    rw [hs, announcedFrameSize_append (by omega)]
  rcases htrunc with hshort | hshort
  · omega
  · omega

/-! ## Truncated streams -/

/-- **A truncated frame does not make `DeserializeFrom` return.**  Over a lossless source
that answers every request, at its end with nothing, and whatever the pieces, no number of
calls of `Read` is enough for the decoder to return false, nor to return true. -/
theorem truncated_not_returned (hR : R.Lossless unread) (hanswers : R.Answers) {s : σ}
    (htrunc : Truncated (unread s)) (frame : V4LFrame) :
    ∀ fuel result, (deserializeFrom R fuel frame s).outcome ≠ .returned result := by
  intro fuel result
  cases result with
  | true => exact htrunc.not_true hR fuel frame
  | false => exact deserializeFrom_ne_false hanswers fuel frame s

/-- The first 29 bytes of a frame of 30, in two pieces: not after 40 calls. -/
theorem cutFrame_not_returned :
    (deserializeFrom (Source.chunked false) 40 {}
      [foreignFrame.take 9, (foreignFrame.take 29).drop 9]).outcome ≠ .returned false :=
  truncated_not_returned (Source.chunked_lossless false) Source.chunked_answers
    (by decide) {} 40 false

/-- The rest of a consistent frame is read, or waited for. -/
theorem deserializeRest_answers (hR : R.Lossless unread) (hanswers : R.Answers) {fuel : ℕ}
    {frame : V4LFrame} {s : σ} (hge : 8 ≤ frame.mHeader.length)
    (hlt : frame.mHeader.length < 2 ^ 32)
    (hname : ∀ header, header.length = frame.mHeader.length →
      header <+: frame.mHeader.take 8 ++ unread s → 0 ≤ nameLength header ∧
        converter.frameHeaderLength + (nameLength header).toNat ≤ header.length) :
    (deserializeRest R fuel frame s).outcome = .returned true ∨
      (deserializeRest R fuel frame s).outcome = .spent := by
  rw [deserializeRest]
  rcases readHeader_answers hanswers fuel frame s with htrue | hspent
  · obtain ⟨cells, hcells, hs, hframe⟩ := readHeader_true hR frame hge hlt htrue
    rw [Decode.andThen_of_true htrue, hframe]
    have hlength : (frame.mHeader.take 8 ++ cells).length = frame.mHeader.length := by
      rw [List.length_append, List.length_take]
      omega
    obtain ⟨hnonneg, hfits⟩ := hname (frame.mHeader.take 8 ++ cells) hlength
      ⟨unread (readHeader R fuel frame s).stream, by rw [List.append_assoc, ← hs]⟩
    rw [parseFields_of_le { frame with mHeader := frame.mHeader.take 8 ++ cells } _ hnonneg
      hfits, Decode.andThen_of_true rfl]
    exact readPayload_answers hanswers fuel _ _
  · exact Or.inr (Decode.andThen_spent hspent)

/-- **It goes on reading.**  If what is there of a truncated frame is consistent, the
decoder is still inside one of its three read loops after any number of calls. -/
theorem truncated_spins (hR : R.Lossless unread) (hanswers : R.Answers) {s : σ}
    (htrunc : Truncated (unread s)) (hfront : FrontConsistent (unread s)) (frame : V4LFrame) :
    ∀ fuel, (deserializeFrom R fuel frame s).outcome = .spent := by
  intro fuel
  have hnot := htrunc.not_true hR fuel frame
  suffices h : (deserializeFrom R fuel frame s).outcome = .returned true ∨
      (deserializeFrom R fuel frame s).outcome = .spent from h.resolve_left hnot
  rw [deserializeFrom]
  rcases readSizeBytes_answers hanswers fuel frame s with htrue | hspent
  · obtain ⟨cells, hcells, hs, hframe⟩ := readSizeBytes_true hR htrue
    have hlong : 8 ≤ (unread s).length := by
      rw [hs, List.length_append]
      omega
    have hf : announcedFrameSize (unread s) = announcedFrameSize cells := by
      rw [hs, announcedFrameSize_append (by omega)]
    have hh : announcedHeaderSize (unread s) = announcedHeaderSize cells := by
      rw [hs, announcedHeaderSize_append (by omega)]
    have hsizes := hfront.sizes hlong
    have hname := hfront.name hlong
    rw [hf, hh] at hsizes
    rw [hh] at hname
    have hge := announcedHeaderSize_ge cells
    have hlt := announcedFrameSize_lt cells
    have h16 : converter.videoHeaderLength = 16 := rfl
    rw [Decode.andThen_of_true htrue, hframe,
      sizesPhase_of_le { frame with mHeader := cells } _ rfl rfl hsizes,
      Decode.andThen_of_true rfl]
    have hroom : (sized { frame with mHeader := cells } (announcedFrameSize cells)
        (announcedHeaderSize cells)).mHeader.length = announcedHeaderSize cells :=
      length_mHeader_sized _ _ _
    have hkeep : (sized { frame with mHeader := cells } (announcedFrameSize cells)
        (announcedHeaderSize cells)).mHeader.take 8 = cells :=
      hcells ▸ take_mHeader_sized (by omega)
    refine deserializeRest_answers hR hanswers (by rw [hroom]; omega) (by rw [hroom]; omega) ?_
    intro header hlength hfront'
    rw [hroom] at hlength
    rw [hkeep, ← hs] at hfront'
    -- the header is the front of the stream, and the name length is in it
    obtain ⟨rest, hrest⟩ := hfront'
    have hcut : nameLength (header ++ rest) = nameLength header :=
      nameLength_append (by omega)
    rw [hrest] at hcut
    rw [hlength, ← hcut]
    refine hname ?_
    rw [← hrest, List.length_append]
    omega
  · exact Or.inr (Decode.andThen_spent hspent)

/-- A stream that ends early does not always make the decoder return false. -/
theorem not_truncated_returns_false :
    ¬∀ chunks : List (List CChar), Truncated chunks.flatten →
      ∃ fuel, (deserializeFrom (Source.chunked false) fuel {} chunks).outcome =
        .returned false := by
  intro h
  obtain ⟨fuel, hfalse⟩ := h [foreignFrame.take 29] (by decide)
  exact deserializeFrom_ne_false Source.chunked_answers fuel {} _ hfalse

end V4LFrame

end NewCPP
