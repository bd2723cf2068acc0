import NewCPP.V4LFrameAsync

/-!
# Headers from an untrusted sender

Neither decoder checks the three length fields of a header.  This module says which
byte streams they survive: `HeaderFits` is the condition on the bytes, `HeaderSafe`
what a caller would want of the decoders on every stream.

* `headerSafe_iff` — the decoders are safe on a stream, however it is chunked, exactly
  when its header fits.
* `headerSafe_fails` — a 44-byte header with name length 127 makes both read past the
  header's end.

One direction says that a fitting header keeps every access of every run in range
(`deserializeFrom_inRange`, `asyncCall_inRange`); there the stream may stop anywhere.
The other one follows the blocking decoder to the first statement that goes wrong.

## Design notes

**Accesses.**  Each access of a decoder to its header is logged with the size that the header
has then, and `HeaderSafe` asks of both decoders that all of them are in range and that a header
whose lengths contradict one another is refused.

**Chunks.**  The resumable decoder may be called at any point of the stream, so that the
condition has to be one on the bytes alone.  It is: `HeaderFits` reads the length fields out of
them.
-/

namespace NewCPP

open Library

universe u

namespace V4LFrame

variable {σ : Type u} {R : IReadStream σ} {unread : σ → List CChar}

/-! ## The condition and the property -/

/-- As far as the stream goes: the announced header fits the announced frame, and the
header reaches beyond its 28 fixed bytes and holds its name. -/
structure HeaderFits (bytes : List CChar) : Prop where
  frame : 8 ≤ bytes.length → announcedHeaderSize bytes ≤ announcedFrameSize bytes
  header : announcedHeaderSize bytes ≤ bytes.length →
    converter.frameHeaderLength < announcedHeaderSize bytes
  name : announcedHeaderSize bytes ≤ bytes.length → 0 ≤ nameLength bytes ∧
    converter.frameHeaderLength + nameLength bytes ≤ announcedHeaderSize bytes

/-- The length fields that arrived contradict each other. -/
def Inconsistent (bytes : List CChar) : Prop :=
  8 ≤ bytes.length ∧ announcedFrameSize bytes < announcedHeaderSize bytes ∨
    announcedHeaderSize bytes ≤ bytes.length ∧
      (nameLength bytes < 0 ∨
        announcedHeaderSize bytes < converter.frameHeaderLength + nameLength bytes)

/-- What a caller would want on every stream: no run of a decoder leaves the header,
and one that meets inconsistent length fields returns false. -/
structure HeaderSafe (R : IReadStream σ) (unread : σ → List CChar) (s : σ) : Prop where
  blocking : ∀ fuel, ∀ access ∈ (deserializeFrom R fuel {} s).accesses, access.InRange
  blocking_rejects : Inconsistent (unread s) →
    ∃ fuel, (deserializeFrom R fuel {} s).outcome = .returned false
  resumable : ∀ k, (∀ i < k, (asyncCall R s i).outcome = .returned false) →
    ∀ access ∈ (asyncCall R s k).accesses, access.InRange
  resumable_rejects : Inconsistent (unread s) →
    ∀ k, (∀ i < k, (asyncCall R s i).outcome = .returned false) →
      (asyncCall R s k).outcome = .returned false

theorem HeaderFits.not_inconsistent {bytes : List CChar} (h : HeaderFits bytes) :
    ¬Inconsistent bytes := by
  rintro (⟨hlen, hlt⟩ | ⟨hlen, hname⟩)
  · have := h.frame hlen
    omega
  · have := h.name hlen
    omega

/-! ## The accesses of the phases -/

theorem fieldAccesses_inRange {offset len size : ℕ} (h : offset + len ≤ size) :
    ∀ access ∈ fieldAccesses offset len size, access.InRange := by
  intro access hmem
  obtain ⟨i, hi, rfl⟩ := List.mem_map.mp hmem
  have := List.mem_range.mp hi
  exact show offset + i < size by omega

/-- The accesses of a chain are those of its phases that ran. -/
theorem Decode.mem_accesses_andThen {run : Decode σ} {next : V4LFrame → σ → Decode σ}
    {access : HeaderAccess} (h : access ∈ (run.andThen next).accesses) :
    access ∈ run.accesses ∨
      run.outcome = .returned true ∧ access ∈ (next run.frame run.stream).accesses := by
  by_cases hrun : run.outcome = .returned true
  · rw [Decode.andThen_of_true hrun] at h
    rcases List.mem_append.mp h with h | h
    · exact Or.inl h
    · exact Or.inr ⟨hrun, h⟩
  · rw [Decode.andThen_of_ne hrun] at h
    exact Or.inl h

theorem Decode.mem_accesses_left {run : Decode σ} {next : V4LFrame → σ → Decode σ}
    {access : HeaderAccess} (h : access ∈ run.accesses) :
    access ∈ (run.andThen next).accesses := by
  by_cases hrun : run.outcome = .returned true
  · rw [Decode.andThen_of_true hrun]
    exact List.mem_append_left _ h
  · rwa [Decode.andThen_of_ne hrun]

theorem Decode.mem_accesses_right {run : Decode σ} {next : V4LFrame → σ → Decode σ}
    {access : HeaderAccess} (hrun : run.outcome = .returned true)
    (h : access ∈ (next run.frame run.stream).accesses) :
    access ∈ (run.andThen next).accesses := by
  rw [Decode.andThen_of_true hrun]
  exact List.mem_append_right _ h

@[simp] theorem ofLoop_accesses (loop : LoopEnd × List CChar × σ)
    (store : List CChar → V4LFrame) : (ofLoop loop store).accesses = [] := by
  obtain ⟨e, buf, s⟩ := loop
  cases e <;> rfl

theorem sizesPhase_accesses (frame : V4LFrame) (stream : σ) :
    (sizesPhase frame stream).accesses = sizeAccesses frame.mHeader := by
  unfold sizesPhase
  split <;> rfl

theorem sizeAccesses_inRange {mHeader : List CChar} (hlen : mHeader.length = 8)
    (hle : announcedHeaderSize mHeader ≤ announcedFrameSize mHeader) :
    ∀ access ∈ sizeAccesses mHeader, access.InRange := by
  intro access hmem
  rw [sizeAccesses, List.mem_append, List.mem_append] at hmem
  rcases hmem with (hmem | hmem) | hmem
  · exact fieldAccesses_inRange (by rw [converter.offsetFrameSize]; omega) _ hmem
  · exact fieldAccesses_inRange (by rw [converter.offsetHeaderSize]; omega) _ hmem
  · rw [List.mem_singleton.mp hmem]
    exact hle

theorem nameAccesses_inRange {mHeader : List CChar}
    (hlt : converter.frameHeaderLength < mHeader.length) (hn : 0 ≤ nameLength mHeader)
    (hname : converter.frameHeaderLength + nameLength mHeader ≤ mHeader.length) :
    ∀ access ∈ nameAccesses mHeader, access.InRange := by
  have h28 : converter.frameHeaderLength = 28 := rfl
  intro access hmem
  rw [nameAccesses, List.mem_append] at hmem
  rcases hmem with hmem | hmem
  · exact fieldAccesses_inRange (by rw [converter.offsetTimestamp]; omega) _ hmem
  · rcases List.mem_cons.mp hmem with rfl | hmem
    · exact show converter.offsetNameLength < mHeader.length by
        rw [converter.offsetNameLength]; omega
    · rcases List.mem_pair.mp hmem with rfl | rfl
      · exact hlt
      · exact ⟨hn, hname⟩

theorem videoAccesses_inRange {mVideoOffset size : ℕ} (h : mVideoOffset + 14 ≤ size) :
    ∀ access ∈ videoAccesses mVideoOffset size, access.InRange := by
  intro access hmem
  rw [videoAccesses, List.mem_append, List.mem_append, List.mem_append] at hmem
  rcases hmem with ((hmem | hmem) | hmem) | hmem
  · exact fieldAccesses_inRange (by rw [converter.offsetVideoWidth]; omega) _ hmem
  · exact fieldAccesses_inRange (by rw [converter.offsetVideoHeight]; omega) _ hmem
  · exact fieldAccesses_inRange (by rw [converter.offsetVideoBytesPerLine]; omega) _ hmem
  · rcases List.mem_pair.mp hmem with rfl | rfl
    · exact show mVideoOffset + converter.offsetVideoBitsPerPixel < size by
        rw [converter.offsetVideoBitsPerPixel]; omega
    · exact show mVideoOffset + converter.offsetVideoColorFormat < size by
        rw [converter.offsetVideoColorFormat]; omega

/-- Whatever `parseFields` ends with, it has touched the name fields. -/
theorem nameAccesses_subset (frame : V4LFrame) (stream : σ) :
    nameAccesses frame.mHeader ⊆ (parseFields frame stream).accesses := by
  simp only [parseFields]
  split
  · exact fun _ h => h
  · split
    · exact fun _ h => h
    · split
      · exact fun _ h => h
      · exact List.subset_append_left _ _

/-- A complete header of the stream that fits is parsed within its bounds. -/
theorem parseFields_of_fits (frame : V4LFrame) (stream : σ) {bytes : List CChar}
    (hfits : HeaderFits bytes) (hlen : announcedHeaderSize bytes ≤ bytes.length)
    (hheader : frame.mHeader = bytes.take (announcedHeaderSize bytes))
    (hvideo : frame.mVideoOffset =
      announcedHeaderSize bytes - converter.videoHeaderLength) :
    ∃ accesses,
      parseFields frame stream = ⟨.returned true, frame.assignFields, stream, accesses⟩ ∧
      ∀ access ∈ accesses, access.InRange := by
  have hlt := hfits.header hlen
  obtain ⟨hn, hname⟩ := hfits.name hlen
  have h28 : converter.frameHeaderLength = 28 := rfl
  have h16 : converter.videoHeaderLength = 16 := rfl
  have hsize : frame.mHeader.length = announcedHeaderSize bytes := by
    rw [hheader, List.length_take]
    omega
  have hnl : nameLength frame.mHeader = nameLength bytes := by
    rw [hheader, nameLength_take _ (by omega)]
  refine ⟨_, parseFields_of_le _ _ (by omega) (by omega), ?_⟩
  intro access hmem
  rcases List.mem_append.mp hmem with hmem | hmem
  · exact nameAccesses_inRange (by omega) (by omega) (by omega) _ hmem
  · exact videoAccesses_inRange (by omega) _ hmem

/-! ## Fitting headers are safe: the blocking decoder -/

theorem deserializeRest_inRange (hR : R.Lossless unread) {fuel : ℕ} {frame : V4LFrame}
    {s : σ} {bytes : List CChar} (hfits : HeaderFits bytes) (h8 : 8 ≤ bytes.length)
    (hfront : frame.mHeader.take 8 = bytes.take 8)
    (hsize : frame.mHeader.length = announcedHeaderSize bytes)
    (hvideo : frame.mVideoOffset =
      announcedHeaderSize bytes - converter.videoHeaderLength)
    (hs : unread s = bytes.drop 8) :
    ∀ access ∈ (deserializeRest R fuel frame s).accesses, access.InRange := by
  have hle := hfits.frame h8
  have hlt := announcedFrameSize_lt bytes
  have hge := announcedHeaderSize_ge bytes
  have h16 : converter.videoHeaderLength = 16 := rfl
  intro access hmem
  rcases Decode.mem_accesses_andThen hmem with hmem | ⟨htrue, hmem⟩
  · rw [readHeader, ofLoop_accesses] at hmem
    exact absurd hmem List.not_mem_nil
  · obtain ⟨cells, hcells, hsplit, hframe⟩ :=
      readHeader_true hR frame (by omega) (by omega) htrue
    have hbytes : bytes =
        (bytes.take 8 ++ cells) ++ unread (readHeader R fuel frame s).stream := by
      rw [List.append_assoc, ← hsplit, hs, List.take_append_drop]
    have hlen : (bytes.take 8 ++ cells).length = announcedHeaderSize bytes := by
      rw [List.length_append, List.length_take]
      omega
    have htake : bytes.take (announcedHeaderSize bytes) = bytes.take 8 ++ cells :=
      (congrArg (List.take (announcedHeaderSize bytes)) hbytes).trans (List.take_left' hlen)
    have harrived := congrArg List.length hbytes
    rw [List.length_append, hlen] at harrived
    rw [hframe] at hmem
    rcases Decode.mem_accesses_andThen hmem with hmem | ⟨-, hmem⟩
    · obtain ⟨accesses, hparse, hrange⟩ := parseFields_of_fits
        { frame with mHeader := frame.mHeader.take 8 ++ cells }
        (readHeader R fuel frame s).stream hfits (by omega)
        (by rw [hfront, htake]) hvideo
      rw [hparse] at hmem
      exact hrange _ hmem
    · rw [readPayload, ofLoop_accesses] at hmem
      exact absurd hmem List.not_mem_nil

theorem deserializeFrom_inRange (hR : R.Lossless unread) {fuel : ℕ} {frame : V4LFrame}
    {s : σ} (hfits : HeaderFits (unread s)) :
    ∀ access ∈ (deserializeFrom R fuel frame s).accesses, access.InRange := by
  intro access hmem
  rcases Decode.mem_accesses_andThen hmem with hmem | ⟨htrue, hmem⟩
  · rw [readSizeBytes, ofLoop_accesses] at hmem
    exact absurd hmem List.not_mem_nil
  · obtain ⟨cells, hcells, hsplit, hframe⟩ := readSizeBytes_true hR htrue
    have h8 : 8 ≤ (unread s).length := by
      rw [hsplit, List.length_append]
      omega
    have hfront : (unread s).take 8 = cells := by
      rw [hsplit, ← hcells, List.take_left]
    have hf : announcedFrameSize cells = announcedFrameSize (unread s) := by
      rw [← hfront, announcedFrameSize_take _ (by omega)]
    have hh : announcedHeaderSize cells = announcedHeaderSize (unread s) := by
      rw [← hfront, announcedHeaderSize_take _ (by omega)]
    have hle := hfits.frame h8
    have hge := announcedHeaderSize_ge (unread s)
    have h16 : converter.videoHeaderLength = 16 := rfl
    rw [hframe] at hmem
    rcases Decode.mem_accesses_andThen hmem with hmem | ⟨-, hmem⟩
    · rw [sizesPhase_accesses] at hmem
      exact sizeAccesses_inRange hcells (by rw [hf, hh]; exact hle) _ hmem
    · rw [sizesPhase_of_le { frame with mHeader := cells } _ hf hh hle] at hmem
      have hkeep : (resize cells (announcedHeaderSize (unread s))).take 8 = cells := by
        rw [← hcells]
        exact take_resize (by omega)
      refine deserializeRest_inRange hR hfits h8 ?_ (length_resize _ _) rfl ?_ _ hmem
      · rw [hfront]
        exact hkeep
      · rw [hsplit, ← hcells, List.drop_left]

/-! ## Fitting headers are safe: the resumable decoder -/

/-- What a frame of an unfinished run holds: `Awaiting`, for a stream that need not
contain a frame. -/
inductive Receiving (unread : σ → List CChar) (bytes : List CChar) : V4LFrame → σ → Prop
  | sizes {frame : V4LFrame} {s : σ} {c : ℕ} (state : frame.state = .ifHeader) (lt : c < 8)
      (accumulated : frame.accumulated = c) (buffer : frame.mHeader.length = 8 ∨ c = 0)
      (stored : frame.mHeader.take c = bytes.take c) (there : c ≤ bytes.length)
      (left : unread s = bytes.drop c) : Receiving unread bytes frame s
  | header {frame : V4LFrame} {s : σ} {c : ℕ} (state : frame.state = .v4lHeader)
      (le : c ≤ announcedHeaderSize bytes) (accumulated : frame.accumulated = c)
      (buffer : frame.mHeader.length = announcedHeaderSize bytes)
      (stored : frame.mHeader.take c = bytes.take c)
      (video : frame.mVideoOffset = announcedHeaderSize bytes - converter.videoHeaderLength)
      (there : c ≤ bytes.length) (left : unread s = bytes.drop c) :
      Receiving unread bytes frame s
  | body {frame : V4LFrame} {s : σ} (state : frame.state = .v4lBody) :
      Receiving unread bytes frame s

/-- A run within bounds that can be resumed when it returned false. -/
def Within (unread : σ → List CChar) (bytes : List CChar) (run : Decode σ) : Prop :=
  (∀ access ∈ run.accesses, access.InRange) ∧
    (run.outcome = .returned false → Receiving unread bytes run.frame run.stream)

theorem Within.andThen {bytes : List CChar} {run : Decode σ}
    {next : V4LFrame → σ → Decode σ} (hrun : Within unread bytes run)
    (hnext : run.outcome = .returned true →
      Within unread bytes (next run.frame run.stream)) :
    Within unread bytes (run.andThen next) := by
  by_cases htrue : run.outcome = .returned true
  · rw [Decode.andThen_of_true htrue]
    refine ⟨fun access hmem => ?_, (hnext htrue).2⟩
    rcases List.mem_append.mp hmem with hmem | hmem
    · exact hrun.1 _ hmem
    · exact (hnext htrue).1 _ hmem
  · rwa [Decode.andThen_of_ne htrue]

section Phases

variable {bytes : List CChar}

theorem fillBody_within {frame : V4LFrame} {s : σ} (hstate : frame.state = .v4lBody) :
    Within unread bytes (fillBody R frame s) := by
  simp only [fillBody]
  split
  · exact ⟨fun access hmem => absurd hmem List.not_mem_nil, fun h => by cases h⟩
  · exact ⟨fun access hmem => absurd hmem List.not_mem_nil,
      fun _ => Receiving.body hstate⟩

variable (hR : R.Lossless unread) (hfits : HeaderFits bytes)

include hR hfits

theorem parseV4LFrameHeader_within (frame : V4LFrame) {c : ℕ} {s : σ}
    (hstate : frame.state = .v4lHeader) (hle : c ≤ announcedHeaderSize bytes)
    (hacc : frame.accumulated = c)
    (hbuffer : frame.mHeader.length = announcedHeaderSize bytes)
    (hstored : frame.mHeader.take c = bytes.take c)
    (hvideo : frame.mVideoOffset = announcedHeaderSize bytes - converter.videoHeaderLength)
    (hthere : c ≤ bytes.length) (hs : unread s = bytes.drop c) :
    Within unread bytes ((parseV4LFrameHeader R frame s).andThen (fillBody R)) := by
  obtain ⟨act, buf, s', hrun, -, hle', hlen, htake, hthere', hs', -⟩ :=
    fillupBuffer_window hR frame.mHeader 0 c s
      (by omega) (by omega) hstored (by rw [hs, Nat.zero_add])
  rw [← hacc] at hrun
  rw [Nat.zero_add] at hs' hthere'
  by_cases hfull : act = frame.mHeader.length
  · rw [decide_eq_true hfull] at hrun
    have hall : buf = bytes.take (announcedHeaderSize bytes) := by
      rw [← List.take_length (l := buf), hlen, ← hfull, htake, hfull, hbuffer]
      rfl
    obtain ⟨accesses, hparse, hrange⟩ := parseFields_of_fits
      { frame with mHeader := buf, accumulated := act } s' hfits
      (by omega) hall hvideo
    rw [parseV4LFrameHeader_filled hrun hparse]
    exact Within.andThen ⟨hrange, fun h => by cases h⟩ fun _ => fillBody_within rfl
  · rw [decide_eq_false hfull] at hrun
    rw [parseV4LFrameHeader_short hrun]
    refine Within.andThen ⟨fun access hmem => absurd hmem List.not_mem_nil, fun _ => ?_⟩
      fun h => by cases h
    exact Receiving.header (c := act) hstate (by omega) rfl (by rw [hlen, hbuffer]) htake hvideo
      hthere' hs'

theorem parseIFrameHeader_within {frame : V4LFrame} {c : ℕ} {s : σ}
    (hstate : frame.state = .ifHeader) (hlt : c < 8) (hacc : frame.accumulated = c)
    (hbuffer : frame.mHeader.length = 8 ∨ c = 0)
    (hstored : frame.mHeader.take c = bytes.take c) (hthere : c ≤ bytes.length)
    (hs : unread s = bytes.drop c) :
    Within unread bytes ((parseIFrameHeader R frame s).andThen fun frame stream =>
      (parseV4LFrameHeader R frame stream).andThen (fillBody R)) := by
  have hge := announcedHeaderSize_ge bytes
  have h16 : converter.videoHeaderLength = 16 := rfl
  obtain ⟨cells, hcells, hsized, hkept⟩ := sizeBuffer_kept hbuffer hstored
  obtain ⟨act, buf, s', hrun, -, hle', hlen, htake, hthere', hs', -⟩ :=
    fillupBuffer_window hR cells 0 c s
      (by omega) (by omega) hkept (by rw [hs, Nat.zero_add])
  rw [← hacc] at hrun
  rw [Nat.zero_add] at hs' hthere'
  by_cases hfull : act = cells.length
  · rw [decide_eq_true hfull] at hrun
    have hall : buf = bytes.take 8 := by
      rw [← List.take_length (l := buf), hlen, ← hfull, htake, hfull, hsized]
      rfl
    have hf : announcedFrameSize buf = announcedFrameSize bytes := by
      rw [hall, announcedFrameSize_take _ (by omega)]
    have hh : announcedHeaderSize buf = announcedHeaderSize bytes := by
      rw [hall, announcedHeaderSize_take _ (by omega)]
    have hheader := hfits.frame (by omega)
    have hsizes := sizesPhase_of_le { frame with mHeader := buf, accumulated := act } s' hf hh
      hheader
    have htaken : (resize buf (announcedHeaderSize bytes)).take 8 = bytes.take 8 :=
      resize_sizes hall (by omega) (by omega)
    rw [parseIFrameHeader_filled hcells hrun hsizes]
    have hrange : ∀ access ∈ sizeAccesses buf, access.InRange :=
      sizeAccesses_inRange (by omega) (by omega)
    refine Within.andThen ⟨hrange, fun h => by cases h⟩ fun _ => ?_
    exact parseV4LFrameHeader_within hR hfits (c := act)
      { sized { frame with mHeader := buf, accumulated := act }
        (announcedFrameSize bytes) (announcedHeaderSize bytes) with state := .v4lHeader }
      rfl (by omega) rfl (length_resize _ _) (by rw [hfull, hsized]; exact htaken) rfl
      hthere' hs'
  · rw [decide_eq_false hfull] at hrun
    rw [parseIFrameHeader_short hcells hrun]
    refine Within.andThen ⟨fun access hmem => absurd hmem List.not_mem_nil, fun _ => ?_⟩
      fun h => by cases h
    exact Receiving.sizes (c := act) hstate (by omega) rfl (Or.inl (by rw [hlen, hsized]))
      htake hthere' hs'

theorem asyncDeserializeFrom_within {frame : V4LFrame} {s : σ}
    (h : Receiving unread bytes frame s) :
    Within unread bytes (asyncDeserializeFrom R frame s) := by
  unfold asyncDeserializeFrom
  cases h with
  | sizes state lt accumulated buffer stored there left =>
      rw [state]
      exact parseIFrameHeader_within hR hfits state lt accumulated buffer stored there left
  | header state le accumulated buffer stored video there left =>
      rw [state]
      exact parseV4LFrameHeader_within hR hfits _ state le accumulated buffer stored video
        there left
  | body state =>
      rw [state]
      exact fillBody_within state

end Phases

theorem asyncCall_within (hR : R.Lossless unread) {s : σ} (hfits : HeaderFits (unread s))
    (k : ℕ) (hfalse : ∀ i < k, (asyncCall R s i).outcome = .returned false) :
    Within unread (unread s) (asyncCall R s k) := by
  induction k with
  | zero =>
      exact asyncDeserializeFrom_within hR hfits (Receiving.sizes (c := 0) rfl (by omega) rfl
        (Or.inr rfl) rfl (Nat.zero_le _) rfl)
  | succ k ih =>
      have hlast := ih fun i hi => hfalse i (Nat.lt_succ_of_lt hi)
      exact asyncDeserializeFrom_within hR hfits (hlast.2 (hfalse k (Nat.lt_succ_self k)))

/-- **Fitting headers are safe**, on every lossless stream. -/
theorem HeaderFits.safe (hR : R.Lossless unread) {s : σ} (hfits : HeaderFits (unread s)) :
    HeaderSafe R unread s where
  blocking _ := deserializeFrom_inRange hR hfits
  blocking_rejects h := absurd h hfits.not_inconsistent
  resumable k hfalse := (asyncCall_within hR hfits k hfalse).1
  resumable_rejects h := absurd h hfits.not_inconsistent

/-! ## Only fitting headers are safe -/

/-- A blocking decoder that has the two sizes computes the size of the payload. -/
theorem payload_mem_accesses {budget : σ → ℕ} {limit : ℕ}
    (hR : R.Delivers unread budget limit) (hlimit : 2 ^ 32 ≤ limit) {s : σ} {fuel : ℕ}
    (hfuel : budget s < fuel) (h8 : 8 ≤ (unread s).length) :
    .payload (announcedFrameSize (unread s)) (announcedHeaderSize (unread s)) ∈
      (deserializeFrom R fuel {} s).accesses := by
  have hsplit : unread s = unread s ++ [] := (List.append_nil _).symm
  obtain ⟨s₁, hrun₁, -, -⟩ := readSizeBytes_done hR (by omega) {} hsplit h8 hfuel
  rw [deserializeFrom, hrun₁]
  refine Decode.mem_accesses_right rfl (Decode.mem_accesses_left ?_)
  rw [sizesPhase_accesses, sizeAccesses, announcedFrameSize_take _ (by omega),
    announcedHeaderSize_take _ (by omega)]
  exact List.mem_append_right _ (List.mem_singleton.mpr rfl)

/-- One that has the header reads the name from it. -/
theorem nameAccesses_mem_accesses {budget : σ → ℕ} {limit : ℕ}
    (hR : R.Delivers unread budget limit) (hlimit : 2 ^ 32 ≤ limit) {s : σ} {fuel : ℕ}
    (hfuel : budget s < fuel)
    (hle : announcedHeaderSize (unread s) ≤ announcedFrameSize (unread s))
    (hlen : announcedHeaderSize (unread s) ≤ (unread s).length) :
    ∀ access ∈ nameAccesses ((unread s).take (announcedHeaderSize (unread s))),
      access ∈ (deserializeFrom R fuel {} s).accesses := by
  have hsplit : unread s = unread s ++ [] := (List.append_nil _).symm
  have hge := announcedHeaderSize_ge (unread s)
  have hlt := announcedFrameSize_lt (unread s)
  have h28 : converter.frameHeaderLength = 28 := rfl
  have h16 : converter.videoHeaderLength = 16 := rfl
  obtain ⟨s₁, hrun₁, hs₁, hb₁⟩ :=
    readSizeBytes_done hR (by omega) {} hsplit (by omega) hfuel
  have hsizes := sizesPhase_of_le { ({} : V4LFrame) with mHeader := (unread s).take 8 } s₁
    (announcedFrameSize_take _ (by omega)) (announcedHeaderSize_take _ (by omega)) hle
  obtain ⟨s₂, hrun₂, -, -⟩ := readHeader_done hR fuel
    { ({} : V4LFrame) with mHeader := (unread s).take 8 } (announcedFrameSize (unread s))
    (announcedHeaderSize (unread s)) (by omega) (by omega) (by omega) rfl hs₁
    hlen (by omega)
  intro access hmem
  rw [deserializeFrom, hrun₁]
  refine Decode.mem_accesses_right rfl ?_
  dsimp only
  rw [hsizes]
  refine Decode.mem_accesses_right rfl ?_
  dsimp only
  rw [deserializeRest, hrun₂]
  refine Decode.mem_accesses_right rfl (Decode.mem_accesses_left ?_)
  exact nameAccesses_subset _ _ hmem

/-- A blocking decoder that stays in range has met a fitting header. -/
theorem headerFits_of_inRange {budget : σ → ℕ} {limit : ℕ}
    (hR : R.Delivers unread budget limit) (hlimit : 2 ^ 32 ≤ limit) {s : σ} {fuel : ℕ}
    (hfuel : budget s < fuel)
    (hrange : ∀ access ∈ (deserializeFrom R fuel {} s).accesses, access.InRange) :
    HeaderFits (unread s) := by
  have hge := announcedHeaderSize_ge (unread s)
  have h28 : converter.frameHeaderLength = 28 := rfl
  have h16 : converter.videoHeaderLength = 16 := rfl
  have hframe (h8 : 8 ≤ (unread s).length) :
      announcedHeaderSize (unread s) ≤ announcedFrameSize (unread s) :=
    hrange _ (payload_mem_accesses hR hlimit hfuel h8)
  have hname (hlen : announcedHeaderSize (unread s) ≤ (unread s).length) :
      ∀ access ∈ nameAccesses ((unread s).take (announcedHeaderSize (unread s))),
        access.InRange := fun access hmem =>
    hrange access (nameAccesses_mem_accesses hR hlimit hfuel (hframe (by omega)) hlen
      access hmem)
  have hlast (hlen : announcedHeaderSize (unread s) ≤ (unread s).length) :
      HeaderAccess.InRange (.index converter.frameHeaderLength
        ((unread s).take (announcedHeaderSize (unread s))).length) ∧
      HeaderAccess.InRange (.name (nameLength ((unread s).take (announcedHeaderSize (unread s))))
        ((unread s).take (announcedHeaderSize (unread s))).length) := by
    refine ⟨hname hlen _ ?_, hname hlen _ ?_⟩ <;>
      simp only [nameAccesses, List.mem_append, List.mem_cons, true_or, or_true]
  refine ⟨hframe, fun hlen => ?_, fun hlen => ?_⟩
  · obtain ⟨hindex, -⟩ := hlast hlen
    change converter.frameHeaderLength < List.length _ at hindex
    rw [List.length_take] at hindex
    omega
  · obtain ⟨-, hn, hle⟩ := hlast hlen
    rw [nameLength_take _ (by omega)] at hn hle
    rw [List.length_take] at hle
    exact ⟨hn, by omega⟩

/-- **Which streams the decoders survive.**  For every byte stream and every chunking of
it, stalls included, both decoders keep all their header accesses in range and reject
inconsistent headers exactly when the header fits. -/
theorem headerSafe_iff (closed : Bool) (chunks : List (List CChar)) :
    HeaderSafe (Source.chunked closed) List.flatten chunks ↔ HeaderFits chunks.flatten := by
  constructor
  · intro h
    exact headerFits_of_inRange (Source.chunked_delivers closed (2 ^ 32)) (Nat.le_refl _)
      (Nat.lt_succ_self _) (h.blocking _)
  · exact HeaderFits.safe (Source.chunked_lossless closed)

/-- A 44-byte frame without payload whose name length byte is 127. -/
def overlongName : List CChar :=
  [0, 0, 0, 44, 0, 0, 0, 24, 1, 0, 127, 0] ++ List.replicate 32 0

/-- Both decoders read 111 bytes behind the end of this header. -/
theorem headerSafe_fails :
    ¬HeaderSafe (Source.chunked true) List.flatten [overlongName] ∧
      (deserializeFrom (Source.chunked true) 10 {} [overlongName]).outcome = .undefined ∧
      (asyncCall (Source.chunked true) [overlongName] 0).outcome = .undefined := by
  refine ⟨fun h => ?_, by decide, by decide⟩
  have hrange := h.blocking 10 (.name 127 44) (by decide)
  exact absurd hrange (by decide)

end V4LFrame

end NewCPP
