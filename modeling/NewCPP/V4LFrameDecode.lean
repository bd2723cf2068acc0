import NewCPP.V4LFrame

/-!
# What the blocking decoder computes

`DeserializeFrom` is a function of the bytes it consumes.  `decodedFrom frame bytes`
is that function, without streams, loops or fuel, and `WellFormed` its domain: the
name lies inside the header, the header inside the frame, the frame inside the bytes.

* `deserializeFrom_of_wellFormed` — over a source with short reads the decoder
  returns true on a well-formed frame, consumes exactly its bytes and leaves
  `decodedFrom`.
* `deserializeFrom_returned_true` — conversely, over any lossless source, a run that
  returns true consumed a well-formed frame and left `decodedFrom`.

Both go phase by phase; the read loops are `readLoop_done` and `readLoop_inv`.

## Design notes

**Sources.**  A source is any reader of `Library.Source`: it may return less than it was asked
for, and `IReadStream` says when it returns a negative result.  The two theorems ask different
things of it, since one is about a run that succeeds and the other about what made it succeed.

**Offsets.**  `Decode` carries the accesses that the decoder makes to its header.  Here they are
all in range, because the frame is well formed; `V4LFrameHostile` is about those that are not.
-/

namespace NewCPP

open Library

universe u

namespace V4LFrame

variable {σ : Type u} {R : IReadStream σ} {unread : σ → List CChar}
variable {budget : σ → ℕ} {limit : ℕ}

/-! ## The read loop -/

/-- A loop whose bytes are on the stream ends with the buffer filled by them. -/
theorem readLoop_done (hR : R.Delivers unread budget limit) {size : ℕ}
    (hsize : size < 2 ^ 32) (hlimit : size < limit) :
    ∀ (fuel : ℕ) (buf : List CChar) (bytesRead : ℕ) (s : σ) (bs rest : List CChar),
      bytesRead < size → buf.length = size → unread s = bs ++ rest →
      bs.length = size - bytesRead → budget s < fuel →
      ∃ s', readLoop R size fuel buf bytesRead s =
          (.done, buf.take bytesRead ++ bs, s') ∧
        unread s' = rest ∧ budget s' ≤ budget s := by
  intro fuel
  induction fuel with
  | zero => intro buf bytesRead s bs rest _ _ _ _ hfuel; omega
  | succ fuel ih =>
      intro buf bytesRead s bs rest hlt hbuf hs hbs hfuel
      have hne : unread s ≠ [] := by
        rw [hs]
        intro hnil
        have := List.append_eq_nil_iff.mp hnil
        simp only [this.1, List.length_nil] at hbs
        omega
      obtain ⟨c, s₁, hread, hbudget⟩ :=
        hR.progress (n := size - bytesRead) (by omega) (by omega) hne
      have hc : c.length ≤ size - bytesRead := R.length_le hread
      -- the answer is the front of the missing bytes
      obtain ⟨bs', rfl⟩ : ∃ bs', bs = c ++ bs' := by
        have happ : bs ++ rest = c ++ unread s₁ := hs.symm.trans (hR.answered hread)
        obtain ⟨a', h⟩ | ⟨c', h, -⟩ := List.append_eq_append_iff.mp happ
        · refine ⟨[], ?_⟩
          have hnil : a' = [] := by
            have hlen := congrArg List.length h.1
            rw [List.length_append] at hlen
            exact List.length_eq_zero_iff.mp (by omega)
          rw [h.1, hnil, List.append_nil, List.append_nil]
        · exact ⟨c', h⟩
      have hs₁ : unread s₁ = bs' ++ rest := by
        have happ := hs.symm.trans (hR.answered hread)
        rw [List.append_assoc] at happ
        exact (List.append_cancel_left happ).symm
      rw [List.length_append] at hbs
      have hmod : (bytesRead + c.length) % 2 ^ 32 = bytesRead + c.length :=
        Nat.mod_eq_of_lt (by omega)
      have hfit : bytesRead + c.length ≤ buf.length := by omega
      have htake := Buffer.take_blit hfit
      simp only [readLoop, hread, hmod]
      by_cases hend : bytesRead + c.length = size
      · have hnil : bs' = [] := List.length_eq_zero_iff.mp (by omega)
        rw [if_neg (by omega)]
        refine ⟨s₁, ?_, by rw [hs₁, hnil, List.nil_append], by omega⟩
        have hall : Buffer.blit buf bytesRead c = buf.take bytesRead ++ c := by
          rw [← htake, List.take_of_length_le (by rw [Buffer.length_blit hfit]; omega)]
        rw [hall, hnil, List.append_nil]
      · rw [if_pos hend]
        obtain ⟨s', hloop, hrest, hle⟩ := ih (Buffer.blit buf bytesRead c)
          (bytesRead + c.length) s₁ bs' rest
          (by omega) (by rw [Buffer.length_blit hfit, hbuf]) hs₁ (by omega) (by omega)
        refine ⟨s', ?_, hrest, by omega⟩
        rw [hloop, htake, List.append_assoc]

/-- A loop over nothing makes one empty request. -/
theorem readLoop_nothing (hR : R.ShortReads unread limit) (fuel : ℕ) (hfuel : 0 < fuel)
    (s : σ) : ∃ s', readLoop R 0 fuel [] 0 s = (.done, [], s') ∧ unread s' = unread s := by
  obtain ⟨m, rfl⟩ : ∃ m, fuel = m + 1 := ⟨fuel - 1, by omega⟩
  obtain ⟨s', hread⟩ := hR.nothing s
  refine ⟨s', ?_, by rw [hR.answered hread, List.nil_append]⟩
  simp [readLoop, hread]

/-- A loop that ends has filled the buffer with the bytes it consumed. -/
theorem readLoop_inv (hR : R.Lossless unread) {size : ℕ} (hsize : size < 2 ^ 32) :
    ∀ (fuel : ℕ) {buf : List CChar} {bytesRead : ℕ} {s s' : σ} {buf' : List CChar},
      bytesRead ≤ size → buf.length = size →
      readLoop R size fuel buf bytesRead s = (.done, buf', s') →
      ∃ bs, unread s = bs ++ unread s' ∧ bs.length = size - bytesRead ∧
        buf' = buf.take bytesRead ++ bs := by
  intro fuel
  induction fuel with
  | zero => intro buf bytesRead s s' buf' _ _ h; cases h
  | succ fuel ih =>
      intro buf bytesRead s s' buf' hle hbuf h
      rw [readLoop] at h
      split at h
      · cases h
      · rename_i c s₁ hread
        have hc : c.length ≤ size - bytesRead := R.length_le hread
        have hmod : (bytesRead + c.length) % 2 ^ 32 = bytesRead + c.length :=
          Nat.mod_eq_of_lt (by omega)
        have hfit : bytesRead + c.length ≤ buf.length := by omega
        have htake := Buffer.take_blit hfit
        simp only [hmod] at h
        split at h
        · obtain ⟨bs, hs, hlen, hbuf'⟩ :=
            ih (by omega) (by rw [Buffer.length_blit hfit, hbuf]) h
          refine ⟨c ++ bs, ?_, by rw [List.length_append]; omega, ?_⟩
          · rw [hR.answered hread, hs, List.append_assoc]
          · rw [hbuf', htake, List.append_assoc]
        · cases h
          refine ⟨c, hR.answered hread, by omega, ?_⟩
          rw [← htake, List.take_of_length_le (by rw [Buffer.length_blit hfit]; omega)]

/-! ## Chaining phases -/

theorem Decode.andThen_of_true {run : Decode σ} {next : V4LFrame → σ → Decode σ}
    (h : run.outcome = .returned true) :
    run.andThen next =
      { next run.frame run.stream with
        accesses := run.accesses ++ (next run.frame run.stream).accesses } := by
  rw [Decode.andThen, if_pos h]

theorem Decode.andThen_of_ne {run : Decode σ} {next : V4LFrame → σ → Decode σ}
    (h : run.outcome ≠ .returned true) : run.andThen next = run := by
  rw [Decode.andThen, if_neg h]

/-- A chain returns true when both phases do. -/
theorem Decode.andThen_true {run : Decode σ} {next : V4LFrame → σ → Decode σ}
    (h : (run.andThen next).outcome = .returned true) :
    run.outcome = .returned true ∧
      (next run.frame run.stream).outcome = .returned true ∧
      (run.andThen next).frame = (next run.frame run.stream).frame ∧
      (run.andThen next).stream = (next run.frame run.stream).stream := by
  by_cases hrun : run.outcome = .returned true
  · rw [Decode.andThen_of_true hrun] at h ⊢
    exact ⟨hrun, h, rfl, rfl⟩
  · rw [Decode.andThen_of_ne hrun] at h
    exact absurd h hrun

theorem ofLoop_true {loop : LoopEnd × List CChar × σ} {store : List CChar → V4LFrame}
    (h : (ofLoop loop store).outcome = .returned true) :
    ∃ buf s, loop = (.done, buf, s) ∧
      ofLoop loop store = ⟨.returned true, store buf, s, []⟩ := by
  obtain ⟨e, buf, s⟩ := loop
  cases e with
  | done => exact ⟨buf, s, rfl, rfl⟩
  | failed => cases h
  | spent => cases h

/-! ## Well-formed frames -/

/-- The fields of a frame's bytes are consistent: the name lies in the header, the
header in the frame, the frame in the bytes. -/
structure WellFormed (bytes : List CChar) : Prop where
  name_nonneg : 0 ≤ nameLength bytes
  name_le : converter.frameHeaderLength + (nameLength bytes).toNat ≤
    announcedHeaderSize bytes
  header_le : announcedHeaderSize bytes ≤ announcedFrameSize bytes
  available : announcedFrameSize bytes ≤ bytes.length

/-- A frame that `prepareHeader` cannot lay out: the video header starts at byte 13 and
overlaps the media types, the timestamp and the one byte of the name. -/
def foreignFrame : List CChar :=
  [0, 0, 0, 30, 0, 0, 0, 9, 7, 7, 1, 9, 1, 2, 3, 4, 5, 6, 7, 8, 9, 10, 11, 12, 13, 14, 15, 16,
    65, -5]

/-- The frame that decoding `bytes` leaves: the header kept as it is, the fields
parsed from it, the rest of the frame as payload. -/
def decodedFrom (frame : V4LFrame) (bytes : List CChar) : V4LFrame :=
  assignFields { frame with
    mDataContainer := Buffer.window bytes (announcedHeaderSize bytes)
      (announcedFrameSize bytes - announcedHeaderSize bytes)
    mVideoOffset := announcedHeaderSize bytes - converter.videoHeaderLength
    mHeader := bytes.take (announcedHeaderSize bytes) }

/-! ### The size fields are in the first eight bytes, the name length in the first 28 -/

theorem announcedFrameSize_take (bytes : List CChar) {n : ℕ} (h : 4 ≤ n) :
    announcedFrameSize (bytes.take n) = announcedFrameSize bytes := by
  rw [announcedFrameSize, announcedFrameSize, ConverterUtils.getU32_eq_word32,
    ConverterUtils.getU32_eq_word32,
    Buffer.window_take _ (by simpa [converter.offsetFrameSize])]

theorem announcedHeaderSize_take (bytes : List CChar) {n : ℕ} (h : 8 ≤ n) :
    announcedHeaderSize (bytes.take n) = announcedHeaderSize bytes := by
  rw [announcedHeaderSize, announcedHeaderSize, ConverterUtils.getU32_eq_word32,
    ConverterUtils.getU32_eq_word32,
    Buffer.window_take _ (by simpa [converter.offsetHeaderSize])]

theorem nameLength_take (bytes : List CChar) {n : ℕ} (h : 11 ≤ n) :
    nameLength (bytes.take n) = nameLength bytes := by
  have hcell : (bytes.take n).getD converter.offsetNameLength 0 =
      bytes.getD converter.offsetNameLength 0 := by
    rw [List.getD_eq_getElem?_getD, List.getD_eq_getElem?_getD, List.getElem?_take,
      if_pos (by simp only [converter.offsetNameLength]; omega)]
  rw [nameLength, nameLength, hcell]

theorem announcedFrameSize_append {bytes tail : List CChar} (h : 4 ≤ bytes.length) :
    announcedFrameSize (bytes ++ tail) = announcedFrameSize bytes := by
  rw [← announcedFrameSize_take (bytes ++ tail) h, List.take_left]

theorem announcedHeaderSize_append {bytes tail : List CChar} (h : 8 ≤ bytes.length) :
    announcedHeaderSize (bytes ++ tail) = announcedHeaderSize bytes := by
  rw [← announcedHeaderSize_take (bytes ++ tail) h, List.take_left]

theorem nameLength_append {bytes tail : List CChar} (h : 11 ≤ bytes.length) :
    nameLength (bytes ++ tail) = nameLength bytes := by
  rw [← nameLength_take (bytes ++ tail) h, List.take_left]

theorem announcedFrameSize_lt (mHeader : List CChar) :
    announcedFrameSize mHeader < 2 ^ 32 :=
  UInt32.toNat_lt _

theorem announcedHeaderSize_ge (mHeader : List CChar) :
    converter.videoHeaderLength ≤ announcedHeaderSize mHeader :=
  Nat.le_add_left _ _

theorem announcedHeaderSize_lt (mHeader : List CChar) :
    announcedHeaderSize mHeader < 2 ^ 32 + converter.videoHeaderLength :=
  Nat.add_lt_add_right (UInt32.toNat_lt _) _

/-! ## The phases -/

/-- The payload is allocated exactly when the subtraction does not wrap. -/
theorem newChar_sizeSub {frameSize headerSize : ℕ} (hf : frameSize < 2 ^ 32)
    (hh : headerSize < 2 ^ 32 + 16) :
    newChar (sizeSub frameSize headerSize) =
      if headerSize ≤ frameSize then some (List.replicate (frameSize - headerSize) 0)
      else none := by
  unfold newChar sizeSub
  by_cases h : headerSize ≤ frameSize
  · have hsub : (frameSize + (2 ^ 64 - headerSize)) % 2 ^ 64 = frameSize - headerSize := by
      omega
    rw [hsub, if_pos (by omega), if_pos h]
  · rw [if_neg (by omega), if_neg h]

/-- The frame between the size fields and the rest of its header. -/
def sized (frame : V4LFrame) (frameSize headerSize : ℕ) : V4LFrame :=
  { frame with
    mDataContainer := List.replicate (frameSize - headerSize) 0
    mVideoOffset := headerSize - converter.videoHeaderLength
    mHeader := resize frame.mHeader headerSize }

theorem length_mHeader_sized (frame : V4LFrame) (frameSize headerSize : ℕ) :
    (sized frame frameSize headerSize).mHeader.length = headerSize :=
  length_resize _ _

/-- The size bytes stay at the front of the header. -/
theorem take_mHeader_sized {frame : V4LFrame} {frameSize headerSize : ℕ} {cells : List CChar}
    (hcells : cells.length ≤ headerSize) :
    (sized { frame with mHeader := cells } frameSize headerSize).mHeader.take cells.length =
      cells :=
  take_resize hcells

theorem parseSizes_eq (frame : V4LFrame) :
    frame.parseSizes =
      if announcedHeaderSize frame.mHeader ≤ announcedFrameSize frame.mHeader then
        some (frame.sized (announcedFrameSize frame.mHeader)
          (announcedHeaderSize frame.mHeader))
      else none := by
  simp only [parseSizes, newChar_sizeSub (announcedFrameSize_lt _) (announcedHeaderSize_lt _)]
  split <;> rfl

theorem sizesPhase_of_le (frame : V4LFrame) (stream : σ) {frameSize headerSize : ℕ}
    (hf : announcedFrameSize frame.mHeader = frameSize)
    (hh : announcedHeaderSize frame.mHeader = headerSize) (hle : headerSize ≤ frameSize) :
    sizesPhase frame stream =
      ⟨.returned true, frame.sized frameSize headerSize, stream,
        sizeAccesses frame.mHeader⟩ := by
  have h : frame.parseSizes = some (frame.sized frameSize headerSize) := by
    rw [parseSizes_eq, hf, hh, if_pos hle]
  unfold sizesPhase
  rw [h]

theorem sizesPhase_of_lt {frame : V4LFrame} {stream : σ}
    (hlt : announcedFrameSize frame.mHeader < announcedHeaderSize frame.mHeader) :
    sizesPhase frame stream =
      ⟨.threwBadAlloc, frame, stream, sizeAccesses frame.mHeader⟩ := by
  have h : frame.parseSizes = none := by
    rw [parseSizes_eq, if_neg (Nat.not_le.mpr hlt)]
  unfold sizesPhase
  rw [h]

/-- Fields of a header that holds its name are parsed and the run goes on. -/
theorem parseFields_of_le (frame : V4LFrame) (stream : σ)
    (hn : 0 ≤ nameLength frame.mHeader)
    (hle : converter.frameHeaderLength + (nameLength frame.mHeader).toNat ≤
      frame.mHeader.length) :
    parseFields frame stream =
      ⟨.returned true, frame.assignFields, stream,
        nameAccesses frame.mHeader ++ videoAccesses frame.mVideoOffset frame.mHeader.length⟩ := by
  have h28 : converter.offsetTimestamp + 8 = converter.frameHeaderLength := rfl
  simp only [parseFields]
  rw [if_neg (by omega), if_neg (by omega), if_neg (by omega)]

theorem parseFields_true {frame : V4LFrame} {stream : σ}
    (h : (parseFields frame stream).outcome = .returned true) :
    0 ≤ nameLength frame.mHeader ∧
      converter.frameHeaderLength + (nameLength frame.mHeader).toNat ≤
        frame.mHeader.length := by
  simp only [parseFields] at h
  split at h
  · cases h
  · split at h
    · cases h
    · split at h
      · cases h
      · exact ⟨by omega, by omega⟩

/-- A read phase whose bytes are on the stream stores them and goes on. -/
theorem ofLoop_readLoop_done (hR : R.Delivers unread budget limit) {size : ℕ}
    (hsize : size < 2 ^ 32) (hlimit : size < limit) (fuel : ℕ) {buf : List CChar}
    {bytesRead : ℕ} {s : σ} {bs rest : List CChar} (store : List CChar → V4LFrame)
    (hlt : bytesRead < size) (hbuf : buf.length = size) (hs : unread s = bs ++ rest)
    (hbs : bs.length = size - bytesRead) (hfuel : budget s < fuel) :
    ∃ s', ofLoop (readLoop R size fuel buf bytesRead s) store =
        ⟨.returned true, store (buf.take bytesRead ++ bs), s', []⟩ ∧
      unread s' = rest ∧ budget s' ≤ budget s := by
  obtain ⟨s', hloop, hrest, hle⟩ := readLoop_done hR hsize hlimit fuel _ _ _ _ _ hlt hbuf hs hbs
    hfuel
  exact ⟨s', by rw [hloop, ofLoop], hrest, hle⟩

theorem readSizeBytes_done (hR : R.Delivers unread budget limit) (hlimit : 8 < limit)
    {fuel : ℕ} (frame : V4LFrame) {s : σ} {bytes rest : List CChar}
    (hs : unread s = bytes ++ rest) (hlen : 8 ≤ bytes.length) (hfuel : budget s < fuel) :
    ∃ s', readSizeBytes R fuel frame s =
        ⟨.returned true, { frame with mHeader := bytes.take 8 }, s', []⟩ ∧
      unread s' = bytes.drop 8 ++ rest ∧ budget s' ≤ budget s := by
  have hsplit : unread s = bytes.take 8 ++ (bytes.drop 8 ++ rest) := by
    rw [← List.append_assoc, List.take_append_drop, hs]
  exact ofLoop_readLoop_done hR (by omega) hlimit fuel
    (fun buf => { frame with mHeader := buf }) (by omega) (length_resize _ _) hsplit
    (by rw [List.length_take]; omega) hfuel

theorem readHeader_done (hR : R.Delivers unread budget limit) (fuel : ℕ)
    (frame : V4LFrame) {s : σ} {bytes rest : List CChar} (frameSize headerSize : ℕ)
    (hgt : 8 < headerSize) (hsize : headerSize < 2 ^ 32) (hlimit : headerSize < limit)
    (hheader : frame.mHeader = bytes.take 8)
    (hs : unread s = bytes.drop 8 ++ rest) (hlen : headerSize ≤ bytes.length)
    (hfuel : budget s < fuel) :
    ∃ s', readHeader R fuel (frame.sized frameSize headerSize) s =
        ⟨.returned true,
          { frame.sized frameSize headerSize with mHeader := bytes.take headerSize }, s', []⟩ ∧
      unread s' = bytes.drop headerSize ++ rest ∧ budget s' ≤ budget s := by
  have hfront : (bytes.take 8).length = 8 := by rw [List.length_take]; omega
  have hmid : ((bytes.drop 8).take (headerSize - 8)).length = headerSize - 8 := by
    rw [List.length_take, List.length_drop]; omega
  have hwhole : bytes.take 8 ++ (bytes.drop 8).take (headerSize - 8) =
      bytes.take headerSize := by
    rw [← List.take_add]
    congr 1
    omega
  have hsplit : unread s =
      (bytes.drop 8).take (headerSize - 8) ++ (bytes.drop headerSize ++ rest) := by
    have hdrop : bytes.drop headerSize = (bytes.drop 8).drop (headerSize - 8) := by
      rw [List.drop_drop]
      congr 1
      omega
    rw [hs, hdrop, ← List.append_assoc, List.take_append_drop]
  have hkeep : (frame.sized frameSize headerSize).mHeader.take 8 = bytes.take 8 := by
    have h : (resize (bytes.take 8) headerSize).take (bytes.take 8).length = bytes.take 8 :=
      take_resize (by omega)
    rw [hfront] at h
    rw [sized, hheader]
    exact h
  have hroom : (frame.sized frameSize headerSize).mHeader.length = headerSize :=
    length_mHeader_sized _ _ _
  obtain ⟨s', hrun, hrest, hle⟩ := ofLoop_readLoop_done hR hsize hlimit fuel
    (fun buf => { frame.sized frameSize headerSize with mHeader := buf }) hgt hroom
    hsplit hmid hfuel
  refine ⟨s', ?_, hrest, hle⟩
  rw [readHeader, hroom, hrun, hkeep, hwhole]

theorem readPayload_done (hR : R.ShortReads unread limit) (fuel : ℕ) (frame : V4LFrame)
    {s : σ} {payload rest : List CChar} (hsize : payload.length < 2 ^ 32)
    (hlimit : payload.length < limit)
    (hlen : frame.mDataContainer.length = payload.length)
    (hs : unread s = payload ++ rest) (hfuel : (unread s).length < fuel) :
    ∃ s', readPayload R fuel frame s =
        ⟨.returned true, { frame with mDataContainer := payload }, s', []⟩ ∧
      unread s' = rest := by
  rcases Nat.eq_zero_or_pos payload.length with hzero | hpos
  · have hnil : payload = [] := List.length_eq_zero_iff.mp hzero
    have hdata : frame.mDataContainer = [] := List.length_eq_zero_iff.mp (by omega)
    obtain ⟨s', hloop, hrest⟩ := readLoop_nothing hR fuel (by omega) s
    refine ⟨s', ?_, by rw [hrest, hs, hnil, List.nil_append]⟩
    rw [readPayload, hdata, List.length_nil, hloop, ofLoop, hnil]
  · obtain ⟨s', hrun, hrest, -⟩ := ofLoop_readLoop_done hR.delivers hsize hlimit fuel
      (fun buf => { frame with mDataContainer := buf }) hpos hlen hs
      (Nat.sub_zero _).symm hfuel
    refine ⟨s', ?_, hrest⟩
    rw [readPayload, hlen, hrun, List.take_zero, List.nil_append]

/-! ## The decoder -/

/-- **A well-formed frame is decoded.**  Over a source with short reads, whatever
their sizes, the blocking decoder returns true, consumes exactly the frame and leaves
`decodedFrom`. -/
theorem deserializeFrom_of_wellFormed (hR : R.ShortReads unread limit) {fuel : ℕ}
    (frame : V4LFrame) {s : σ} {bytes rest : List CChar} (hw : WellFormed bytes)
    (hlen : bytes.length = announcedFrameSize bytes)
    (hlimit : announcedFrameSize bytes < limit) (hs : unread s = bytes ++ rest)
    (hfuel : (unread s).length < fuel) :
    (deserializeFrom R fuel frame s).outcome = .returned true ∧
      (deserializeFrom R fuel frame s).frame = decodedFrom frame bytes ∧
      unread (deserializeFrom R fuel frame s).stream = rest := by
  have hname := hw.name_le
  have hheader := hw.header_le
  have hframe := announcedFrameSize_lt bytes
  have h28 : converter.frameHeaderLength = 28 := rfl
  -- the sizes come from the first eight bytes, the name length from the header
  have hf : announcedFrameSize (bytes.take 8) = announcedFrameSize bytes :=
    announcedFrameSize_take _ (by omega)
  have hh : announcedHeaderSize (bytes.take 8) = announcedHeaderSize bytes :=
    announcedHeaderSize_take _ (by omega)
  have hn : nameLength (bytes.take (announcedHeaderSize bytes)) = nameLength bytes :=
    nameLength_take _ (by omega)
  have htaken : (bytes.take (announcedHeaderSize bytes)).length =
      announcedHeaderSize bytes := by
    rw [List.length_take]
    omega
  have hpayload : (bytes.drop (announcedHeaderSize bytes)).length =
      announcedFrameSize bytes - announcedHeaderSize bytes := by
    rw [List.length_drop, hlen]
  have hwindow : Buffer.window bytes (announcedHeaderSize bytes)
      (announcedFrameSize bytes - announcedHeaderSize bytes) =
        bytes.drop (announcedHeaderSize bytes) := by
    rw [Buffer.window, List.take_of_length_le (by omega)]
  obtain ⟨s₁, hrun₁, hs₁, hle₁⟩ := readSizeBytes_done hR.delivers (by omega) frame hs
    (by omega) hfuel
  have hsizes := sizesPhase_of_le { frame with mHeader := bytes.take 8 } s₁ hf hh hheader
  obtain ⟨s₂, hrun₂, hs₂, hle₂⟩ := readHeader_done hR.delivers fuel
    { frame with mHeader := bytes.take 8 } (announcedFrameSize bytes)
    (announcedHeaderSize bytes) (by omega) (by omega) (by omega) rfl hs₁
    (by omega) (by omega)
  have hfields := parseFields_of_le { sized { frame with mHeader := bytes.take 8 }
      (announcedFrameSize bytes) (announcedHeaderSize bytes) with
        mHeader := bytes.take (announcedHeaderSize bytes) } s₂
    (by rw [hn]; exact hw.name_nonneg) (by rw [hn, htaken]; exact hname)
  obtain ⟨s₃, hrun₃, hs₃⟩ := readPayload_done hR fuel
    (assignFields { sized { frame with mHeader := bytes.take 8 }
      (announcedFrameSize bytes) (announcedHeaderSize bytes) with
        mHeader := bytes.take (announcedHeaderSize bytes) })
    (by omega) (by omega) (by rw [hpayload]; exact List.length_replicate) hs₂ (by omega)
  rw [deserializeFrom, hrun₁, Decode.andThen_of_true rfl, hsizes,
    Decode.andThen_of_true rfl, deserializeRest, hrun₂, Decode.andThen_of_true rfl, hfields,
    Decode.andThen_of_true rfl, hrun₃, decodedFrom, hwindow]
  exact ⟨rfl, rfl, hs₃⟩

/-! ### The converse, phase by phase -/

theorem readSizeBytes_true (hR : R.Lossless unread) {fuel : ℕ} {frame : V4LFrame} {s : σ}
    (h : (readSizeBytes R fuel frame s).outcome = .returned true) :
    ∃ cells, cells.length = 8 ∧
      unread s = cells ++ unread (readSizeBytes R fuel frame s).stream ∧
      (readSizeBytes R fuel frame s).frame = { frame with mHeader := cells } := by
  obtain ⟨buf, s', hloop, hrun⟩ := ofLoop_true h
  obtain ⟨bs, hs, hlen, hbuf⟩ :=
    readLoop_inv hR (by omega) fuel (by omega) (length_resize _ _) hloop
  rw [List.take_zero, List.nil_append] at hbuf
  rw [readSizeBytes, hrun]
  exact ⟨bs, hlen, hs, by rw [hbuf]⟩

theorem sizesPhase_true {frame : V4LFrame} {stream : σ}
    (h : (sizesPhase frame stream).outcome = .returned true) :
    announcedHeaderSize frame.mHeader ≤ announcedFrameSize frame.mHeader := by
  by_contra hlt
  rw [sizesPhase_of_lt (Nat.not_le.mp hlt)] at h
  cases h

theorem readHeader_true (hR : R.Lossless unread) {fuel : ℕ} (frame : V4LFrame) {s : σ}
    (hge : 8 ≤ frame.mHeader.length) (hlt : frame.mHeader.length < 2 ^ 32)
    (h : (readHeader R fuel frame s).outcome = .returned true) :
    ∃ cells, cells.length = frame.mHeader.length - 8 ∧
      unread s = cells ++ unread (readHeader R fuel frame s).stream ∧
      (readHeader R fuel frame s).frame =
        { frame with mHeader := frame.mHeader.take 8 ++ cells } := by
  obtain ⟨buf, s', hloop, hrun⟩ := ofLoop_true h
  obtain ⟨bs, hs, hlen, hbuf⟩ := readLoop_inv hR hlt fuel hge rfl hloop
  rw [readHeader, hrun]
  exact ⟨bs, hlen, hs, by rw [hbuf]⟩

theorem readPayload_true (hR : R.Lossless unread) {fuel : ℕ} {frame : V4LFrame} {s : σ}
    (h : (readPayload R fuel frame s).outcome = .returned true)
    (hlt : frame.mDataContainer.length < 2 ^ 32) :
    ∃ cells, cells.length = frame.mDataContainer.length ∧
      unread s = cells ++ unread (readPayload R fuel frame s).stream ∧
      (readPayload R fuel frame s).frame = { frame with mDataContainer := cells } := by
  obtain ⟨buf, s', hloop, hrun⟩ := ofLoop_true h
  obtain ⟨bs, hs, hlen, hbuf⟩ := readLoop_inv hR hlt fuel (Nat.zero_le _) rfl hloop
  rw [List.take_zero, List.nil_append] at hbuf
  rw [readPayload, hrun]
  exact ⟨bs, hlen, hs, by rw [hbuf]⟩

theorem deserializeRest_true (hR : R.Lossless unread) {fuel : ℕ} {frame : V4LFrame}
    {s : σ} (hge : 8 ≤ frame.mHeader.length) (hlt : frame.mHeader.length < 2 ^ 32)
    (hdata : frame.mDataContainer.length < 2 ^ 32)
    (h : (deserializeRest R fuel frame s).outcome = .returned true) :
    ∃ header payload, header.length = frame.mHeader.length ∧
      header.take 8 = frame.mHeader.take 8 ∧
      payload.length = frame.mDataContainer.length ∧
      unread s = header.drop 8 ++ payload ++ unread (deserializeRest R fuel frame s).stream ∧
      0 ≤ nameLength header ∧
      converter.frameHeaderLength + (nameLength header).toNat ≤ header.length ∧
      (deserializeRest R fuel frame s).frame =
        { assignFields { frame with mHeader := header } with mDataContainer := payload } := by
  rw [deserializeRest] at h ⊢
  obtain ⟨h₁, h, hframe₁, hstream₁⟩ := Decode.andThen_true h
  obtain ⟨cells, hlen, hs₁, hrun₁⟩ := readHeader_true hR frame hge hlt h₁
  rw [hframe₁, hstream₁]
  rw [hrun₁] at h ⊢
  obtain ⟨h₂, h, hframe₂, hstream₂⟩ := Decode.andThen_true h
  obtain ⟨hn, hname⟩ := parseFields_true h₂
  rw [hframe₂, hstream₂]
  rw [parseFields_of_le _ _ hn hname] at h ⊢
  obtain ⟨payload, hpayload, hs₂, hrun₂⟩ := readPayload_true hR h hdata
  have hfront : (frame.mHeader.take 8).length = 8 := by
    rw [List.length_take]
    omega
  refine ⟨frame.mHeader.take 8 ++ cells, payload, ?_, ?_, hpayload, ?_, hn, hname, hrun₂⟩
  · rw [List.length_append]
    omega
  · rw [List.take_left' hfront]
  · rw [hs₁, hs₂, List.drop_left' hfront, List.append_assoc]

/-- **Only well-formed frames are accepted.**  Whatever a lossless source does, a run
that returns true has consumed a well-formed frame and left `decodedFrom`. -/
theorem deserializeFrom_returned_true (hR : R.Lossless unread) {fuel : ℕ}
    {frame : V4LFrame} {s : σ}
    (h : (deserializeFrom R fuel frame s).outcome = .returned true) :
    ∃ bytes, WellFormed bytes ∧ bytes.length = announcedFrameSize bytes ∧
      unread s = bytes ++ unread (deserializeFrom R fuel frame s).stream ∧
      (deserializeFrom R fuel frame s).frame = decodedFrom frame bytes := by
  rw [deserializeFrom] at h ⊢
  obtain ⟨h₁, h, hframe₁, hstream₁⟩ := Decode.andThen_true h
  obtain ⟨cells, hcells, hs₁, hrun₁⟩ := readSizeBytes_true hR h₁
  rw [hframe₁, hstream₁]
  rw [hrun₁] at h ⊢
  obtain ⟨h₂, h, hframe₂, hstream₂⟩ := Decode.andThen_true h
  have hle := sizesPhase_true h₂
  change announcedHeaderSize cells ≤ announcedFrameSize cells at hle
  have hge := announcedHeaderSize_ge cells
  have hlt := announcedFrameSize_lt cells
  have h16 : converter.videoHeaderLength = 16 := rfl
  rw [hframe₂, hstream₂]
  rw [sizesPhase_of_le { frame with mHeader := cells } _ rfl rfl hle] at h ⊢
  have hroom : (sized { frame with mHeader := cells } (announcedFrameSize cells)
      (announcedHeaderSize cells)).mHeader.length = announcedHeaderSize cells :=
    length_mHeader_sized _ _ _
  have hkeep : (sized { frame with mHeader := cells } (announcedFrameSize cells)
      (announcedHeaderSize cells)).mHeader.take 8 = cells :=
    hcells ▸ take_mHeader_sized (by omega)
  have hdata : (sized { frame with mHeader := cells } (announcedFrameSize cells)
      (announcedHeaderSize cells)).mDataContainer.length =
        announcedFrameSize cells - announcedHeaderSize cells := List.length_replicate
  obtain ⟨header, payload, hheader, hfront, hpayload, hs₂, hn, hname, hrun₂⟩ :=
    deserializeRest_true hR (le_of_le_of_eq (by omega) hroom.symm)
      (lt_of_eq_of_lt hroom (by omega)) (lt_of_eq_of_lt hdata (by omega)) h
  replace hheader := hheader.trans hroom
  replace hpayload := hpayload.trans hdata
  replace hfront := hfront.trans hkeep
  -- the sizes are read from the front of the consumed bytes, the name length from the header
  have hf : announcedFrameSize (header ++ payload) = announcedFrameSize cells := by
    rw [announcedFrameSize_append (by omega), ← announcedFrameSize_take _ (n := 8) (by omega),
      hfront]
  have hh : announcedHeaderSize (header ++ payload) = announcedHeaderSize cells := by
    rw [announcedHeaderSize_append (by omega), ← announcedHeaderSize_take _ (n := 8) (by omega),
      hfront]
  have hnl : nameLength (header ++ payload) = nameLength header :=
    nameLength_append (by omega)
  have hlen : (header ++ payload).length = announcedFrameSize (header ++ payload) := by
    rw [hf, List.length_append]
    omega
  have hwell : WellFormed (header ++ payload) :=
    { name_nonneg := by rwa [hnl]
      name_le := by rwa [hnl, hh, ← hheader]
      header_le := by rwa [hh, hf]
      available := hlen.ge }
  refine ⟨_, hwell, hlen, ?_, ?_⟩
  · rw [hs₁, hs₂, ← hfront]
    simp only [← List.append_assoc, List.take_append_drop]
  · have hwindow : Buffer.window (header ++ payload) (announcedHeaderSize cells)
        (announcedFrameSize cells - announcedHeaderSize cells) = payload := by
      rw [Buffer.window, List.drop_left' hheader, List.take_of_length_le (by omega)]
    rw [hrun₂, decodedFrom, hf, hh, List.take_left' hheader, hwindow]
    rfl

end V4LFrame

end NewCPP
