import NewCPP.V4LFrameDecode

/-!
# The resumable decoder refines the blocking one

`AsyncDeserializeFrom` may be interrupted at every byte.  What it keeps between two
calls is `state`, `accumulated` and the part of the buffers already filled;
`Awaiting bytes frame c` says that these describe the first `c` bytes of a well-formed
frame at the front of `bytes`.

* `asyncDeserializeFrom_advances` — a call made from such a frame either returns false
  and leaves one further on, or returns true at the last byte with the frame decoded.
* `asyncCall_refines` — hence repeated calls on a fresh frame end like one blocking
  call over the same bytes, whatever the schedule of the reads.

The three phases all fill a buffer from where the previous call stopped;
`fillupBuffer_window` is the one fact about that loop.

## Design notes

**Calls.**  What a call does not read is there for the next one, so that a schedule is in the
source: how much it hands out at each read.  `Awaiting` has one constructor for each of the
three states, with what has been stored by then.

**Totality.**  Every call returns, since `fillupBuffer` stops at the first empty read; that a
schedule with all the bytes in it ends with true is part of the theorem.
-/

namespace NewCPP

open Library

universe u v

namespace V4LFrame

variable {σ : Type u} {R : IReadStream σ} {unread : σ → List CChar}

/-! ## Filling a buffer -/

/-- What a fill consumed is what it stored; it returns true when the buffer is full. -/
theorem fillLoop_stores (hR : R.Lossless unread) (missing : ℕ) :
    ∀ (buf : List CChar) (actSize : ℕ) (s : σ), actSize ≤ buf.length →
      buf.length - actSize ≤ missing →
      ∃ bs buf' s', fillLoop R missing buf actSize s =
          (decide (actSize + bs.length = buf.length), buf', actSize + bs.length, s') ∧
        unread s = bs ++ unread s' ∧ actSize + bs.length ≤ buf.length ∧
        buf'.length = buf.length ∧
        buf'.take (actSize + bs.length) = buf.take actSize ++ bs := by
  induction missing with
  | zero =>
      intro buf actSize s hle hmissing
      have hfull : actSize = buf.length := by omega
      refine ⟨[], buf, s, ?_, rfl, by simpa using hle, rfl, ?_⟩
      · rw [fillLoop, List.length_nil, Nat.add_zero, decide_eq_true hfull]
      · rw [List.length_nil, Nat.add_zero, List.append_nil]
  | succ missing ih =>
      intro buf actSize s hle hmissing
      -- the call returns false with nothing more than before
      have hstop (hlt : actSize < buf.length) (s' : σ) (hs : unread s = unread s')
          (hrun : fillLoop R (missing + 1) buf actSize s = (false, buf, actSize, s')) :
          ∃ bs buf' s'', fillLoop R (missing + 1) buf actSize s =
              (decide (actSize + bs.length = buf.length), buf', actSize + bs.length, s'') ∧
            unread s = bs ++ unread s'' ∧ actSize + bs.length ≤ buf.length ∧
            buf'.length = buf.length ∧
            buf'.take (actSize + bs.length) = buf.take actSize ++ bs := by
        refine ⟨[], buf, s', ?_, hs, by simpa using hle, rfl, ?_⟩
        · rw [hrun, List.length_nil, Nat.add_zero, decide_eq_false (by omega)]
        · rw [List.length_nil, Nat.add_zero, List.append_nil]
      by_cases hlt : actSize < buf.length
      · match hread : R.read s (buf.length - actSize) with
        | (none, s') =>
            refine hstop hlt s' (hR.refused hread).symm ?_
            rw [fillLoop, if_pos hlt, hread]
        | (some [], s') =>
            refine hstop hlt s' (hR.answered hread) ?_
            rw [fillLoop, if_pos hlt, hread]
        | (some (b :: cs), s₁) =>
            have hfit : actSize + (b :: cs).length ≤ buf.length := by
              have := R.length_le hread
              omega
            have hblit := Buffer.length_blit hfit
            have hpos : 0 < (b :: cs).length := Nat.succ_pos _
            obtain ⟨bs, buf', s', hrun, hs, hbound, hlen, htake⟩ :=
              ih (Buffer.blit buf actSize (b :: cs)) (actSize + (b :: cs).length) s₁
                (by omega) (by omega)
            rw [hblit, Nat.add_assoc, ← List.length_append] at hrun hbound
            rw [Nat.add_assoc, ← List.length_append, Buffer.take_blit hfit,
              List.append_assoc] at htake
            refine ⟨(b :: cs) ++ bs, buf', s', ?_, ?_, hbound, hlen.trans hblit, htake⟩
            · rw [fillLoop, if_pos hlt, hread]
              exact hrun
            · rw [hR.answered hread, hs, List.append_assoc]
      · refine ⟨[], buf, s, ?_, rfl, by simpa using hle, rfl, ?_⟩
        · rw [fillLoop, if_neg hlt, List.length_nil, Nat.add_zero,
            decide_eq_true (by omega)]
        · rw [List.length_nil, Nat.add_zero, List.append_nil]

/-- Over a source that delivers, a fill whose bytes are there stops early only after
a stall. -/
theorem fillLoop_budget {budget : σ → ℕ} {limit : ℕ} (hR : R.Delivers unread budget limit)
    (missing : ℕ) :
    ∀ (buf : List CChar) (actSize : ℕ) (s : σ), buf.length < limit →
      buf.length - actSize ≤ (unread s).length →
      budget (fillLoop R missing buf actSize s).2.2.2 ≤ budget s ∧
        ((fillLoop R missing buf actSize s).1 = false →
          budget (fillLoop R missing buf actSize s).2.2.2 < budget s) := by
  induction missing with
  | zero => exact fun _ _ _ _ _ => ⟨Nat.le_refl _, fun h => by cases h⟩
  | succ missing ih =>
      intro buf actSize s hlimit hthere
      by_cases hlt : actSize < buf.length
      · have hne : unread s ≠ [] := by
          intro hnil
          rw [hnil, List.length_nil] at hthere
          omega
        obtain ⟨bs, s₁, hread, hbudget⟩ :=
          hR.progress (n := buf.length - actSize) (by omega) (by omega) hne
        rw [fillLoop, if_pos hlt, hread]
        cases bs with
        | nil => exact ⟨by dsimp only; omega, fun _ => hbudget⟩
        | cons b cs =>
            have hfit : actSize + (b :: cs).length ≤ buf.length := by
              have := R.length_le hread
              omega
            have hblit := Buffer.length_blit hfit
            have hthere₁ := hthere
            rw [hR.answered hread, List.length_append] at hthere₁
            obtain ⟨hle, hfalse⟩ := ih (Buffer.blit buf actSize (b :: cs))
              (actSize + (b :: cs).length) s₁ (by omega) (by omega)
            exact ⟨by dsimp only; omega, fun h => lt_of_lt_of_le (hfalse h) (by omega)⟩
      · rw [fillLoop, if_neg hlt]
        exact ⟨Nat.le_refl _, fun h => by cases h⟩

/-- **One resumption.**  A buffer for the field at `base` whose first `actSize` cells
are already there is filled further from the stream; nothing is skipped, nothing is
read twice. -/
theorem fillupBuffer_window (hR : R.Lossless unread) {bytes : List CChar}
    (buf : List CChar) (base actSize : ℕ) (s : σ) (hle : actSize ≤ buf.length)
    (hthere : base + actSize ≤ bytes.length)
    (hbuf : buf.take actSize = Buffer.window bytes base actSize)
    (hs : unread s = bytes.drop (base + actSize)) :
    ∃ actSize' buf' s', fillupBuffer R buf actSize s =
        (decide (actSize' = buf.length), buf', actSize', s') ∧
      actSize ≤ actSize' ∧ actSize' ≤ buf.length ∧ buf'.length = buf.length ∧
      buf'.take actSize' = Buffer.window bytes base actSize' ∧
      base + actSize' ≤ bytes.length ∧ unread s' = bytes.drop (base + actSize') ∧
      ∀ budget limit, R.Delivers unread budget limit → buf.length < limit →
        base + buf.length ≤ bytes.length →
        budget s' ≤ budget s ∧ (actSize' ≠ buf.length → budget s' < budget s) := by
  obtain ⟨bs, buf', s', hrun, hsplit, hbound, hlen, htake⟩ :=
    fillLoop_stores hR (buf.length - actSize) buf actSize s hle (Nat.le_refl _)
  have hfront : bs = Buffer.window bytes (base + actSize) bs.length := by
    rw [Buffer.window, ← hs, hsplit, List.take_left]
  have hread := congrArg List.length hsplit
  rw [hs, List.length_append, List.length_drop] at hread
  refine ⟨actSize + bs.length, buf', s', hrun, Nat.le_add_right _ _, hbound, hlen, ?_,
    by omega, ?_, ?_⟩
  · rw [htake, hbuf, hfront, Buffer.window, Buffer.window, Buffer.window, List.take_add,
      List.drop_drop, List.length_take, List.length_drop]
    congr 2
    rw [← List.length_drop, ← hs, hsplit, List.length_append]
    omega
  · rw [← Nat.add_assoc, ← List.drop_drop, ← hs, hsplit, List.drop_left]
  · intro budget limit hD hlimit hroom
    have hthere : buf.length - actSize ≤ (unread s).length := by
      rw [hs, List.length_drop]
      omega
    have hbudget := fillLoop_budget hD (buf.length - actSize) buf actSize s hlimit hthere
    rw [hrun] at hbudget
    exact ⟨hbudget.1, fun hne => hbudget.2 (decide_eq_false hne)⟩

/-! ## Between two calls -/

/-- The frame whose header is parsed and whose payload is being filled. -/
def inBody (bytes data : List CChar) (accumulated : ℕ) : V4LFrame :=
  { decodedFrom {} bytes with
    mDataContainer := data
    state := .v4lBody
    accumulated := accumulated }

/-- The frame after the last byte. -/
def completed (bytes : List CChar) : V4LFrame :=
  { decodedFrom {} bytes with
    state := .deserialized
    accumulated := announcedFrameSize bytes - announcedHeaderSize bytes }

/-- The frame has taken the first `c` bytes of a frame that is not complete yet. -/
inductive Awaiting (bytes : List CChar) : V4LFrame → ℕ → Prop
  /-- inside the size fields; a fresh frame has no buffer for them yet -/
  | sizes {frame : V4LFrame} {c : ℕ} (state : frame.state = .ifHeader) (lt : c < 8)
      (accumulated : frame.accumulated = c) (buffer : frame.mHeader.length = 8 ∨ c = 0)
      (stored : frame.mHeader.take c = bytes.take c) : Awaiting bytes frame c
  /-- inside the rest of the header, `accumulated` carried over -/
  | header {frame : V4LFrame} {c : ℕ} (state : frame.state = .v4lHeader) (ge : 8 ≤ c)
      (lt : c < announcedHeaderSize bytes) (accumulated : frame.accumulated = c)
      (buffer : frame.mHeader.length = announcedHeaderSize bytes)
      (stored : frame.mHeader.take c = bytes.take c)
      (video : frame.mVideoOffset = announcedHeaderSize bytes - converter.videoHeaderLength)
      (room : frame.mDataContainer.length =
        announcedFrameSize bytes - announcedHeaderSize bytes) : Awaiting bytes frame c
  /-- inside the payload, `accumulated` counted from its start -/
  | body {data : List CChar} {c : ℕ} (ge : announcedHeaderSize bytes ≤ c)
      (lt : c < announcedFrameSize bytes)
      (room : data.length = announcedFrameSize bytes - announcedHeaderSize bytes)
      (stored : data.take (c - announcedHeaderSize bytes) =
        Buffer.window bytes (announcedHeaderSize bytes) (c - announcedHeaderSize bytes)) :
      Awaiting bytes (inBody bytes data (c - announcedHeaderSize bytes)) c

/-- A run that started behind `c` bytes: it returned false with more to come, or true
at the last byte.  False costs budget where there is one. -/
def Advances (R : IReadStream σ) (unread : σ → List CChar) (bytes : List CChar) (s : σ)
    (c : ℕ) (run : Decode σ) : Prop :=
  ∃ c', c ≤ c' ∧ unread run.stream = bytes.drop c' ∧
    ((run.outcome = .returned false ∧ c' < announcedFrameSize bytes ∧
        Awaiting bytes run.frame c' ∧
        ∀ budget, R.Delivers unread budget (2 ^ 32) → budget run.stream < budget s) ∨
      (run.outcome = .returned true ∧ c' = announcedFrameSize bytes ∧
        run.frame = completed bytes))

/-- A phase in front of an advancing run. -/
theorem Advances.andThen {bytes : List CChar} {s : σ} {c c₁ : ℕ} {run : Decode σ}
    {next : V4LFrame → σ → Decode σ} (htrue : run.outcome = .returned true) (hle : c ≤ c₁)
    (hbudget : ∀ budget, R.Delivers unread budget (2 ^ 32) → budget run.stream ≤ budget s)
    (h : Advances R unread bytes run.stream c₁ (next run.frame run.stream)) :
    Advances R unread bytes s c (run.andThen next) := by
  obtain ⟨c', hc, hs, hend⟩ := h
  rw [Decode.andThen_of_true htrue]
  refine ⟨c', by omega, hs, ?_⟩
  rcases hend with ⟨hout, hlt, haw, hcost⟩ | hdone
  · exact Or.inl ⟨hout, hlt, haw, fun budget hD =>
      lt_of_lt_of_le (hcost budget hD) (hbudget budget hD)⟩
  · exact Or.inr hdone

/-! ## The phases -/

/-- A fresh frame gets its buffer for the size fields, another one keeps what it has. -/
theorem sizeBuffer_kept {frame : V4LFrame} {bytes : List CChar} {c : ℕ}
    (hbuffer : frame.mHeader.length = 8 ∨ c = 0)
    (hstored : frame.mHeader.take c = bytes.take c) :
    ∃ cells,
      (if frame.mHeader.length ≠ 8 then resize frame.mHeader 8 else frame.mHeader) = cells ∧
        cells.length = 8 ∧ cells.take c = bytes.take c := by
  rcases hbuffer with h8 | h0
  · exact ⟨frame.mHeader, if_neg (not_not.mpr h8), h8, hstored⟩
  · refine ⟨_, rfl, ?_, by rw [h0]; rfl⟩
    split
    · exact length_resize _ _
    · omega

/-- A phase whose buffer is not full yet returns false. -/
theorem parseIFrameHeader_short {frame : V4LFrame} {cells buf : List CChar} {act : ℕ}
    {s s' : σ}
    (hcells : (if frame.mHeader.length ≠ 8 then resize frame.mHeader 8 else frame.mHeader) =
      cells)
    (hrun : fillupBuffer R cells frame.accumulated s = (false, buf, act, s')) :
    parseIFrameHeader R frame s =
      ⟨.returned false, { frame with mHeader := buf, accumulated := act }, s', []⟩ := by
  unfold parseIFrameHeader
  rw [hcells]
  dsimp only
  rw [hrun]
  dsimp only
  rw [if_neg Bool.false_ne_true]

theorem parseIFrameHeader_filled {frame parsed : V4LFrame} {cells buf : List CChar} {act : ℕ}
    {s s' : σ} {accesses : List HeaderAccess}
    (hcells : (if frame.mHeader.length ≠ 8 then resize frame.mHeader 8 else frame.mHeader) =
      cells)
    (hrun : fillupBuffer R cells frame.accumulated s = (true, buf, act, s'))
    (hsizes : sizesPhase { frame with mHeader := buf, accumulated := act } s' =
      ⟨.returned true, parsed, s', accesses⟩) :
    parseIFrameHeader R frame s =
      ⟨.returned true, { parsed with state := .v4lHeader }, s', accesses⟩ := by
  unfold parseIFrameHeader
  rw [hcells]
  dsimp only
  rw [hrun]
  dsimp only
  rw [if_pos rfl, hsizes, Decode.andThen_of_true rfl, List.append_nil]

theorem parseV4LFrameHeader_short {frame : V4LFrame} {buf : List CChar} {act : ℕ} {s s' : σ}
    (hrun : fillupBuffer R frame.mHeader frame.accumulated s = (false, buf, act, s')) :
    parseV4LFrameHeader R frame s =
      ⟨.returned false, { frame with mHeader := buf, accumulated := act }, s', []⟩ := by
  unfold parseV4LFrameHeader
  rw [hrun]
  dsimp only
  rw [if_neg Bool.false_ne_true]

theorem parseV4LFrameHeader_filled {frame parsed : V4LFrame} {buf : List CChar} {act : ℕ}
    {s s' : σ} {accesses : List HeaderAccess}
    (hrun : fillupBuffer R frame.mHeader frame.accumulated s = (true, buf, act, s'))
    (hparse : parseFields { frame with mHeader := buf, accumulated := act } s' =
      ⟨.returned true, parsed, s', accesses⟩) :
    parseV4LFrameHeader R frame s =
      ⟨.returned true, { parsed with state := .v4lBody, accumulated := 0 }, s',
        accesses⟩ := by
  unfold parseV4LFrameHeader
  rw [hrun]
  dsimp only
  rw [if_pos rfl, hparse, Decode.andThen_of_true rfl, List.append_nil]

/-- The size fields survive the growth of the header buffer. -/
theorem resize_sizes {bytes buf : List CChar} {n : ℕ} (hbuf : buf = bytes.take 8)
    (hlen : buf.length = 8) (hle : 8 ≤ n) : (resize buf n).take 8 = bytes.take 8 := by
  have hkeep : (resize buf n).take buf.length = buf := take_resize (by omega)
  rw [hlen] at hkeep
  rw [hkeep, hbuf]

section Phases

variable {bytes : List CChar} (hR : R.Lossless unread) (hw : WellFormed bytes)

include hR hw

theorem fillBody_advances (data : List CChar) {c : ℕ} {s : σ}
    (hge : announcedHeaderSize bytes ≤ c) (hle : c ≤ announcedFrameSize bytes)
    (hroom : data.length = announcedFrameSize bytes - announcedHeaderSize bytes)
    (hstored : data.take (c - announcedHeaderSize bytes) =
      Buffer.window bytes (announcedHeaderSize bytes) (c - announcedHeaderSize bytes))
    (hs : unread s = bytes.drop c) :
    Advances R unread bytes s c
      (fillBody R (inBody bytes data (c - announcedHeaderSize bytes)) s) := by
  have havail := hw.available
  have hlt := announcedFrameSize_lt bytes
  obtain ⟨act, buf, s', hrun, hge', hle', hlen, htake, -, hs', hcost⟩ :=
    fillupBuffer_window hR data (announcedHeaderSize bytes)
      (c - announcedHeaderSize bytes) s (by omega) (by omega) hstored
      (by rw [hs]; congr 1; omega)
  have hfilled : fillupBuffer R (inBody bytes data (c - announcedHeaderSize bytes)).mDataContainer
      (inBody bytes data (c - announcedHeaderSize bytes)).accumulated s = _ := hrun
  refine ⟨announcedHeaderSize bytes + act, by omega, ?_⟩
  unfold fillBody
  rw [hfilled]
  by_cases hfull : act = data.length
  · rw [decide_eq_true hfull]
    have hall : buf = Buffer.window bytes (announcedHeaderSize bytes)
        (announcedFrameSize bytes - announcedHeaderSize bytes) := by
      rw [← List.take_length (l := buf), hlen, ← hfull, htake, hfull, hroom]
    refine ⟨hs', Or.inr ⟨rfl, by omega, ?_⟩⟩
    simp only [if_true, inBody, completed, hall, hfull, hroom]
    rfl
  · rw [decide_eq_false hfull]
    refine ⟨hs', Or.inl ⟨rfl, by omega, ?_, fun budget hD => ?_⟩⟩
    · have haw : Awaiting bytes (inBody bytes buf
          (announcedHeaderSize bytes + act - announcedHeaderSize bytes))
          (announcedHeaderSize bytes + act) := Awaiting.body (by omega) (by omega) (by omega)
        (by rw [Nat.add_sub_cancel_left]; exact htake)
      rw [Nat.add_sub_cancel_left] at haw
      exact haw
    · exact (hcost budget _ hD (by omega) (by omega)).2 hfull

omit hR in
/-- The parsed header is the one of the decoded frame. -/
theorem parseFields_header (frame : V4LFrame) (stream : σ)
    (hvideo : frame.mVideoOffset = announcedHeaderSize bytes - converter.videoHeaderLength)
    (hheader : frame.mHeader = bytes.take (announcedHeaderSize bytes)) :
    ∃ accesses, parseFields frame stream =
        ⟨.returned true, frame.assignFields, stream, accesses⟩ ∧
      { frame.assignFields with state := .v4lBody, accumulated := 0 } =
        inBody bytes frame.mDataContainer 0 := by
  have hname := hw.name_le
  have hle := hw.header_le
  have havail := hw.available
  have h28 : converter.frameHeaderLength = 28 := rfl
  have hn : nameLength frame.mHeader = nameLength bytes := by
    rw [hheader, nameLength_take _ (by omega)]
  have hlen : frame.mHeader.length = announcedHeaderSize bytes := by
    rw [hheader, List.length_take]
    omega
  refine ⟨_, parseFields_of_le _ _ (by rw [hn]; exact hw.name_nonneg)
    (by rw [hn, hlen]; exact hname), ?_⟩
  simp only [inBody, decodedFrom, assignFields, hvideo, hheader]

/-- A resumption of one of the two header phases, whose buffers start where the frame does. -/
theorem fillupBuffer_header {cells : List CChar} {c n : ℕ} {s : σ}
    (hsized : cells.length = n) (hn : n ≤ announcedHeaderSize bytes) (hle : c ≤ n)
    (hkept : cells.take c = bytes.take c) (hs : unread s = bytes.drop c) :
    ∃ act buf s', fillupBuffer R cells c s = (decide (act = n), buf, act, s') ∧
      c ≤ act ∧ act ≤ n ∧ buf.length = n ∧ buf.take act = bytes.take act ∧
      unread s' = bytes.drop act ∧ (act = n → buf = bytes.take n) ∧
      ∀ budget, R.Delivers unread budget (2 ^ 32) →
        budget s' ≤ budget s ∧ (act ≠ n → budget s' < budget s) := by
  have hheader := hw.header_le
  have havail := hw.available
  have hlt := announcedFrameSize_lt bytes
  subst hsized
  obtain ⟨act, buf, s', hrun, hge, hle, hlen, htake, -, hs', hcost⟩ :=
    fillupBuffer_window hR cells 0 c s hle (by omega) hkept (by rw [hs, Nat.zero_add])
  rw [Nat.zero_add] at hs'
  refine ⟨act, buf, s', hrun, hge, hle, hlen, htake, hs', ?_,
    fun budget hD => hcost budget (2 ^ 32) hD (by omega) (by omega)⟩
  intro hfull
  rw [← List.take_length (l := buf), hlen, ← hfull, htake]
  rfl

theorem parseV4LFrameHeader_advances (frame : V4LFrame) {c : ℕ} {s : σ}
    (hle : c ≤ announcedHeaderSize bytes) (hacc : frame.accumulated = c)
    (hbuffer : frame.mHeader.length = announcedHeaderSize bytes) (hge : 8 ≤ c)
    (hstate : frame.state = .v4lHeader) (hstored : frame.mHeader.take c = bytes.take c)
    (hvideo : frame.mVideoOffset = announcedHeaderSize bytes - converter.videoHeaderLength)
    (hroom : frame.mDataContainer.length =
      announcedFrameSize bytes - announcedHeaderSize bytes)
    (hs : unread s = bytes.drop c) :
    Advances R unread bytes s c ((parseV4LFrameHeader R frame s).andThen (fillBody R)) := by
  have hheader := hw.header_le
  obtain ⟨act, buf, s', hrun, hge', hle', hlen, htake, hs', hall, hcost⟩ :=
    fillupBuffer_header hR hw hbuffer (Nat.le_refl _) hle hstored hs
  rw [← hacc] at hrun
  by_cases hfull : act = announcedHeaderSize bytes
  · rw [decide_eq_true hfull] at hrun
    obtain ⟨accesses, hparse, hbody⟩ := parseFields_header hw
      { frame with mHeader := buf, accumulated := act } s' hvideo (hall hfull)
    have hphase := parseV4LFrameHeader_filled hrun hparse
    rw [hbody] at hphase
    have hnext := fillBody_advances hR hw frame.mDataContainer
      (c := announcedHeaderSize bytes) (s := s') (Nat.le_refl _) hheader hroom
      (by rw [Nat.sub_self]; rfl) (by rw [hs', hfull])
    rw [Nat.sub_self] at hnext
    rw [hphase]
    exact Advances.andThen rfl (by omega) (fun budget hD => (hcost budget hD).1) hnext
  · rw [decide_eq_false hfull] at hrun
    rw [parseV4LFrameHeader_short hrun, Decode.andThen_of_ne (fun h => by cases h)]
    refine ⟨act, hge', hs', Or.inl ⟨rfl, by omega, ?_, fun budget hD => ?_⟩⟩
    · exact Awaiting.header hstate (by omega) (by omega) rfl hlen htake hvideo hroom
    · exact (hcost budget hD).2 hfull

theorem parseIFrameHeader_advances {frame : V4LFrame} {c : ℕ} {s : σ} (hlt : c < 8)
    (hacc : frame.accumulated = c) (hbuffer : frame.mHeader.length = 8 ∨ c = 0)
    (hstate : frame.state = .ifHeader) (hstored : frame.mHeader.take c = bytes.take c)
    (hs : unread s = bytes.drop c) :
    Advances R unread bytes s c ((parseIFrameHeader R frame s).andThen fun frame stream =>
      (parseV4LFrameHeader R frame stream).andThen (fillBody R)) := by
  have hname := hw.name_le
  have hheader := hw.header_le
  have h28 : converter.frameHeaderLength = 28 := rfl
  obtain ⟨cells, hcells, hsized, hkept⟩ := sizeBuffer_kept hbuffer hstored
  obtain ⟨act, buf, s', hrun, hge', hle', hlen, htake, hs', hall, hcost⟩ :=
    fillupBuffer_header hR hw hsized (by omega) (by omega) hkept hs
  rw [← hacc] at hrun
  by_cases hfull : act = 8
  · rw [decide_eq_true hfull] at hrun
    have hsizes := sizesPhase_of_le { frame with mHeader := buf, accumulated := act } s'
      (by rw [hall hfull]; exact announcedFrameSize_take _ (by omega))
      (by rw [hall hfull]; exact announcedHeaderSize_take _ (by omega)) hheader
    have htaken : (resize buf (announcedHeaderSize bytes)).take 8 = bytes.take 8 :=
      resize_sizes (hall hfull) (by omega) (by omega)
    have hnext := parseV4LFrameHeader_advances hR hw (s := s') (c := act)
      ({ sized { frame with mHeader := buf, accumulated := act }
        (announcedFrameSize bytes) (announcedHeaderSize bytes) with state := .v4lHeader })
      (by omega) rfl (length_resize _ _) (by omega) rfl
      (by rw [hfull]; exact htaken) rfl List.length_replicate hs'
    rw [parseIFrameHeader_filled hcells hrun hsizes]
    exact Advances.andThen rfl hge' (fun budget hD => (hcost budget hD).1) hnext
  · rw [decide_eq_false hfull] at hrun
    rw [parseIFrameHeader_short hcells hrun, Decode.andThen_of_ne (fun h => by cases h)]
    refine ⟨act, hge', hs', Or.inl ⟨rfl, by omega, ?_, fun budget hD => ?_⟩⟩
    · exact Awaiting.sizes hstate (by omega) rfl (Or.inl hlen) htake
    · exact (hcost budget hD).2 hfull

/-- **One call.**  From a frame awaiting the rest of its bytes a call either returns
false with such a frame, or takes the last byte and returns true. -/
theorem asyncDeserializeFrom_advances {frame : V4LFrame} {c : ℕ} {s : σ}
    (haw : Awaiting bytes frame c) (hs : unread s = bytes.drop c) :
    Advances R unread bytes s c (asyncDeserializeFrom R frame s) := by
  unfold asyncDeserializeFrom
  cases haw with
  | sizes state lt accumulated buffer stored =>
      rw [state]
      exact parseIFrameHeader_advances hR hw lt accumulated buffer state stored hs
  | header state ge lt accumulated buffer stored video room =>
      rw [state]
      exact parseV4LFrameHeader_advances hR hw _ (Nat.le_of_lt lt) accumulated buffer ge state
        stored video room hs
  | body ge lt room stored =>
      exact fillBody_advances hR hw _ ge (Nat.le_of_lt lt) room stored hs

end Phases

/-! ## Repeated calls -/

/-- The `k`-th call of `AsyncDeserializeFrom` on one fresh frame. -/
def asyncCall (R : IReadStream σ) (s : σ) : ℕ → Decode σ
  | 0 => asyncDeserializeFrom R {} s
  | k + 1 => asyncDeserializeFrom R (asyncCall R s k).frame (asyncCall R s k).stream

/-- As long as the calls return false, the next one advances. -/
theorem asyncCall_advances (hR : R.Lossless unread) {s : σ} (hw : WellFormed (unread s))
    (k : ℕ) (hfalse : ∀ i < k, (asyncCall R s i).outcome = .returned false) :
    ∃ c before, Advances R unread (unread s) before c (asyncCall R s k) ∧
      ∀ budget, R.Delivers unread budget (2 ^ 32) → budget before + k ≤ budget s := by
  induction k with
  | zero =>
      refine ⟨0, s, ?_, fun _ _ => Nat.le_refl _⟩
      exact asyncDeserializeFrom_advances hR hw
        (Awaiting.sizes rfl (by omega) rfl (Or.inr rfl) rfl) rfl
  | succ k ih =>
      obtain ⟨c, before, ⟨c', hc, hs, hend⟩, hbefore⟩ :=
        ih fun i hi => hfalse i (Nat.lt_succ_of_lt hi)
      rcases hend with ⟨-, -, haw, hcost⟩ | ⟨htrue, -, -⟩
      · refine ⟨c', (asyncCall R s k).stream, asyncDeserializeFrom_advances hR hw haw hs, ?_⟩
        intro budget hD
        have h₁ := hcost budget hD
        have h₂ := hbefore budget hD
        omega
      · rw [hfalse k (Nat.lt_succ_self k)] at htrue
        cases htrue

/-- Over a source that delivers, some call returns true. -/
theorem asyncCall_completes {budget : σ → ℕ} (hR : R.Delivers unread budget (2 ^ 32)) {s : σ}
    (hw : WellFormed (unread s)) :
    ∃ k, (∀ i < k, (asyncCall R s i).outcome = .returned false) ∧
      (asyncCall R s k).outcome = .returned true := by
  by_contra hnever
  have hfalse (k : ℕ) : ∀ i < k, (asyncCall R s i).outcome = .returned false := by
    induction k with
    | zero => exact fun i hi => absurd hi (Nat.not_lt_zero i)
    | succ k ih =>
        intro i hi
        obtain ⟨_, _, ⟨_, -, -, hend⟩, -⟩ := asyncCall_advances hR.toLossless hw k ih
        rcases hend with ⟨hlast, -⟩ | ⟨htrue, -⟩
        · rcases Nat.lt_succ_iff_lt_or_eq.mp hi with h | rfl
          · exact ih i h
          · exact hlast
        · exact absurd ⟨k, ih, htrue⟩ hnever
  obtain ⟨_, _, -, hbudget⟩ := asyncCall_advances hR.toLossless hw _ (hfalse (budget s + 1))
  have := hbudget budget hR
  omega

variable {β : Type v} {B : IReadStream β} {held : β → List CChar}

/-- The blocking decoder over the same bytes. -/
theorem deserializeFrom_of_front (hB : B.ShortReads held (2 ^ 32)) {b : β}
    (hw : WellFormed (held b)) {fuel : ℕ} (hfuel : (held b).length < fuel) :
    (deserializeFrom B fuel {} b).outcome = .returned true ∧
      (deserializeFrom B fuel {} b).frame = decodedFrom {} (held b) := by
  have hname := hw.name_le
  have hheader := hw.header_le
  have havail := hw.available
  have hlt := announcedFrameSize_lt (held b)
  have h28 : converter.frameHeaderLength = 28 := rfl
  have hf : announcedFrameSize ((held b).take (announcedFrameSize (held b))) =
      announcedFrameSize (held b) := announcedFrameSize_take _ (by omega)
  have hh : announcedHeaderSize ((held b).take (announcedFrameSize (held b))) =
      announcedHeaderSize (held b) := announcedHeaderSize_take _ (by omega)
  have hn : nameLength ((held b).take (announcedFrameSize (held b))) = nameLength (held b) :=
    nameLength_take _ (by omega)
  have hlen : ((held b).take (announcedFrameSize (held b))).length =
      announcedFrameSize (held b) := by
    rw [List.length_take]
    omega
  have hfront : WellFormed ((held b).take (announcedFrameSize (held b))) :=
    { name_nonneg := by rw [hn]; exact hw.name_nonneg
      name_le := by rw [hn, hh]; exact hname
      header_le := by rw [hf, hh]; exact hheader
      available := by rw [hf, hlen] }
  obtain ⟨hout, hframe, -⟩ := deserializeFrom_of_wellFormed hB {} hfront (by rw [hlen, hf])
    (by rw [hf]; exact hlt) (List.take_append_drop _ _).symm hfuel
  refine ⟨hout, ?_⟩
  rw [hframe, decodedFrom, decodedFrom, hf, hh, List.take_take, Nat.min_eq_left hheader,
    Buffer.window_take _ (by omega)]

/-- **The resumable decoder refines the blocking one.**  The stream holds a
well-formed frame; its reads may stall and stop short in any pattern.  As long as the
calls return false, the next call has taken a prefix of the frame: it returns false
before the last byte and true at it, and then has left the frame the blocking decoder
leaves.  If the source delivers at all, that call comes. -/
theorem asyncCall_refines (hR : R.Lossless unread) {s : σ} (hw : WellFormed (unread s))
    (hB : B.ShortReads held (2 ^ 32)) {b : β} (hsame : held b = unread s) {fuel : ℕ}
    (hfuel : (held b).length < fuel) :
    (∀ k, (∀ i < k, (asyncCall R s i).outcome = .returned false) →
      ∃ c ≤ announcedFrameSize (unread s),
        unread (asyncCall R s k).stream = (unread s).drop c ∧
        ((asyncCall R s k).outcome = .returned false ∧ c < announcedFrameSize (unread s) ∨
          (asyncCall R s k).outcome = .returned true ∧ c = announcedFrameSize (unread s) ∧
          (deserializeFrom B fuel {} b).outcome = .returned true ∧
          (asyncCall R s k).frame =
            { (deserializeFrom B fuel {} b).frame with
              state := .deserialized
              accumulated := (asyncCall R s k).frame.accumulated })) ∧
      ∀ budget, R.Delivers unread budget (2 ^ 32) →
        ∃ k, (∀ i < k, (asyncCall R s i).outcome = .returned false) ∧
          (asyncCall R s k).outcome = .returned true := by
  refine ⟨fun k hfalse => ?_, fun budget hD => asyncCall_completes hD hw⟩
  obtain ⟨_, _, ⟨c, -, hs, hend⟩, -⟩ := asyncCall_advances hR hw k hfalse
  rcases hend with ⟨hout, hlt, -, -⟩ | ⟨hout, hlast, hframe⟩
  · exact ⟨c, Nat.le_of_lt hlt, hs, Or.inl ⟨hout, hlt⟩⟩
  · obtain ⟨hblocking, hleft⟩ := deserializeFrom_of_front hB (by rw [hsame]; exact hw) hfuel
    refine ⟨c, hlast.le, hs, Or.inr ⟨hout, hlast, hblocking, ?_⟩⟩
    rw [hleft, hframe, hsame, completed]

/-- The frame stalls inside its size fields; one byte of the next frame follows. -/
theorem foreignFrame_resumed :
    ∃ k, (∀ i < k, (asyncCall (Source.chunked false)
          [foreignFrame.take 3, [], foreignFrame.drop 3, [], [1]] i).outcome =
            .returned false) ∧
      (asyncCall (Source.chunked false)
        [foreignFrame.take 3, [], foreignFrame.drop 3, [], [1]] k).outcome =
          .returned true :=
  (asyncCall_refines (Source.chunked_lossless false)
    ⟨by decide, by decide, by decide, by decide⟩ (Source.pieces_shortReads 4 _)
    (b := foreignFrame ++ [1]) rfl (Nat.lt_succ_self _)).2 _ (Source.chunked_delivers false _)

end V4LFrame

end NewCPP
