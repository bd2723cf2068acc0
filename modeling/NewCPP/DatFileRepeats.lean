import NewCPP.DatFilePasses

/-!
# Repeated passes of the replayer

A frame that is read depends on the content of the file and the offset only: reads leave
the content alone, and a stream that some read has broken reads nothing any more.  So a
scan in which every frame is read is determined by the maps and the contents, its
`Snapshot`, and a pass that starts from the copy of the maps delivers what the pass before
it delivered.

## Main results

* `Replayer.loop_agree` — two passes over the same maps and files that read every frame
  deliver the same.
* `Replayer.length_passes` — when every frame is read, no pass is missing.
* `Replayer.passes_deliveries` — what the passes after a `Start` deliver.

## Design notes

**Settings.**  What a pass only reads (the range, the copies of the maps, the mode) is
`settings`, and each function has one lemma that it leaves them alone.  `Agree` is equality of
settings and of snapshots, which is all that a pass depends on when every frame is read.

**Files.**  The hypothesis that every frame is read is about the attempts of the passes, in
whatever way the decoder came to read them.
-/

namespace NewCPP

open Library

/-! ## What a frame that is read depends on -/

namespace FileReadStream

/-- A stream that is not good hands out nothing. -/
theorem read_of_bad {s : IFStream} (h : s.good = false) (count : ℕ) :
    read.read s count = (some [], { s with failbit := true }) := by
  have hread : s.read count = ([], { s with failbit := true }) := by
    rw [IFStream.read, if_neg (by rw [h]; exact Bool.false_ne_true)]
  have hnothing : result [] = some [] := by decide
  change (result (s.read count).1, (s.read count).2) = _
  rw [hread, hnothing]

/-- Reading does not change a file. -/
theorem read_content (s : IFStream) (count : ℕ) :
    (read.read s count).2.content = s.content := by
  change (s.read count).2.content = s.content
  unfold IFStream.read
  split
  · dsimp only
    split <;> rfl
  · rfl

end FileReadStream

namespace V4LFrame

/-- A read loop on a stream that is not good does not end. -/
theorem readLoop_of_bad {size : ℕ} (hsize : size < 2 ^ 32) (fuel : ℕ) :
    ∀ (buf : List CChar) {bytesRead : ℕ} {s : IFStream}, s.good = false → bytesRead < size →
      (readLoop FileReadStream.read size fuel buf bytesRead s).1 = .spent := by
  induction fuel with
  | zero => exact fun _ _ _ _ _ => rfl
  | succ fuel ih =>
      intro buf bytesRead s hbad hlt
      have hmod : (bytesRead + 0) % 2 ^ 32 = bytesRead := Nat.mod_eq_of_lt (by omega)
      rw [readLoop, FileReadStream.read_of_bad hbad]
      dsimp only [List.length_nil]
      rw [if_pos (by rw [hmod]; exact ne_of_lt hlt), hmod]
      exact ih _ (by simp [IFStream.good]) hlt

/-- Nor does reading in a loop. -/
theorem readLoop_content (size fuel : ℕ) : ∀ (buf : List CChar) (bytesRead : ℕ) (s : IFStream),
    (readLoop FileReadStream.read size fuel buf bytesRead s).2.2.content = s.content := by
  induction fuel with
  | zero => exact fun _ _ _ => rfl
  | succ fuel ih =>
      intro buf bytesRead s
      have hread := FileReadStream.read_content s (size - bytesRead)
      rw [readLoop]
      split
      · rename_i heq
        rw [heq] at hread
        exact hread
      · rename_i heq
        rw [heq] at hread
        dsimp only
        split
        · exact (ih _ _ _).trans hread
        · exact hread

theorem ofLoop_stream {σ : Type} (loop : LoopEnd × List CChar × σ)
    (store : List CChar → V4LFrame) : (ofLoop loop store).stream = loop.2.2 := by
  obtain ⟨_ | _ | _, buf, s⟩ := loop <;> rfl

/-- What both phases keep of the stream, the chain keeps. -/
theorem andThen_content {run : Decode IFStream} {next : V4LFrame → IFStream → Decode IFStream}
    (hnext : ∀ frame s, (next frame s).stream.content = s.content) :
    (run.andThen next).stream.content = run.stream.content := by
  unfold Decode.andThen
  split
  · exact hnext _ _
  · rfl

/-- The decoder does not change the file. -/
theorem deserializeFrom_content (fuel : ℕ) (frame : V4LFrame) (s : IFStream) :
    (deserializeFrom FileReadStream.read fuel frame s).stream.content = s.content := by
  have hsizes (frame : V4LFrame) (s : IFStream) :
      (sizesPhase frame s).stream.content = s.content := by
    unfold sizesPhase
    split <;> rfl
  have hfields (frame : V4LFrame) (s : IFStream) :
      (parseFields frame s).stream.content = s.content := by
    unfold parseFields
    dsimp only
    split
    · rfl
    · split
      · rfl
      · split <;> rfl
  have hpayload (frame : V4LFrame) (s : IFStream) :
      (readPayload FileReadStream.read fuel frame s).stream.content = s.content := by
    rw [readPayload, ofLoop_stream, readLoop_content]
  have hrest (frame : V4LFrame) (s : IFStream) :
      (deserializeRest FileReadStream.read fuel frame s).stream.content = s.content := by
    rw [deserializeRest, andThen_content fun frame s =>
      (andThen_content hpayload).trans (hfields frame s), readHeader, ofLoop_stream,
      readLoop_content]
  rw [deserializeFrom, andThen_content fun frame s =>
    (andThen_content hrest).trans (hsizes frame s), readSizeBytes, ofLoop_stream,
    readLoop_content]

/-- A frame is read from a good stream only. -/
theorem good_of_deserializeFrom {fuel : ℕ} {frame : V4LFrame} {s : IFStream}
    (h : (deserializeFrom FileReadStream.read fuel frame s).outcome = .returned true) :
    s.good = true := by
  by_contra hbad
  obtain ⟨hfirst, -⟩ := Decode.andThen_true h
  obtain ⟨buf, s', hloop, -⟩ := ofLoop_true hfirst
  have hspent : (readLoop FileReadStream.read 8 fuel (resize frame.mHeader 8) 0 s).1 = .spent :=
    readLoop_of_bad (by decide) fuel _ (Bool.eq_false_iff.mpr hbad) (by decide)
  rw [hloop] at hspent
  cases hspent

end V4LFrame

/-- The frame at an offset of a file. -/
def frameAt (fuel : ℕ) (content : List CChar) (offset : ℤ) : V4LFrame :=
  (V4LFrame.deserializeFrom FileReadStream.read fuel {}
    (FileReadStream.mk { content := content } offset)).frame

/-- Where the file is positioned for a frame that is read does not depend on earlier
reads. -/
theorem FileReadStream.mk_eq_of_good {stream : IFStream} {offset : ℤ}
    (h : (FileReadStream.mk stream offset).good = true) :
    FileReadStream.mk stream offset = FileReadStream.mk { content := stream.content } offset := by
  obtain ⟨content, position, eofbit, failbit⟩ := stream
  unfold FileReadStream.mk IFStream.seekg at h ⊢
  cases failbit with
  | true => simp [IFStream.good] at h
  | false =>
      by_cases hneg : offset < 0
      · simp [IFStream.good, hneg] at h
      · simp [hneg]

/-- **What is read depends on the file and the offset.** -/
theorem attempt_true {fuel : ℕ} {faults : Faults} {n : ℕ} {stream : IFStream} {offset : ℤ}
    (h : (attempt fuel faults n stream offset).outcome = .returned true) :
    (attempt fuel faults n stream offset).frame = frameAt fuel stream.content offset ∧
      (attempt fuel faults n stream offset).stream.content = stream.content := by
  unfold attempt at h ⊢
  generalize faults n = fault at h ⊢
  cases fault with
  | some broken => exact absurd h (by simp)
  | none =>
      have hmk := FileReadStream.mk_eq_of_good (V4LFrame.good_of_deserializeFrom h)
      have hcontent : (FileReadStream.mk stream offset).content = stream.content := by
        unfold FileReadStream.mk IFStream.seekg
        split
        · rfl
        · split <;> rfl
      refine ⟨?_, (V4LFrame.deserializeFrom_content _ _ _).trans hcontent⟩
      dsimp only
      rw [hmk, frameAt]

/-! ## Passes in which every frame is read -/

/-- No call of `DeserializeFrom` failed. -/
def AllRead (attempts : List V4LFrame.Outcome) : Prop :=
  ∀ outcome ∈ attempts, outcome = .returned true

/-- What was read before was read. -/
theorem AllRead.of_prefix {front attempts : List V4LFrame.Outcome} (h : AllRead attempts)
    (hfront : front <+: attempts) : AllRead front :=
  fun outcome hmem => h outcome (hfront.subset hmem)

/-- What a scan depends on when every frame is read: the maps and the contents of the
files. -/
structure Snapshot where
  maps : List IndiciesMap
  contents : List (List CChar)
  deliveries : List Delivery := []
  left : Option V4LFrame.Outcome := none

namespace Snapshot

/-- Deliver the visited entries of one map and take them out. -/
def scanIndex (fuel : ℕ) (timestamp : ℤ) (shot : Snapshot) (index : ℕ) : Snapshot :=
  match shot.left, shot.maps[index]? with
  | none, some map =>
      let pairs := DatFileReader.visited map timestamp
      if pairs.isEmpty then shot
      else
        match shot.contents[index]? with
        | none => { shot with left := some .undefined }
        | some content =>
            { shot with
              maps := shot.maps.set index
                (pairs.foldl (fun map pair => map.erase pair.1) map)
              deliveries := shot.deliveries ++ pairs.map fun pair =>
                ⟨index, pair.1, frameAt fuel content pair.2⟩ }
  | _, _ => shot

end Snapshot

/-- The positions and the flags of the streams are left out. -/
def FileScan.snapshot (scan : FileScan) : Snapshot where
  maps := scan.replayer.reader.mIndicies
  contents := scan.replayer.reader.mDataStreams.map IFStream.content
  deliveries := scan.deliveries
  left := scan.left

namespace Replayer

/-- A visit that reads its frame. -/
theorem visitEntry_true {fuel : ℕ} {faults : Faults} {file : ℕ} {visit : FileVisit}
    {pair : ℤ × ℤ} (hleft : visit.left = none)
    (hall : AllRead (visitEntry fuel faults file visit pair).attempts) :
    ∃ stream, stream.content = visit.stream.content ∧
      visitEntry fuel faults file visit pair =
        { map := visit.map.erase pair.1
          stream := stream
          attempts := visit.attempts ++ [.returned true]
          deliveries := visit.deliveries ++
            [⟨file, pair.1, frameAt fuel visit.stream.content pair.2⟩]
          left := none } := by
  have hread := @attempt_true fuel faults visit.attempts.length visit.stream pair.2
  unfold visitEntry at hall ⊢
  generalize attempt fuel faults visit.attempts.length visit.stream pair.2 = run
    at hread hall ⊢
  rw [hleft] at hall ⊢
  obtain ⟨outcome, frame, stream, accesses⟩ := run
  have hlast (last : V4LFrame.Outcome)
      (h : AllRead (visit.attempts ++ [last])) : last = .returned true :=
    h last (List.mem_append_right _ (List.mem_singleton.mpr rfl))
  rcases outcome with (_ | _) | _ | _ | _ | _ | _
  · cases hlast _ hall
  · obtain ⟨hframe, hcontent⟩ := hread rfl
    refine ⟨stream, hcontent, ?_⟩
    rw [← hframe]
    rfl
  all_goals cases hlast _ hall

/-- Visits that read their frames: the entries are delivered and leave the map. -/
theorem foldl_visitEntry_true {fuel : ℕ} {faults : Faults} {file : ℕ}
    (pairs : List (ℤ × ℤ)) :
    ∀ {visit : FileVisit}, visit.left = none →
      AllRead (pairs.foldl (visitEntry fuel faults file) visit).attempts →
      ∃ stream attempts, stream.content = visit.stream.content ∧
        pairs.foldl (visitEntry fuel faults file) visit =
          { map := pairs.foldl (fun map pair => map.erase pair.1) visit.map
            stream := stream
            attempts := attempts
            deliveries := visit.deliveries ++ pairs.map fun pair =>
              ⟨file, pair.1, frameAt fuel visit.stream.content pair.2⟩
            left := none } := by
  induction pairs with
  | nil =>
      intro visit hleft _
      refine ⟨visit.stream, visit.attempts, rfl, ?_⟩
      rw [List.map_nil, List.append_nil, ← hleft]
      rfl
  | cons pair pairs ih =>
      intro visit hleft hall
      rw [List.foldl_cons] at hall ⊢
      have hgrow := foldl_prefix _ FileVisit.attempts
        (fun visit pair => visitEntry_attempts fuel faults file visit pair) pairs
        (visitEntry fuel faults file visit pair)
      obtain ⟨stream, hcontent, hstep⟩ := visitEntry_true hleft (hall.of_prefix hgrow)
      rw [hstep] at hall ⊢
      obtain ⟨stream', attempts, hcontent', hrest⟩ := ih rfl hall
      refine ⟨stream', attempts, hcontent'.trans hcontent, ?_⟩
      rw [hrest, hcontent, List.map_cons, List.append_assoc]
      rfl

/-- **A scan that reads its frames depends on the snapshot only.** -/
theorem scanIndex_snapshot {fuel : ℕ} {faults : Faults} {timestamp : ℤ} {scan : FileScan}
    {index : ℕ}
    (hall : AllRead (scanIndex fuel faults timestamp scan index).replayer.attempts) :
    (scanIndex fuel faults timestamp scan index).snapshot =
      scan.snapshot.scanIndex fuel timestamp index := by
  obtain ⟨⟨reader, attempts⟩, deliveries, left⟩ := scan
  unfold scanIndex at hall ⊢
  unfold Snapshot.scanIndex
  dsimp only [FileScan.snapshot] at hall ⊢
  cases left with
  | some outcome => rfl
  | none =>
      cases hmap : reader.mIndicies[index]? with
      | none => rfl
      | some map =>
          rw [hmap] at hall
          dsimp only at hall ⊢
          by_cases hempty : (DatFileReader.visited map timestamp).isEmpty = true
          · rw [if_pos hempty, if_pos hempty]
          · rw [if_neg hempty] at hall
            rw [if_neg hempty, if_neg hempty, List.getElem?_map]
            cases hstream : reader.mDataStreams[index]? with
            | none => rfl
            | some stream =>
                rw [hstream] at hall
                obtain ⟨stream', attempts', hcontent, hfold⟩ :=
                  foldl_visitEntry_true (DatFileReader.visited map timestamp) rfl hall
                dsimp only [Option.map_some]
                rw [hfold]
                have hsame : (reader.mDataStreams.set index stream').map IFStream.content =
                    reader.mDataStreams.map IFStream.content := by
                  obtain ⟨hlt, hget⟩ := List.getElem?_eq_some_iff.mp hstream
                  have hlt' : index < (reader.mDataStreams.map IFStream.content).length := by
                    rwa [List.length_map]
                  have hvalue : stream'.content =
                      (reader.mDataStreams.map IFStream.content)[index] := by
                    rw [List.getElem_map, hget, hcontent]
                  rw [List.map_set, hvalue, List.set_getElem_self hlt']
                dsimp only
                rw [hsame]

/-- When every frame is read, a scan depends on the snapshot alone. -/
theorem getFramesAtTimestamp_snapshot {fuel : ℕ} {faults : Faults} {replayer : Replayer}
    {timestamp : ℤ}
    (hall : AllRead (getFramesAtTimestamp fuel faults replayer timestamp).replayer.attempts) :
    (getFramesAtTimestamp fuel faults replayer timestamp).snapshot =
      (List.range replayer.reader.mIndicies.length).foldl (Snapshot.scanIndex fuel timestamp)
        (FileScan.snapshot { replayer := replayer }) := by
  have hfold (indices : List ℕ) : ∀ scan : FileScan,
      AllRead (indices.foldl (scanIndex fuel faults timestamp) scan).replayer.attempts →
      (indices.foldl (scanIndex fuel faults timestamp) scan).snapshot =
        indices.foldl (Snapshot.scanIndex fuel timestamp) scan.snapshot := by
    induction indices with
    | nil => exact fun _ _ => rfl
    | cons index indices ih =>
        intro scan hall
        have hgrow := foldl_prefix _ (fun scan : FileScan => scan.replayer.attempts)
          (fun scan index => scanIndex_attempts fuel faults timestamp scan index) indices
          (scanIndex fuel faults timestamp scan index)
        rw [List.foldl_cons] at hall ⊢
        rw [ih _ hall, scanIndex_snapshot (hall.of_prefix hgrow), List.foldl_cons]
  exact hfold _ _ hall

end Replayer

/-- A scan does not change the files. -/
theorem Snapshot.foldl_scanIndex_contents (fuel : ℕ) (timestamp : ℤ) (indices : List ℕ) :
    ∀ shot : Snapshot,
      (indices.foldl (Snapshot.scanIndex fuel timestamp) shot).contents = shot.contents := by
  induction indices with
  | nil => exact fun _ => rfl
  | cons index indices ih =>
      intro shot
      refine (ih _).trans ?_
      unfold Snapshot.scanIndex
      split
      · dsimp only
        split
        · rfl
        · split <;> rfl
      · rfl

/-- With a stream for every map a scan returns. -/
theorem Snapshot.foldl_scanIndex_left (fuel : ℕ) (timestamp : ℤ) (indices : List ℕ) :
    ∀ shot : Snapshot, shot.left = none → shot.maps.length ≤ shot.contents.length →
      (indices.foldl (Snapshot.scanIndex fuel timestamp) shot).left = none ∧
        (indices.foldl (Snapshot.scanIndex fuel timestamp) shot).maps.length =
          shot.maps.length := by
  induction indices with
  | nil => exact fun _ hleft _ => ⟨hleft, rfl⟩
  | cons index indices ih =>
      intro shot hleft hlen
      have hstep : (shot.scanIndex fuel timestamp index).left = none ∧
          (shot.scanIndex fuel timestamp index).maps.length = shot.maps.length := by
        unfold Snapshot.scanIndex
        split
        · rename_i map _ hmap
          dsimp only
          split
          · exact ⟨hleft, rfl⟩
          · have hlt : index < shot.contents.length :=
              lt_of_lt_of_le (List.getElem?_eq_some_iff.mp hmap).1 hlen
            rw [List.getElem?_eq_getElem hlt]
            exact ⟨hleft, List.length_set⟩
        · exact ⟨hleft, rfl⟩
      have hcontents := Snapshot.foldl_scanIndex_contents fuel timestamp [index] shot
      rw [List.foldl_cons, List.foldl_nil] at hcontents
      obtain ⟨hrest, hlength⟩ := ih (shot.scanIndex fuel timestamp index) hstep.1
        (by rw [hstep.2, hcontents]; exact hlen)
      exact ⟨hrest, hlength.trans hstep.2⟩

/-- Two readers with the same maps over the same files. -/
structure Agree (replayer other : Replayer) : Prop where
  maps : replayer.reader.mIndicies = other.reader.mIndicies
  contents : replayer.reader.mDataStreams.map IFStream.content =
    other.reader.mDataStreams.map IFStream.content
  settings : Replayer.settings replayer.reader = Replayer.settings other.reader

namespace Agree

variable {replayer other : Replayer}

theorem mStartTimestamp (h : Agree replayer other) :
    replayer.reader.mStartTimestamp = other.reader.mStartTimestamp :=
  (Replayer.eq_of_settings h.settings).2.1

theorem mEndTimestamp (h : Agree replayer other) :
    replayer.reader.mEndTimestamp = other.reader.mEndTimestamp :=
  (Replayer.eq_of_settings h.settings).2.2.1

end Agree

namespace Replayer

/-- Scans of readers that agree collect the same frames, and the readers still agree. -/
theorem getFramesAtTimestamp_agree {fuel : ℕ} {faults : Faults} {replayer other : Replayer}
    {timestamp : ℤ} (h : Agree replayer other)
    (hall : AllRead (getFramesAtTimestamp fuel faults replayer timestamp).replayer.attempts)
    (hall' : AllRead (getFramesAtTimestamp fuel faults other timestamp).replayer.attempts) :
    Agree (getFramesAtTimestamp fuel faults replayer timestamp).replayer
        (getFramesAtTimestamp fuel faults other timestamp).replayer ∧
      (getFramesAtTimestamp fuel faults replayer timestamp).deliveries =
        (getFramesAtTimestamp fuel faults other timestamp).deliveries ∧
      (getFramesAtTimestamp fuel faults replayer timestamp).left =
        (getFramesAtTimestamp fuel faults other timestamp).left := by
  have hsame : (getFramesAtTimestamp fuel faults replayer timestamp).snapshot =
      (getFramesAtTimestamp fuel faults other timestamp).snapshot := by
    rw [getFramesAtTimestamp_snapshot hall, getFramesAtTimestamp_snapshot hall']
    unfold FileScan.snapshot
    dsimp only
    rw [h.maps, h.contents]
  refine ⟨⟨congrArg Snapshot.maps hsame, congrArg Snapshot.contents hsame, ?_⟩,
    congrArg Snapshot.deliveries hsame, congrArg Snapshot.left hsame⟩
  rw [getFramesAtTimestamp_settings, getFramesAtTimestamp_settings, h.settings]

/-- The same of the streams themselves. -/
theorem getFramesAtTimestamp_contents {fuel : ℕ} {faults : Faults} {replayer : Replayer}
    {timestamp : ℤ}
    (hall : AllRead (getFramesAtTimestamp fuel faults replayer timestamp).replayer.attempts) :
    (getFramesAtTimestamp fuel faults replayer timestamp).replayer.reader.mDataStreams.map
        IFStream.content = replayer.reader.mDataStreams.map IFStream.content := by
  have hcontents := congrArg Snapshot.contents (getFramesAtTimestamp_snapshot hall)
  rw [Snapshot.foldl_scanIndex_contents] at hcontents
  exact hcontents

/-- A stream for every map. -/
def Streamed (reader : DatFileReader) : Prop :=
  reader.mIndicies.length ≤ reader.mDataStreams.length

/-- With a stream for every index a scan throws nothing. -/
theorem getFramesAtTimestamp_streamed {fuel : ℕ} {faults : Faults} {replayer : Replayer}
    {timestamp : ℤ} (h : Streamed replayer.reader)
    (hall : AllRead (getFramesAtTimestamp fuel faults replayer timestamp).replayer.attempts) :
    (getFramesAtTimestamp fuel faults replayer timestamp).left = none ∧
      (getFramesAtTimestamp fuel faults replayer timestamp).replayer.reader.mIndicies.length =
        replayer.reader.mIndicies.length ∧
      Streamed (getFramesAtTimestamp fuel faults replayer timestamp).replayer.reader := by
  have hsnapshot := getFramesAtTimestamp_snapshot hall
  obtain ⟨hleft, hlength⟩ := Snapshot.foldl_scanIndex_left fuel timestamp
    (List.range replayer.reader.mIndicies.length) (FileScan.snapshot { replayer := replayer })
    rfl (by rw [FileScan.snapshot, List.length_map]; exact h)
  rw [← hsnapshot] at hleft hlength
  have hcontents := congrArg List.length (getFramesAtTimestamp_contents hall)
  rw [List.length_map, List.length_map] at hcontents
  exact ⟨hleft, hlength, by rw [Streamed, hcontents]; exact hlength.le.trans h⟩

/-- The calls of the first scan are calls of the loop. -/
theorem scan_prefix_loopFrom {fuel : ℕ} {faults : Faults} {steps : ℕ} {currentTimestamp : ℤ}
    {pass : FilePass} (hmore : currentTimestamp < pass.replayer.reader.mEndTimestamp) :
    (getFramesAtTimestamp fuel faults pass.replayer currentTimestamp).replayer.attempts <+:
      (loopFrom fuel faults (steps + 1) currentTimestamp pass).replayer.attempts := by
  obtain ⟨hend, -⟩ | ⟨scan, rfl, ⟨ended, -, hloop⟩ | ⟨-, hloop⟩⟩ :=
    loopFrom_cases fuel faults steps currentTimestamp pass
  · exact absurd hmore hend
  · simp only [hloop, List.prefix_rfl]
  · rw [hloop]
    exact loopFrom_attempts fuel faults steps (currentTimestamp + timestampStep) ⟨_, _, _⟩

/-- The loops of two readers that agree, scan by scan. -/
theorem loopFrom_agree {fuel : ℕ} {faults : Faults} (steps : ℕ) :
    ∀ (currentTimestamp : ℤ) {pass other : FilePass}, Agree pass.replayer other.replayer →
      pass.deliveries = other.deliveries → pass.ended = other.ended →
      AllRead (loopFrom fuel faults steps currentTimestamp pass).replayer.attempts →
      AllRead (loopFrom fuel faults steps currentTimestamp other).replayer.attempts →
      (loopFrom fuel faults steps currentTimestamp pass).deliveries =
          (loopFrom fuel faults steps currentTimestamp other).deliveries ∧
        (loopFrom fuel faults steps currentTimestamp pass).ended =
          (loopFrom fuel faults steps currentTimestamp other).ended ∧
        (loopFrom fuel faults steps currentTimestamp pass).replayer.reader.mDataStreams.map
            IFStream.content = pass.replayer.reader.mDataStreams.map IFStream.content := by
  induction steps with
  | zero => exact fun _ _ _ _ hdeliveries hended _ _ => ⟨hdeliveries, hended, rfl⟩
  | succ steps ih =>
      intro currentTimestamp pass other h hdeliveries hended hall hall'
      by_cases hmore : currentTimestamp < pass.replayer.reader.mEndTimestamp
      · have hmore' : currentTimestamp < other.replayer.reader.mEndTimestamp := by
          rwa [← h.mEndTimestamp]
        have hscan := hall.of_prefix (scan_prefix_loopFrom hmore)
        have hscan' := hall'.of_prefix (scan_prefix_loopFrom hmore')
        obtain ⟨hagree, hframes, hleft⟩ := getFramesAtTimestamp_agree h hscan hscan'
        have hcontents := getFramesAtTimestamp_contents hscan
        rw [loopFrom, if_pos hmore] at hall ⊢
        rw [loopFrom, if_pos hmore'] at hall' ⊢
        dsimp only at hall hall' ⊢
        rw [← hleft] at hall' ⊢
        cases hend : (getFramesAtTimestamp fuel faults pass.replayer currentTimestamp).left with
        | some outcome => exact ⟨hdeliveries, rfl, hcontents⟩
        | none =>
            rw [hend] at hall hall'
            dsimp only at hall hall' ⊢
            by_cases hrange : longMax < currentTimestamp + timestampStep
            · rw [if_pos hrange, if_pos hrange]
              exact ⟨hdeliveries, rfl, hcontents⟩
            · rw [if_neg hrange] at hall hall'
              rw [if_neg hrange, if_neg hrange]
              obtain ⟨hsame, hends, hfiles⟩ := @ih (currentTimestamp + timestampStep)
                ⟨_, pass.deliveries ++ _, pass.ended⟩ ⟨_, other.deliveries ++ _, other.ended⟩
                hagree (by rw [hdeliveries, hframes]) hended hall hall'
              exact ⟨hsame, hends, hfiles.trans hcontents⟩
      · have hmore' : ¬currentTimestamp < other.replayer.reader.mEndTimestamp := by
          rwa [← h.mEndTimestamp]
        rw [loopFrom, if_neg hmore, loopFrom, if_neg hmore']
        exact ⟨hdeliveries, hended, rfl⟩

theorem scans_settings (fuel : ℕ) (faults : Faults) (replayer : Replayer) :
    settings (scans fuel faults replayer).replayer.reader = settings replayer.reader :=
  loopFrom_settings fuel faults _ _ _

/-- A pass that ends normally restores the maps, the others leave them. -/
theorem loop_cases (fuel : ℕ) (faults : Faults) (replayer : Replayer) :
    (loop fuel faults replayer).deliveries = (scans fuel faults replayer).deliveries ∧
      (loop fuel faults replayer).ended = (scans fuel faults replayer).ended ∧
      (loop fuel faults replayer).replayer.attempts =
        (scans fuel faults replayer).replayer.attempts ∧
      ((loop fuel faults replayer).ended = .done →
        (loop fuel faults replayer).replayer =
          (scans fuel faults replayer).replayer.restored) := by
  have hrestored (replayer : Replayer) : replayer.restored.attempts = replayer.attempts := by
    unfold restored
    split <;> rfl
  unfold loop
  dsimp only
  split
  · rename_i hdone
    exact ⟨rfl, rfl, hrestored _, fun _ => rfl⟩
  · rename_i hnot
    exact ⟨rfl, rfl, rfl, fun h => absurd h hnot⟩

/-- **Passes in which every frame is read deliver the same.** -/
theorem loop_agree {fuel : ℕ} {faults : Faults} {replayer other : Replayer}
    (h : Agree replayer other)
    (hall : AllRead (loop fuel faults replayer).replayer.attempts)
    (hall' : AllRead (loop fuel faults other).replayer.attempts) :
    (loop fuel faults replayer).deliveries = (loop fuel faults other).deliveries := by
  obtain ⟨hdeliveries, -, hattempts, -⟩ := loop_cases fuel faults replayer
  obtain ⟨hdeliveries', -, hattempts', -⟩ := loop_cases fuel faults other
  rw [hattempts, scans] at hall
  rw [hattempts', scans, ← h.mStartTimestamp, ← h.mEndTimestamp] at hall'
  rw [hdeliveries, hdeliveries', scans, scans, ← h.mStartTimestamp, ← h.mEndTimestamp]
  exact (@loopFrom_agree fuel faults _ _ { replayer := replayer } { replayer := other } h rfl
    rfl hall hall').1

/-- Without the copy the maps stay as the scans left them. -/
theorem loop_kept {fuel : ℕ} {faults : Faults} {replayer : Replayer}
    (hinf : replayer.reader.mReadInfinitely = false)
    (hdone : (loop fuel faults replayer).ended = .done) :
    (loop fuel faults replayer).replayer = (scans fuel faults replayer).replayer := by
  obtain ⟨-, -, -, hreplayer⟩ := loop_cases fuel faults replayer
  obtain ⟨-, -, -, hflag⟩ := eq_of_settings (scans_settings fuel faults replayer)
  rw [hreplayer hdone, restored, hflag, hinf, if_neg Bool.false_ne_true]

/-- A reader that starts its passes on the copy of the maps. -/
structure Repeats (replayer : Replayer) : Prop where
  mReadInfinitely : replayer.reader.mReadInfinitely = true
  copied : replayer.reader.mIndicies = replayer.reader.mCopyIndicies

/-- Behind a pass that reads all frames the reader is back where it was. -/
theorem loop_repeats {fuel : ℕ} {faults : Faults} {replayer : Replayer}
    (h : Repeats replayer) (hdone : (loop fuel faults replayer).ended = .done)
    (hall : AllRead (loop fuel faults replayer).replayer.attempts) :
    Agree (loop fuel faults replayer).replayer replayer ∧
      Repeats (loop fuel faults replayer).replayer := by
  obtain ⟨-, -, hattempts, hreplayer⟩ := loop_cases fuel faults replayer
  have hsettings := scans_settings fuel faults replayer
  obtain ⟨hcopy, -, -, hinf⟩ := eq_of_settings hsettings
  rw [hattempts, scans] at hall
  have hcontents := (@loopFrom_agree fuel faults _ _ { replayer := replayer }
    { replayer := replayer } ⟨rfl, rfl, rfl⟩ rfl rfl hall hall).2.2
  rw [← scans] at hcontents
  have hrestored : (scans fuel faults replayer).replayer.restored =
      ⟨{ (scans fuel faults replayer).replayer.reader with
        mIndicies := (scans fuel faults replayer).replayer.reader.mCopyIndicies },
        (scans fuel faults replayer).replayer.attempts⟩ := by
    rw [restored, if_pos (hinf.trans h.mReadInfinitely)]
  rw [hreplayer hdone, hrestored]
  exact ⟨⟨hcopy.trans h.copied.symm, hcontents, hsettings⟩,
    ⟨hinf.trans h.mReadInfinitely, rfl⟩⟩

/-- The first pass is made, and the others only behind one that ends normally. -/
theorem passes_cases (fuel : ℕ) (faults : Faults) (k : ℕ) (replayer : Replayer) :
    ∃ later, passes fuel faults (k + 1) replayer = loop fuel faults replayer :: later ∧
      (later = [] ∨ ((loop fuel faults replayer).ended = .done ∧
        later = passes fuel faults k (loop fuel faults replayer).replayer)) := by
  rw [passes]
  split
  · rename_i hdone
    exact ⟨_, rfl, Or.inr ⟨hdone, rfl⟩⟩
  · exact ⟨[], rfl, Or.inl rfl⟩

/-- The first pass is one. -/
theorem loop_mem_passes (fuel : ℕ) (faults : Faults) (k : ℕ) (replayer : Replayer) :
    loop fuel faults replayer ∈ passes fuel faults (k + 1) replayer := by
  obtain ⟨later, hpasses, -⟩ := passes_cases fuel faults k replayer
  rw [hpasses]
  exact List.mem_cons_self

/-- From equal indices every pass delivers what the first one did. -/
theorem passes_same {fuel : ℕ} {faults : Faults} {first : Replayer}
    (hfirst : AllRead (loop fuel faults first).replayer.attempts) (k : ℕ) :
    ∀ {replayer : Replayer}, Agree replayer first → Repeats replayer →
      (∀ pass ∈ passes fuel faults k replayer, AllRead pass.replayer.attempts) →
      ∀ pass ∈ passes fuel faults k replayer,
        pass.deliveries = (loop fuel faults first).deliveries := by
  induction k with
  | zero => exact fun _ _ _ pass hpass => absurd hpass List.not_mem_nil
  | succ k ih =>
      intro replayer h hrepeats hall pass hpass
      have hhere := hall _ (loop_mem_passes fuel faults k replayer)
      obtain ⟨later, hpasses, hlater⟩ := passes_cases fuel faults k replayer
      rw [hpasses] at hall hpass
      rcases List.mem_cons.mp hpass with rfl | hpass
      · exact loop_agree h hhere hfirst
      · rcases hlater with rfl | ⟨hdone, rfl⟩
        · exact absurd hpass List.not_mem_nil
        · obtain ⟨hagree, hrepeats'⟩ := loop_repeats hrepeats hdone hhere
          refine ih ⟨hagree.maps.trans h.maps, hagree.contents.trans h.contents,
            hagree.settings.trans h.settings⟩ hrepeats' ?_ pass hpass
          exact fun pass hpass => hall pass (List.mem_cons_of_mem _ hpass)

/-! ## Deliveries of a run -/

/-- The frames of one file come in ascending order of their timestamps. -/
def Ascending (deliveries : List Delivery) : Prop :=
  deliveries.Pairwise fun earlier later =>
    earlier.file = later.file → earlier.timestamp < later.timestamp

/-- In one pass the timestamps of a file ascend, if no read returned false. -/
theorem loop_ascending {fuel : ℕ} {faults : Faults} {replayer : Replayer}
    (h : .returned false ∉ (loop fuel faults replayer).replayer.attempts) :
    Ascending (loop fuel faults replayer).deliveries := by
  obtain ⟨hdeliveries, -, hattempts, -⟩ := loop_cases fuel faults replayer
  rw [hattempts] at h
  obtain ⟨rest, htakes, -⟩ := @scans_take fuel faults True replayer fun _ => h
  rw [hdeliveries]
  exact (List.pairwise_map.mp htakes.ordered).imp fun hfollows => hfollows.2 trivial

/-- Every pass is one, from some state. -/
theorem exists_loop_of_mem_passes {fuel : ℕ} {faults : Faults} {pass : FilePass} {k : ℕ} :
    ∀ {replayer : Replayer}, pass ∈ passes fuel faults k replayer →
      ∃ replayer', pass = loop fuel faults replayer' := by
  induction k with
  | zero => exact fun h => absurd h List.not_mem_nil
  | succ k ih =>
      intro replayer h
      obtain ⟨later, hpasses, hlater⟩ := passes_cases fuel faults k replayer
      rw [hpasses] at h
      rcases List.mem_cons.mp h with rfl | h
      · exact ⟨replayer, rfl⟩
      · rcases hlater with rfl | ⟨-, rfl⟩
        · exact absurd h List.not_mem_nil
        · exact ih h

/-- Without the copy, `k` passes take their entries off the maps of the first. -/
theorem passes_take {fuel : ℕ} {faults : Faults} (k : ℕ) :
    ∀ {replayer : Replayer}, replayer.reader.mReadInfinitely = false →
      ∃ rest, Takes (Follows False) (held replayer.reader.mIndicies) rest
        (((passes fuel faults k replayer).flatMap FilePass.deliveries).map
          Delivery.entry) := by
  induction k with
  | zero => exact fun _ => ⟨_, Takes.nothing _⟩
  | succ k ih =>
      intro replayer hinf
      obtain ⟨hdeliveries, hended, -, -⟩ := loop_cases fuel faults replayer
      obtain ⟨rest, htakes, hrest⟩ := @scans_take fuel faults False replayer False.elim
      rw [← hdeliveries] at htakes
      obtain ⟨later, hpasses, rfl | ⟨hdone, rfl⟩⟩ := passes_cases fuel faults k replayer
      · rw [hpasses]
        exact ⟨rest, by simpa using htakes⟩
      · rw [hpasses]
        have hkept := loop_kept hinf hdone
        obtain ⟨-, -, -, hflag⟩ := eq_of_settings (scans_settings fuel faults replayer)
        obtain ⟨rest', htakes'⟩ := @ih (loop fuel faults replayer).replayer (by
          rw [hkept, hflag, hinf])
        refine ⟨rest', ?_⟩
        rw [List.flatMap_cons, List.map_append]
        rw [hkept, ← hrest (hended ▸ hdone)] at htakes'
        rw [hkept]
        exact htakes.trans htakes'

/-- Scans that read their frames reach the end of the time range. -/
theorem loopFrom_done {fuel : ℕ} {faults : Faults} (steps : ℕ) :
    ∀ (currentTimestamp : ℤ) {pass : FilePass}, Streamed pass.replayer.reader →
      pass.ended = .done → pass.replayer.reader.mEndTimestamp + timestampStep ≤ longMax + 1 →
      AllRead (loopFrom fuel faults steps currentTimestamp pass).replayer.attempts →
      (loopFrom fuel faults steps currentTimestamp pass).ended = .done ∧
        Streamed (loopFrom fuel faults steps currentTimestamp pass).replayer.reader := by
  induction steps with
  | zero => exact fun _ _ h hended _ _ => ⟨hended, h⟩
  | succ steps ih =>
      intro currentTimestamp pass h hended hrange hall
      by_cases hmore : currentTimestamp < pass.replayer.reader.mEndTimestamp
      · obtain ⟨hleft, -, hstreamed⟩ :=
          getFramesAtTimestamp_streamed h (hall.of_prefix (scan_prefix_loopFrom hmore))
        obtain ⟨-, -, hend, -⟩ := eq_of_settings
          (getFramesAtTimestamp_settings fuel faults pass.replayer currentTimestamp)
        rw [loopFrom, if_pos hmore] at hall ⊢
        dsimp only at hall ⊢
        rw [hleft] at hall ⊢
        dsimp only at hall ⊢
        rw [if_neg (by omega)] at hall ⊢
        refine ih _ hstreamed hended ?_ hall
        exact (congrArg (· + timestampStep) hend).le.trans hrange
      · rw [loopFrom, if_neg hmore]
        exact ⟨hended, h⟩

/-- Behind a pass that reads all frames the next one can be made. -/
theorem loop_done {fuel : ℕ} {faults : Faults} {replayer : Replayer}
    (h : Streamed replayer.reader)
    (hcopy : replayer.reader.mReadInfinitely = true → Repeats replayer)
    (hrange : replayer.reader.mEndTimestamp + timestampStep ≤ longMax + 1)
    (hall : AllRead (loop fuel faults replayer).replayer.attempts) :
    (loop fuel faults replayer).ended = .done ∧
      Streamed (loop fuel faults replayer).replayer.reader ∧
      settings (loop fuel faults replayer).replayer.reader = settings replayer.reader ∧
      ((loop fuel faults replayer).replayer.reader.mReadInfinitely = true →
        Repeats (loop fuel faults replayer).replayer) := by
  obtain ⟨-, hended, hattempts, -⟩ := loop_cases fuel faults replayer
  have hscans := hall
  rw [hattempts, scans] at hscans
  obtain ⟨hdone, hstreamed⟩ := @loopFrom_done fuel faults _ _ { replayer := replayer } h rfl
    hrange hscans
  rw [← scans] at hdone hstreamed
  have hend : (loop fuel faults replayer).ended = .done := hended.trans hdone
  cases hinf : replayer.reader.mReadInfinitely with
  | false =>
      have hsettings := scans_settings fuel faults replayer
      obtain ⟨-, -, -, hflag⟩ := eq_of_settings hsettings
      rw [loop_kept hinf hend]
      refine ⟨hend, hstreamed, hsettings, fun hread => ?_⟩
      rw [hflag, hinf] at hread
      exact absurd hread Bool.false_ne_true
  | true =>
      obtain ⟨hagree, hrepeats⟩ := loop_repeats (hcopy hinf) hend hall
      have hcontents := congrArg List.length hagree.contents
      rw [List.length_map, List.length_map] at hcontents
      exact ⟨hend, by rw [Streamed, hagree.maps, hcontents]; exact h, hagree.settings,
        fun _ => hrepeats⟩

/-- **No pass is missing**: when every frame is read and the time range leaves room for a
last step, there are `k` passes. -/
theorem length_passes {fuel : ℕ} {faults : Faults} (k : ℕ) :
    ∀ {replayer : Replayer}, Streamed replayer.reader →
      (replayer.reader.mReadInfinitely = true → Repeats replayer) →
      replayer.reader.mEndTimestamp + timestampStep ≤ longMax + 1 →
      (∀ pass ∈ passes fuel faults k replayer, AllRead pass.replayer.attempts) →
      (passes fuel faults k replayer).length = k := by
  induction k with
  | zero => exact fun _ _ _ _ => rfl
  | succ k ih =>
      intro replayer h hcopy hrange hall
      obtain ⟨hdone, hstreamed, hsettings, hcopy'⟩ := loop_done h hcopy hrange
        (hall _ (loop_mem_passes fuel faults k replayer))
      obtain ⟨-, -, hend, -⟩ := eq_of_settings hsettings
      rw [passes] at hall ⊢
      rw [hdone] at hall ⊢
      dsimp only at hall ⊢
      rw [List.length_cons, ih hstreamed hcopy' (by rw [hend]; exact hrange)
        fun pass hpass => hall pass (List.mem_cons_of_mem _ hpass)]

/-- The first one is that from the start. -/
theorem mem_passes_head {fuel : ℕ} {faults : Faults} {k : ℕ} {replayer : Replayer}
    {first : FilePass} (h : first ∈ (passes fuel faults k replayer).head?) :
    first = loop fuel faults replayer := by
  cases k with
  | zero => cases h
  | succ k =>
      obtain ⟨later, hpasses, -⟩ := passes_cases fuel faults k replayer
      rw [hpasses] at h
      exact (Option.some.inj h).symm

/-- **What the passes after a `Start` deliver.**  Without the copy no entry is delivered
twice; with it, and when every frame is read, all passes deliver the same; and where no
frame fails to be read, each pass delivers the frames of a file in ascending order. -/
theorem passes_deliveries (fuel : ℕ) (faults : Faults) (readInfinitely : Bool)
    (files : List (List CChar × IndiciesMap)) (k : ℕ) :
    let run := passes fuel faults k { reader := DatFileReader.opened readInfinitely files }
    (readInfinitely = false →
        ((run.flatMap FilePass.deliveries).map Delivery.entry).Nodup) ∧
      (readInfinitely = true → (∀ pass ∈ run, AllRead pass.replayer.attempts) →
        ∀ first ∈ run.head?, ∀ pass ∈ run, pass.deliveries = first.deliveries) ∧
      ((∀ pass ∈ run, .returned false ∉ pass.replayer.attempts) →
        ∀ pass ∈ run, Ascending pass.deliveries) := by
  intro run
  obtain ⟨start, last, hopened⟩ := DatFileReader.getTimestampPeeks_range
    { mDataStreams := files.map fun file => { content := file.1 }
      mIndicies := files.map Prod.snd
      mCopyIndicies := if readInfinitely then files.map Prod.snd else []
      mReadInfinitely := readInfinitely }
  rw [← DatFileReader.opened] at hopened
  refine ⟨fun hinf => ?_, fun hinf hall first hfirst => ?_, fun hclean pass hpass => ?_⟩
  · obtain ⟨rest, htakes⟩ := @passes_take fuel faults k
      { reader := DatFileReader.opened readInfinitely files } (by rw [hopened]; exact hinf)
    exact htakes.nodup fun hfollows => hfollows.1
  · have hmem : first ∈ run := List.mem_of_mem_head? hfirst
    rw [mem_passes_head hfirst] at hmem ⊢
    refine passes_same (hall _ hmem) k ⟨rfl, rfl, rfl⟩ ⟨?_, ?_⟩ hall
    · rw [hopened]
      exact hinf
    · rw [hopened, hinf]
      rfl
  · obtain ⟨replayer, rfl⟩ := exists_loop_of_mem_passes hpass
    exact loop_ascending (hclean _ hpass)

/-- Three frames, of which a pass reaches the first. -/
def threeSaved : List Saved :=
  [{ emptyFrame with timestamp := 1 }, { emptyFrame with timestamp := 500 },
    { emptyFrame with timestamp := 5001 }]

example :
    let disk := runSessions [⟨.truncate, threeSaved⟩]
    let reader := DatFileReader.start { mReadInfinitely := true } [(disk.raw, disk.idx)] 0 0
    (passes 200 noFaults 2 { reader := reader }).map
      (fun pass => pass.deliveries.map Delivery.entry) = [[(0, 1)], [(0, 1)]] := by
  decide

end Replayer

end NewCPP
