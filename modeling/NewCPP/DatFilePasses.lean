import Mathlib.Data.Set.Lattice
import NewCPP.DatFileReader
import NewCPP.Library.Taking

/-!
# Passes of the replayer

`Worker::Run` calls `DatFileReader::Loop` again and again.  A pass takes the entries it
delivers out of the maps; with `mReadInfinitely` it puts the copy back at its end.

## Design notes

**Entries.**  The definitions here follow `DatFileReader` statement by statement and
keep, with every frame, the file and the timestamp it was read for, and the outcome of
every call of `DeserializeFrom`.  `loop_eq` forgets these again.

**Failing files.**  A call of `DeserializeFrom` fails on what is in the file or because
reading the file fails.  Which calls meet a failing file is a parameter, and so is the
state in which such a call leaves the stream; the data files do not change.

**Visiting.**  The assumption of `NewCPP.DatFileReader` about `std::for_each`, whose visitor erases
the entry that it is given, is made here too.

**Ends of a run.**  A pass that the decoder does not return to, or in which the current
time leaves the range of `long`, is the last one.

A pass takes the entries it delivers off the maps, in ascending order where nothing
fails: `Replayer.scans_take`.
-/

namespace NewCPP

open Library

/-- A frame for the listener, with the entry it was read for. -/
structure Delivery where
  file : ℕ
  timestamp : ℤ
  frame : V4LFrame

/-- Which entry of the indices was delivered. -/
def Delivery.entry (delivery : Delivery) : ℕ × ℤ :=
  (delivery.file, delivery.timestamp)

/-- The calls of `DeserializeFrom`, counted over all passes, that a failing file ends:
such a call returns false and leaves the stream in the given state. -/
abbrev Faults := ℕ → Option IFStream

/-- The `n`-th call of `DeserializeFrom`, on a new frame. -/
def attempt (fuel : ℕ) (faults : Faults) (n : ℕ) (stream : IFStream) (offset : ℤ) :
    V4LFrame.Decode IFStream :=
  match faults n with
  | some broken => ⟨.returned false, {}, broken, []⟩
  | none =>
      V4LFrame.deserializeFrom FileReadStream.read fuel {} (FileReadStream.mk stream offset)

/-- A reader, and the outcomes of its calls of `DeserializeFrom`. -/
structure Replayer where
  reader : DatFileReader
  attempts : List V4LFrame.Outcome := []

/-- The visitor's view of one map and its stream. -/
structure FileVisit where
  map : IndiciesMap
  stream : IFStream
  attempts : List V4LFrame.Outcome
  deliveries : List Delivery := []
  left : Option V4LFrame.Outcome := none

/-- The frames collected by a scan of the maps. -/
structure FileScan where
  replayer : Replayer
  deliveries : List Delivery := []
  left : Option V4LFrame.Outcome := none

/-- A pass: what it delivered and how it ended. -/
structure FilePass where
  replayer : Replayer
  deliveries : List Delivery := []
  ended : DatFileReader.PassEnd := .done

namespace Replayer

/-- The visitor of `GetFramesAtTimestamp`. -/
def visitEntry (fuel : ℕ) (faults : Faults) (file : ℕ) (visit : FileVisit) (pair : ℤ × ℤ) :
    FileVisit :=
  if visit.left.isSome then visit
  else
    let run := attempt fuel faults visit.attempts.length visit.stream pair.2
    let visit :=
      { visit with stream := run.stream, attempts := visit.attempts ++ [run.outcome] }
    match run.outcome with
    | .returned true =>
        { visit with
          map := visit.map.erase pair.1
          deliveries := visit.deliveries ++ [⟨file, pair.1, run.frame⟩] }
    | .returned false => visit
    | outcome => { visit with left := some outcome }

/-- One iteration of the index loop. -/
def scanIndex (fuel : ℕ) (faults : Faults) (timestamp : ℤ) (scan : FileScan) (index : ℕ) :
    FileScan :=
  match scan.left, scan.replayer.reader.mIndicies[index]? with
  | none, some map =>
      if (DatFileReader.visited map timestamp).isEmpty then scan
      else
        match scan.replayer.reader.mDataStreams[index]? with
        | none => { scan with left := some .undefined }
        | some stream =>
            let visit := (DatFileReader.visited map timestamp).foldl
              (visitEntry fuel faults index)
              { map := map
                stream := stream
                attempts := scan.replayer.attempts
                deliveries := scan.deliveries }
            { replayer :=
                { reader :=
                    { scan.replayer.reader with
                      mIndicies := scan.replayer.reader.mIndicies.set index visit.map
                      mDataStreams :=
                        scan.replayer.reader.mDataStreams.set index visit.stream }
                  attempts := visit.attempts }
              deliveries := visit.deliveries
              left := visit.left }
  | _, _ => scan

/-- One timestamp, index after index, with the faults of the streams and of the handler. -/
def getFramesAtTimestamp (fuel : ℕ) (faults : Faults) (replayer : Replayer)
    (timestamp : ℤ) : FileScan :=
  (List.range replayer.reader.mIndicies.length).foldl (scanIndex fuel faults timestamp)
    { replayer := replayer }

/-- `while (currentTimestamp < mEndTimestamp)`. -/
def loopFrom (fuel : ℕ) (faults : Faults) : ℕ → ℤ → FilePass → FilePass
  | 0, _, pass => pass
  | steps + 1, currentTimestamp, pass =>
      if currentTimestamp < pass.replayer.reader.mEndTimestamp then
        let scan := getFramesAtTimestamp fuel faults pass.replayer currentTimestamp
        match scan.left with
        | some outcome => { pass with replayer := scan.replayer, ended := .left outcome }
        | none =>
            if longMax < currentTimestamp + timestampStep then
              { pass with replayer := scan.replayer, ended := .overflow }
            else
              loopFrom fuel faults steps (currentTimestamp + timestampStep)
                { pass with
                  replayer := scan.replayer
                  deliveries := pass.deliveries ++ scan.deliveries }
      else pass

/-- The scans of a pass. -/
def scans (fuel : ℕ) (faults : Faults) (replayer : Replayer) : FilePass :=
  loopFrom fuel faults
    (replayer.reader.mEndTimestamp - replayer.reader.mStartTimestamp).toNat
    replayer.reader.mStartTimestamp { replayer := replayer }

/-- The maps are restored at the end of a pass. -/
def restored (replayer : Replayer) : Replayer :=
  if replayer.reader.mReadInfinitely then
    { replayer with
      reader := { replayer.reader with mIndicies := replayer.reader.mCopyIndicies } }
  else replayer

/-- One pass; a reader that reads infinitely then puts the erased entries back. -/
def loop (fuel : ℕ) (faults : Faults) (replayer : Replayer) : FilePass :=
  let pass := scans fuel faults replayer
  match pass.ended with
  | .done => { pass with replayer := pass.replayer.restored }
  | _ => pass

/-- `Worker::Run`: at most `k` passes, one after the other. -/
def passes (fuel : ℕ) (faults : Faults) : ℕ → Replayer → List FilePass
  | 0, _ => []
  | k + 1, replayer =>
      let pass := loop fuel faults replayer
      match pass.ended with
      | .done => pass :: passes fuel faults k pass.replayer
      | _ => [pass]

end Replayer

namespace DatFileReader

/-- `Start` of a new reader on data files with these contents and index maps. -/
def opened (readInfinitely : Bool) (files : List (List CChar × IndiciesMap)) :
    DatFileReader :=
  getTimestampPeeks
    { mDataStreams := files.map fun file => { content := file.1 }
      mIndicies := files.map Prod.snd
      mCopyIndicies := if readInfinitely then files.map Prod.snd else []
      mReadInfinitely := readInfinitely }

/-- `Start` reads the index maps from the index files. -/
theorem start_eq_opened (readInfinitely : Bool) (datFiles : List (List CChar × List CChar))
    (timestamp frameSize : UInt64) :
    start { mReadInfinitely := readInfinitely } datFiles timestamp frameSize =
      opened readInfinitely
        (datFiles.map fun file => (file.1, readIndicies file.2 timestamp frameSize)) := by
  cases readInfinitely <;> simp [start, opened, Function.comp_def]

end DatFileReader

/-! ## The reader without failing files -/

/-- What `DatFileReader` keeps of a visit. -/
def FileVisit.toVisit (visit : FileVisit) : Visit where
  map := visit.map
  stream := visit.stream
  frames := visit.deliveries.map Delivery.frame
  left := visit.left

/-- What `DatFileReader` keeps of a scan. -/
def FileScan.toScan (scan : FileScan) : Scan where
  reader := scan.replayer.reader
  frames := scan.deliveries.map Delivery.frame
  left := scan.left

/-- What `DatFileReader` keeps of a pass. -/
def FilePass.toPass (pass : FilePass) : DatFileReader.Pass where
  reader := pass.replayer.reader
  delivered := pass.deliveries.map Delivery.frame
  ended := pass.ended

namespace Replayer

/-- No call meets a failing file. -/
def noFaults : Faults :=
  fun _ => none

/-- Without faults a visit is the one of `DatFileReader`. -/
theorem visitEntry_eq (fuel file : ℕ) (visit : FileVisit) (pair : ℤ × ℤ) :
    (visitEntry fuel noFaults file visit pair).toVisit =
      DatFileReader.visitEntry fuel visit.toVisit pair := by
  unfold visitEntry DatFileReader.visitEntry
  by_cases hleft : visit.left.isSome
  · rw [if_pos hleft, if_pos (show visit.toVisit.left.isSome = true from hleft)]
  · rw [if_neg hleft, if_neg (show ¬visit.toVisit.left.isSome = true from hleft)]
    have hrun : attempt fuel noFaults visit.attempts.length visit.stream pair.2 =
        V4LFrame.deserializeFrom FileReadStream.read fuel {}
          (FileReadStream.mk visit.toVisit.stream pair.2) := rfl
    rw [hrun]
    generalize V4LFrame.deserializeFrom FileReadStream.read fuel {}
      (FileReadStream.mk visit.toVisit.stream pair.2) = run
    obtain ⟨outcome, frame, stream, accesses⟩ := run
    rcases outcome with (_ | _) | _ | _ | _ | _ | _ <;> simp [FileVisit.toVisit]

/-- Without faults, one index. -/
theorem scanIndex_eq (fuel : ℕ) (timestamp : ℤ) (scan : FileScan) (index : ℕ) :
    (scanIndex fuel noFaults timestamp scan index).toScan =
      DatFileReader.scanIndex fuel timestamp scan.toScan index := by
  have hvisits (visit : FileVisit) (pairs : List (ℤ × ℤ)) :
      (pairs.foldl (visitEntry fuel noFaults index) visit).toVisit =
        pairs.foldl (DatFileReader.visitEntry fuel) visit.toVisit :=
    (List.foldl_hom FileVisit.toVisit
      fun visit pair => (visitEntry_eq fuel index visit pair).symm).symm
  unfold scanIndex DatFileReader.scanIndex
  obtain ⟨⟨reader, attempts⟩, deliveries, left⟩ := scan
  cases left with
  | some outcome => rfl
  | none =>
      dsimp only [FileScan.toScan]
      cases hmap : reader.mIndicies[index]? with
      | none => rfl
      | some map =>
          dsimp only
          by_cases hempty : (DatFileReader.visited map timestamp).isEmpty = true
          · rw [if_pos hempty, if_pos hempty]
          · rw [if_neg hempty, if_neg hempty]
            cases hstream : reader.mDataStreams[index]? with
            | none => rfl
            | some stream =>
                have hfold := hvisits ⟨map, stream, attempts, deliveries, none⟩
                  (DatFileReader.visited map timestamp)
                dsimp only [FileVisit.toVisit] at hfold ⊢
                rw [← hfold]

/-- Without faults, all indices at one timestamp. -/
theorem getFramesAtTimestamp_eq (fuel : ℕ) (replayer : Replayer) (timestamp : ℤ) :
    (getFramesAtTimestamp fuel noFaults replayer timestamp).toScan =
      DatFileReader.getFramesAtTimestamp fuel replayer.reader timestamp :=
  (List.foldl_hom FileScan.toScan
    fun scan index => (scanIndex_eq fuel timestamp scan index).symm).symm

/-- Without faults, all timestamps from one on. -/
theorem loopFrom_eq (fuel steps : ℕ) : ∀ (currentTimestamp : ℤ) (pass : FilePass),
    (loopFrom fuel noFaults steps currentTimestamp pass).toPass =
      DatFileReader.loopFrom fuel steps currentTimestamp pass.toPass := by
  induction steps with
  | zero => exact fun _ _ => rfl
  | succ steps ih =>
      intro currentTimestamp pass
      have hscan := getFramesAtTimestamp_eq fuel pass.replayer currentTimestamp
      have hleft := congrArg Scan.left hscan
      have hreader := congrArg Scan.reader hscan
      have hframes := congrArg Scan.frames hscan
      dsimp only [FileScan.toScan] at hleft hreader hframes
      rw [loopFrom, DatFileReader.loopFrom]
      by_cases hmore : currentTimestamp < pass.replayer.reader.mEndTimestamp
      · rw [if_pos hmore, if_pos (show currentTimestamp < pass.toPass.reader.mEndTimestamp
          from hmore)]
        dsimp only [FilePass.toPass]
        rw [← hleft, ← hreader, ← hframes]
        cases (getFramesAtTimestamp fuel noFaults pass.replayer currentTimestamp).left with
        | some outcome => rfl
        | none =>
            dsimp only
            by_cases hrange : longMax < currentTimestamp + timestampStep
            · rw [if_pos hrange, if_pos hrange]
            · rw [if_neg hrange, if_neg hrange, ← List.map_append]
              exact ih _ _
      · rw [if_neg hmore, if_neg (show ¬currentTimestamp < pass.toPass.reader.mEndTimestamp
          from hmore)]

/-- **Without failing files the passes are those of `DatFileReader`.** -/
theorem loop_eq (fuel : ℕ) (replayer : Replayer) :
    (loop fuel noFaults replayer).toPass = DatFileReader.loop fuel replayer.reader := by
  have hscans := loopFrom_eq fuel
    (replayer.reader.mEndTimestamp - replayer.reader.mStartTimestamp).toNat
    replayer.reader.mStartTimestamp { replayer := replayer }
  rw [← scans] at hscans
  change _ = DatFileReader.loopFrom fuel _ _ { reader := replayer.reader } at hscans
  rw [loop, DatFileReader.loop, ← hscans]
  obtain ⟨⟨⟨_, _, _, _, _, mReadInfinitely⟩, _⟩, _, ended⟩ := scans fuel noFaults replayer
  cases ended with
  | done => cases mReadInfinitely <;> rfl
  | left outcome => rfl
  | overflow => rfl

/-! ## Calls are only added -/

/-- A log that every step extends is extended by all of them. -/
theorem foldl_prefix {β γ δ : Type} (step : β → γ → β) (log : β → List δ)
    (hstep : ∀ b c, log b <+: log (step b c)) (cs : List γ) :
    ∀ b, log b <+: log (cs.foldl step b) := by
  induction cs with
  | nil => exact fun b => List.prefix_rfl
  | cons c cs ih => exact fun b => (hstep b c).trans (ih (step b c))

/-- The attempts to read are a log. -/
theorem visitEntry_attempts (fuel : ℕ) (faults : Faults) (file : ℕ) (visit : FileVisit)
    (pair : ℤ × ℤ) :
    visit.attempts <+: (visitEntry fuel faults file visit pair).attempts := by
  unfold visitEntry
  split
  · exact List.prefix_rfl
  · dsimp only
    split <;> exact List.prefix_append _ _

/-- One index extends the log of attempts. -/
theorem scanIndex_attempts (fuel : ℕ) (faults : Faults) (timestamp : ℤ) (scan : FileScan)
    (index : ℕ) :
    scan.replayer.attempts <+:
      (scanIndex fuel faults timestamp scan index).replayer.attempts := by
  unfold scanIndex
  split
  · rename_i map _ _
    split
    · exact List.prefix_rfl
    · split
      · exact List.prefix_rfl
      · rename_i stream _
        exact foldl_prefix _ FileVisit.attempts
          (fun visit pair => visitEntry_attempts fuel faults index visit pair)
          (DatFileReader.visited map timestamp)
          ⟨map, stream, scan.replayer.attempts, scan.deliveries, none⟩
  · exact List.prefix_rfl

/-- All indices at one timestamp extend it. -/
theorem getFramesAtTimestamp_attempts (fuel : ℕ) (faults : Faults) (replayer : Replayer)
    (timestamp : ℤ) :
    replayer.attempts <+:
      (getFramesAtTimestamp fuel faults replayer timestamp).replayer.attempts :=
  foldl_prefix _ (fun scan : FileScan => scan.replayer.attempts)
    (fun scan index => scanIndex_attempts fuel faults timestamp scan index) _
    { replayer := replayer }

/-- What a round of the loop can do: find the end of the time range, end the pass behind a
scan, or go on behind it. -/
theorem loopFrom_cases (fuel : ℕ) (faults : Faults) (steps : ℕ) (currentTimestamp : ℤ)
    (pass : FilePass) :
    (¬currentTimestamp < pass.replayer.reader.mEndTimestamp ∧
        loopFrom fuel faults (steps + 1) currentTimestamp pass = pass) ∨
      ∃ scan, getFramesAtTimestamp fuel faults pass.replayer currentTimestamp = scan ∧
        ((∃ ended, ended ≠ .done ∧
            loopFrom fuel faults (steps + 1) currentTimestamp pass =
              { pass with replayer := scan.replayer, ended := ended }) ∨
          (scan.left = none ∧
            loopFrom fuel faults (steps + 1) currentTimestamp pass =
              loopFrom fuel faults steps (currentTimestamp + timestampStep)
                { pass with
                  replayer := scan.replayer
                  deliveries := pass.deliveries ++ scan.deliveries })) := by
  rw [loopFrom]
  split
  · refine Or.inr ⟨_, rfl, ?_⟩
    dsimp only
    split
    · rename_i outcome _
      exact Or.inl ⟨.left outcome, nofun, rfl⟩
    · rename_i hleft
      split
      · exact Or.inl ⟨.overflow, nofun, rfl⟩
      · exact Or.inr ⟨hleft, rfl⟩
  · rename_i hend
    exact Or.inl ⟨hend, rfl⟩

/-- What relates a replayer to the one behind a scan relates it to the one behind any number
of rounds, if the relation goes on. -/
theorem loopFrom_related (related : Replayer → Replayer → Prop) {fuel : ℕ} {faults : Faults}
    (hrefl : ∀ replayer, related replayer replayer)
    (htrans : ∀ {first second third}, related first second → related second third →
      related first third)
    (hscan : ∀ replayer timestamp,
      related replayer (getFramesAtTimestamp fuel faults replayer timestamp).replayer)
    (steps : ℕ) :
    ∀ (currentTimestamp : ℤ) (pass : FilePass),
      related pass.replayer (loopFrom fuel faults steps currentTimestamp pass).replayer := by
  induction steps with
  | zero => exact fun _ _ => hrefl _
  | succ steps ih =>
      intro currentTimestamp pass
      obtain ⟨-, hloop⟩ | ⟨scan, rfl, ⟨ended, -, hloop⟩ | ⟨-, hloop⟩⟩ :=
        loopFrom_cases fuel faults steps currentTimestamp pass
      · rw [hloop]
        exact hrefl _
      · rw [hloop]
        exact hscan _ _
      · rw [hloop]
        exact htrans (hscan _ _) (ih _ ⟨_, _, _⟩)

/-- A pass extends it. -/
theorem loopFrom_attempts (fuel : ℕ) (faults : Faults) (steps : ℕ) (currentTimestamp : ℤ)
    (pass : FilePass) :
    pass.replayer.attempts <+:
      (loopFrom fuel faults steps currentTimestamp pass).replayer.attempts := by
  apply loopFrom_related fun before behind => before.attempts <+: behind.attempts
  · exact fun _ => List.prefix_rfl
  · exact List.IsPrefix.trans
  · exact getFramesAtTimestamp_attempts fuel faults

/-! ## What a pass takes off the maps -/

/-- The entries of the maps. -/
def held (maps : List IndiciesMap) : Set (ℕ × ℤ) :=
  { entry | ∃ map, maps[entry.1]? = some map ∧ entry.2 ∈ map.keys }

/-- Another entry, and a later one of the file where nothing failed. -/
def Follows (clean : Prop) (entry next : ℕ × ℤ) : Prop :=
  entry ≠ next ∧ (clean → entry.1 = next.1 → entry.2 < next.2)

/-- A visit after which the scan goes on delivered its entry or failed to read it. -/
theorem visitEntry_cases {fuel : ℕ} {faults : Faults} {file : ℕ} {visit : FileVisit}
    {pair : ℤ × ℤ} (h : (visitEntry fuel faults file visit pair).left = none) :
    visit.left = none ∧
      ((attempt fuel faults visit.attempts.length visit.stream pair.2).outcome =
            .returned true ∧
          visitEntry fuel faults file visit pair =
            { map := visit.map.erase pair.1
              stream := (attempt fuel faults visit.attempts.length visit.stream pair.2).stream
              attempts := visit.attempts ++ [.returned true]
              deliveries := visit.deliveries ++ [⟨file, pair.1,
                (attempt fuel faults visit.attempts.length visit.stream pair.2).frame⟩]
              left := none } ∨
        visitEntry fuel faults file visit pair =
          { visit with
            stream := (attempt fuel faults visit.attempts.length visit.stream pair.2).stream
            attempts := visit.attempts ++ [.returned false] }) := by
  unfold visitEntry at h ⊢
  generalize attempt fuel faults visit.attempts.length visit.stream pair.2 = run at h ⊢
  obtain ⟨outcome, frame, stream, accesses⟩ := run
  obtain ⟨map, stream', attempts, deliveries, left⟩ := visit
  cases left with
  | some outcome => exact absurd h (Option.some_ne_none _)
  | none =>
      rcases outcome with (_ | _) | _ | _ | _ | _ | _
      · exact ⟨rfl, Or.inr rfl⟩
      · exact ⟨rfl, Or.inl ⟨rfl, rfl⟩⟩
      all_goals exact absurd h (Option.some_ne_none _)

/-- An exception that was thrown stays: none at the end means none before. -/
theorem visitEntry_left {fuel : ℕ} {faults : Faults} {file : ℕ} (pairs : List (ℤ × ℤ)) :
    ∀ {visit : FileVisit},
      (pairs.foldl (visitEntry fuel faults file) visit).left = none → visit.left = none := by
  induction pairs with
  | nil => exact fun h => h
  | cons pair pairs ih => exact fun h => (visitEntry_cases (ih h)).1

/-- **What visiting a range delivers**: entries of the range, all of them when no call
failed, and these leave the map. -/
theorem foldl_visitEntry {fuel : ℕ} {faults : Faults} {file : ℕ} (pairs : List (ℤ × ℤ)) :
    ∀ {visit visit' : FileVisit},
      pairs.foldl (visitEntry fuel faults file) visit = visit' → visit'.left = none →
      ∃ new : List Delivery, visit'.deliveries = visit.deliveries ++ new ∧
        (∀ delivery ∈ new, delivery.file = file) ∧
        (new.map Delivery.timestamp).Sublist (pairs.map Prod.fst) ∧
        (∀ key, key ∈ visit'.map.keys ↔
          key ∈ visit.map.keys ∧ key ∉ new.map Delivery.timestamp) ∧
        (.returned false ∉ visit'.attempts →
          new.map Delivery.timestamp = pairs.map Prod.fst) := by
  induction pairs with
  | nil =>
      rintro visit _ rfl _
      exact ⟨[], (List.append_nil _).symm, by simp, List.Sublist.refl _, by simp, by simp⟩
  | cons pair pairs ih =>
      intro visit visit' hfold hleft
      rw [List.foldl_cons] at hfold
      have hfirst : (visitEntry fuel faults file visit pair).left = none :=
        visitEntry_left pairs (by rw [hfold]; exact hleft)
      have hgrow : (visitEntry fuel faults file visit pair).attempts <+: visit'.attempts := by
        rw [← hfold]
        exact foldl_prefix _ FileVisit.attempts
          (fun visit pair => visitEntry_attempts fuel faults file visit pair) _ _
      obtain ⟨new, hnew, hfile, hsub, hkeys, hclean⟩ := ih hfold hleft
      obtain ⟨-, ⟨-, hstep⟩ | hstep⟩ := visitEntry_cases hfirst
      · -- the entry is delivered
        rw [hstep] at hnew hkeys
        refine ⟨⟨file, pair.1, _⟩ :: new, hnew.trans (List.append_assoc _ _ _), ?_, ?_, ?_, ?_⟩
        · intro delivery hdelivery
          rcases List.mem_cons.mp hdelivery with rfl | hdelivery
          · rfl
          · exact hfile delivery hdelivery
        · exact hsub.cons_cons pair.1
        · intro key
          rw [hkeys key, OrderedMap.mem_keys_erase, List.map_cons, List.mem_cons, not_or,
            and_assoc]
        · intro h
          rw [List.map_cons, List.map_cons, hclean h]
      · -- reading it failed
        rw [hstep] at hnew hkeys hgrow
        refine ⟨new, hnew, hfile, hsub.cons _, hkeys, fun h => absurd ?_ h⟩
        exact hgrow.subset (List.mem_append_right _ (List.mem_singleton.mpr rfl))

/-- Visited entries come before the ones left. -/
theorem visited_append (map : IndiciesMap) (timestamp : ℤ) :
    ∃ rest, map.entries = DatFileReader.visited map timestamp ++ rest := by
  obtain ⟨last, hlast⟩ := List.dropLast_prefix (map.below timestamp)
  obtain ⟨rest, hrest⟩ : map.below timestamp <+: map.entries := List.takeWhile_prefix _
  exact ⟨last ++ rest, by rw [← hrest, ← hlast, List.append_assoc]; rfl⟩

/-- **What visiting takes off one map.** -/
theorem visits_take {fuel : ℕ} {faults : Faults} {file : ℕ} {timestamp : ℤ}
    {visit visit' : FileVisit} {clean : Prop}
    (hfold : (DatFileReader.visited visit.map timestamp).foldl
      (visitEntry fuel faults file) visit = visit')
    (hleft : visit'.left = none) (hclean : clean → .returned false ∉ visit'.attempts) :
    ∃ new : List Delivery, visit'.deliveries = visit.deliveries ++ new ∧
      (∀ delivery ∈ new, delivery.file = file) ∧
      Takes (Follows clean) { entry | entry.1 = file ∧ entry.2 ∈ visit.map.keys }
        { entry | entry.1 = file ∧ entry.2 ∈ visit'.map.keys } (new.map Delivery.entry) := by
  obtain ⟨new, hnew, hfile, hsub, hkeys, hall⟩ := foldl_visitEntry _ hfold hleft
  obtain ⟨rest, hrest⟩ := visited_append visit.map timestamp
  have hasc := visit.map.ascending
  rw [hrest] at hasc
  obtain ⟨hfront, -, hbehind⟩ := List.pairwise_append.mp hasc
  have htaken {delivery : Delivery} (h : delivery ∈ new) :
      delivery.timestamp ∈ new.map Delivery.timestamp := List.mem_map_of_mem h
  refine ⟨new, hnew, hfile, ?_, ?_, ?_, ?_⟩
  · intro entry hentry
    obtain ⟨delivery, hdelivery, rfl⟩ := List.mem_map.mp hentry
    refine ⟨hfile delivery hdelivery, ?_⟩
    obtain ⟨pair, hpair, heq⟩ := List.mem_map.mp (hsub.subset (htaken hdelivery))
    change delivery.timestamp ∈ _
    rw [← heq, OrderedMap.keys, hrest]
    exact List.mem_map_of_mem (List.mem_append_left _ hpair)
  · rintro entry ⟨hentry, hkey⟩
    exact ⟨hentry, ((hkeys _).mp hkey).1⟩
  · have hsorted : (new.map Delivery.timestamp).Pairwise (· < ·) :=
      (List.pairwise_map.mpr hfront).sublist hsub
    rw [List.pairwise_map] at hsorted ⊢
    refine hsorted.imp fun {a b} hlt => ⟨fun heq => ?_, fun _ _ => hlt⟩
    exact absurd (congrArg Prod.snd heq) (ne_of_lt hlt)
  · rintro entry hentry next ⟨-, hnext⟩
    obtain ⟨delivery, hdelivery, rfl⟩ := List.mem_map.mp hentry
    obtain ⟨hthere, hnot⟩ := (hkeys next.2).mp hnext
    refine ⟨fun heq => hnot (heq ▸ htaken hdelivery), fun hc _ => ?_⟩
    rw [hall (hclean hc)] at hnot
    have hmem : delivery.timestamp ∈ (DatFileReader.visited visit.map timestamp).map
        Prod.fst := hsub.subset (htaken hdelivery)
    obtain ⟨pair, hpair, heq⟩ := List.mem_map.mp hmem
    obtain ⟨pair', hpair', heq'⟩ := List.mem_map.mp hthere
    rw [hrest, List.mem_append] at hpair'
    rcases hpair' with hpair' | hpair'
    · exact absurd (heq' ▸ List.mem_map_of_mem hpair') hnot
    · have hlt := hbehind pair hpair pair' hpair'
      rw [heq, heq'] at hlt
      exact hlt

/-- Entries taken off one map are taken off all of them. -/
theorem takes_set {maps : List IndiciesMap} {index : ℕ} {map map' : IndiciesMap}
    {clean : Prop} {taken : List (ℕ × ℤ)} (hmap : maps[index]? = some map)
    (h : Takes (Follows clean) { entry | entry.1 = index ∧ entry.2 ∈ map.keys }
      { entry | entry.1 = index ∧ entry.2 ∈ map'.keys } taken) :
    Takes (Follows clean) (held maps) (held (maps.set index map')) taken := by
  have hlt : index < maps.length := (List.getElem?_eq_some_iff.mp hmap).1
  have hheld (entry : ℕ × ℤ) : entry ∈ held (maps.set index map') ↔
      entry.1 = index ∧ entry.2 ∈ map'.keys ∨ entry.1 ≠ index ∧ entry ∈ held maps := by
    change (∃ m, (maps.set index map')[entry.1]? = some m ∧ _) ↔ _
    by_cases heq : entry.1 = index
    · simp [heq, List.getElem?_set_self hlt]
    · simp [heq, List.getElem?_set_ne (Ne.symm heq), held]
  refine ⟨?_, ?_, h.ordered, ?_⟩
  · intro entry hentry
    obtain ⟨hindex, hkey⟩ := h.mem entry hentry
    exact ⟨map, by rw [hindex]; exact hmap, hkey⟩
  · intro entry hentry
    rcases (hheld entry).mp hentry with hentry | ⟨-, hentry⟩
    · obtain ⟨hindex, hkey⟩ := h.left hentry
      exact ⟨map, by rw [hindex]; exact hmap, hkey⟩
    · exact hentry
  · intro entry hentry next hnext
    rcases (hheld next).mp hnext with hnext | ⟨hindex, -⟩
    · exact h.ahead entry hentry next hnext
    · have hother : entry.1 ≠ next.1 := fun heq =>
        hindex (heq.symm.trans (h.mem entry hentry).1)
      exact ⟨fun heq => hother (congrArg Prod.fst heq), fun _ heq => absurd heq hother⟩

/-- An iteration of the index loop after which the scan goes on. -/
theorem scanIndex_takes {fuel : ℕ} {faults : Faults} {timestamp : ℤ} {scan scan' : FileScan}
    {index : ℕ} {clean : Prop} (hscan : scanIndex fuel faults timestamp scan index = scan')
    (hleft : scan'.left = none) (hclean : clean → .returned false ∉ scan'.replayer.attempts) :
    scan.left = none ∧
      ∃ new : List Delivery, scan'.deliveries = scan.deliveries ++ new ∧
        Takes (Follows clean) (held scan.replayer.reader.mIndicies)
          (held scan'.replayer.reader.mIndicies) (new.map Delivery.entry) := by
  have hsame : scan.left = none →
      ∃ new : List Delivery, scan.deliveries = scan.deliveries ++ new ∧
        Takes (Follows clean) (held scan.replayer.reader.mIndicies)
          (held scan.replayer.reader.mIndicies) (new.map Delivery.entry) :=
    fun _ => ⟨[], (List.append_nil _).symm, Takes.nothing _⟩
  unfold scanIndex at hscan
  split at hscan
  · rename_i map hnone hmap
    split at hscan
    · subst hscan
      exact ⟨hnone, hsame hnone⟩
    · split at hscan
      · subst hscan
        exact absurd hleft (Option.some_ne_none _)
      · subst hscan
        obtain ⟨new, hnew, -, htakes⟩ := visits_take rfl hleft hclean
        exact ⟨hnone, new, hnew, takes_set hmap htakes⟩
  · subst hscan
    exact ⟨hleft, hsame hleft⟩

/-- What a scan that threw nothing delivers, it takes out of the indices. -/
theorem foldl_scanIndex_takes {fuel : ℕ} {faults : Faults} {timestamp : ℤ} {clean : Prop}
    (indices : List ℕ) :
    ∀ {scan scan' : FileScan}, indices.foldl (scanIndex fuel faults timestamp) scan = scan' →
      scan'.left = none → (clean → .returned false ∉ scan'.replayer.attempts) →
      scan.left = none ∧
        ∃ new : List Delivery, scan'.deliveries = scan.deliveries ++ new ∧
          Takes (Follows clean) (held scan.replayer.reader.mIndicies)
            (held scan'.replayer.reader.mIndicies) (new.map Delivery.entry) := by
  induction indices with
  | nil =>
      rintro scan _ rfl hleft _
      exact ⟨hleft, [], (List.append_nil _).symm, Takes.nothing _⟩
  | cons index indices ih =>
      intro scan scan' hfold hleft hclean
      obtain ⟨hnone, new, hnew, htakes⟩ := ih hfold hleft hclean
      have hgrow : (scanIndex fuel faults timestamp scan index).replayer.attempts <+:
          scan'.replayer.attempts := by
        rw [← hfold]
        exact foldl_prefix _ (fun scan : FileScan => scan.replayer.attempts)
          (fun scan index => scanIndex_attempts fuel faults timestamp scan index) indices
          (scanIndex fuel faults timestamp scan index)
      obtain ⟨hfirst, new', hnew', htakes'⟩ := scanIndex_takes rfl hnone
        fun hc hmem => hclean hc (hgrow.subset hmem)
      refine ⟨hfirst, new' ++ new, ?_, ?_⟩
      · rw [hnew, hnew', List.append_assoc]
      · rw [List.map_append]
        exact htakes'.trans htakes

/-- The members that a scan does not write. -/
def settings (reader : DatFileReader) : DatFileReader :=
  { reader with mDataStreams := [], mIndicies := [] }

/-- The settings are the members that a pass only reads. -/
theorem eq_of_settings {reader other : DatFileReader} (h : settings reader = settings other) :
    reader.mCopyIndicies = other.mCopyIndicies ∧
      reader.mStartTimestamp = other.mStartTimestamp ∧
      reader.mEndTimestamp = other.mEndTimestamp ∧
      reader.mReadInfinitely = other.mReadInfinitely := by
  unfold settings at h
  injection h with _ _ hcopy hstart hend hinf
  exact ⟨hcopy, hstart, hend, hinf⟩

/-- One index leaves the settings alone. -/
theorem scanIndex_settings (fuel : ℕ) (faults : Faults) (timestamp : ℤ) (scan : FileScan)
    (index : ℕ) :
    settings (scanIndex fuel faults timestamp scan index).replayer.reader =
      settings scan.replayer.reader := by
  unfold scanIndex
  split
  · split
    · rfl
    · split <;> rfl
  · rfl

/-- All indices leave them alone. -/
theorem getFramesAtTimestamp_settings (fuel : ℕ) (faults : Faults) (replayer : Replayer)
    (timestamp : ℤ) :
    settings (getFramesAtTimestamp fuel faults replayer timestamp).replayer.reader =
      settings replayer.reader := by
  have hfold (indices : List ℕ) : ∀ scan : FileScan,
      settings (indices.foldl (scanIndex fuel faults timestamp) scan).replayer.reader =
        settings scan.replayer.reader := by
    induction indices with
    | nil => exact fun _ => rfl
    | cons index indices ih =>
        exact fun scan => (ih _).trans (scanIndex_settings fuel faults timestamp scan index)
  exact hfold _ { replayer := replayer }

/-- A pass leaves them alone. -/
theorem loopFrom_settings (fuel : ℕ) (faults : Faults) (steps : ℕ) (currentTimestamp : ℤ)
    (pass : FilePass) :
    settings (loopFrom fuel faults steps currentTimestamp pass).replayer.reader =
      settings pass.replayer.reader := by
  apply loopFrom_related fun before behind => settings behind.reader = settings before.reader
  · exact fun _ => rfl
  · exact fun hfirst hsecond => hsecond.trans hfirst
  · exact getFramesAtTimestamp_settings fuel faults

/-- What the scans of a pass take; what is left is in the maps, unless a scan did not
return. -/
theorem loopFrom_takes {fuel : ℕ} {faults : Faults} {clean : Prop} (steps : ℕ) :
    ∀ (currentTimestamp : ℤ) {pass pass' : FilePass},
      loopFrom fuel faults steps currentTimestamp pass = pass' →
      (clean → .returned false ∉ pass'.replayer.attempts) →
      ∃ (new : List Delivery) (rest : Set (ℕ × ℤ)),
        pass'.deliveries = pass.deliveries ++ new ∧
        Takes (Follows clean) (held pass.replayer.reader.mIndicies) rest
          (new.map Delivery.entry) ∧
        (pass'.ended = .done → rest = held pass'.replayer.reader.mIndicies) := by
  induction steps with
  | zero =>
      rintro currentTimestamp pass _ rfl _
      exact ⟨[], _, (List.append_nil _).symm, Takes.nothing _, fun _ => rfl⟩
  | succ steps ih =>
      rintro currentTimestamp pass _ rfl hclean
      obtain ⟨-, hloop⟩ | ⟨scan, hscan, ⟨ended, hended, hloop⟩ | ⟨hleft, hloop⟩⟩ :=
        loopFrom_cases fuel faults steps currentTimestamp pass
      · rw [hloop]
        exact ⟨[], _, (List.append_nil _).symm, Takes.nothing _, fun _ => rfl⟩
      · rw [hloop]
        exact ⟨[], _, (List.append_nil _).symm, Takes.nothing _, fun h => absurd h hended⟩
      · rw [hloop] at hclean ⊢
        have hgrow := loopFrom_attempts fuel faults steps (currentTimestamp + timestampStep)
          { pass with
            replayer := scan.replayer
            deliveries := pass.deliveries ++ scan.deliveries }
        obtain ⟨-, scanned, hscanned, htakes⟩ := foldl_scanIndex_takes _ hscan hleft
          fun hc hmem => hclean hc (hgrow.subset hmem)
        obtain ⟨new, rest, hnew, htakes', hrest⟩ := ih _ rfl hclean
        refine ⟨scanned ++ new, rest, ?_, ?_, hrest⟩
        · rw [hnew]
          show (pass.deliveries ++ scan.deliveries) ++ new = _
          rw [hscanned, List.nil_append, List.append_assoc]
        · rw [List.map_append]
          exact htakes.trans htakes'

/-- **A pass takes the entries it delivers off the maps.** -/
theorem scans_take {fuel : ℕ} {faults : Faults} {clean : Prop} (replayer : Replayer)
    (hclean : clean → .returned false ∉ (scans fuel faults replayer).replayer.attempts) :
    ∃ rest, Takes (Follows clean) (held replayer.reader.mIndicies) rest
        ((scans fuel faults replayer).deliveries.map Delivery.entry) ∧
      ((scans fuel faults replayer).ended = .done →
        rest = held (scans fuel faults replayer).replayer.reader.mIndicies) := by
  obtain ⟨new, rest, hnew, htakes, hrest⟩ := loopFrom_takes _ _ rfl hclean
  refine ⟨rest, ?_, hrest⟩
  rw [scans, hnew]
  exact htakes

end Replayer

end NewCPP
