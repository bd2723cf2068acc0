import NewCPP.DatFilePasses

/-!
# How a pass of the replayer ends

`Loop` adds 1000 to the current time as long as that is before the last timestamp.  The
timestamps are read from the index files, so that they may be any values of `long`.

* `loopFrom_of_le` — the iterations of a pass come to an end, whatever the maps hold.
* `pass_ends_iff` — for which maps the current time stays in the range of `long`, the calls
  of the decoder returning or not.

## Design notes

**Visiting.**  Iterations are modelled under the assumption of `NewCPP.DatFileReader` about
`std::for_each`, whose visitor erases the entry that it is given; in a build that crashes there
the pass ends with the process.  The times of the iterations do not depend on the entries that
are visited.
-/

namespace NewCPP

open Library

/-! ## The time range -/

namespace DatFileReader

/-- The timestamps of all maps. -/
def timestamps (reader : DatFileReader) : List ℤ :=
  reader.mIndicies.flatMap OrderedMap.keys

/-- The first timestamp that the loop looks at. -/
def earliest (reader : DatFileReader) : ℤ :=
  reader.timestamps.foldl min reader.mStartTimestamp

/-- The last one. -/
def latest (reader : DatFileReader) : ℤ :=
  reader.timestamps.foldl max reader.mEndTimestamp

/-- How often the current time is before the end. -/
def iterations (first last : ℤ) : ℕ :=
  ((last - first + (timestampStep - 1)) / timestampStep).toNat

/-- The first time that is not before the end is a value of `long`. -/
def InRange (first last : ℤ) : Prop :=
  last ≤ first ∨ first + timestampStep * iterations first last ≤ longMax

instance (first last : ℤ) : Decidable (InRange first last) :=
  inferInstanceAs (Decidable (_ ∨ _))

theorem inRange_iff (first last : ℤ) : InRange first last ↔
    ∀ k : ℕ, first + timestampStep * k < last → first + timestampStep * (k + 1) ≤ longMax := by
  unfold InRange iterations timestampStep longMax
  constructor
  · intro h k hk
    omega
  · intro h
    by_cases hlast : last ≤ first
    · exact Or.inl hlast
    · have hlast' := h (iterations first last - 1)
      unfold iterations timestampStep at hlast'
      omega

/-- The smallest of ascending numbers is the first one. -/
theorem foldl_min_of_ascending {keys : List ℤ} (h : keys.Pairwise (· < ·)) (start : ℤ) :
    keys.foldl min start = keys.head?.elim start (min · start) := by
  induction keys generalizing start with
  | nil => rfl
  | cons key keys ih =>
      obtain ⟨hkey, hkeys⟩ := List.pairwise_cons.1 h
      rw [List.foldl_cons, ih hkeys]
      cases keys with
      | nil => exact min_comm start key
      | cons next keys =>
          have hlt := hkey next List.mem_cons_self
          simp only [List.head?_cons, Option.elim_some]
          omega

theorem foldl_max_of_ascending {keys : List ℤ} (h : keys.Pairwise (· < ·)) (start : ℤ) :
    keys.foldl max start = keys.getLast?.elim start (max · start) := by
  induction keys generalizing start with
  | nil => rfl
  | cons key keys ih =>
      obtain ⟨hkey, hkeys⟩ := List.pairwise_cons.1 h
      rw [List.foldl_cons, ih hkeys]
      cases keys with
      | nil => exact max_comm start key
      | cons next keys =>
          rw [List.getLast?_cons_cons]
          cases hlast : (next :: keys).getLast? with
          | none => simp at hlast
          | some last =>
              have hlt := hkey last (List.mem_of_getLast? hlast)
              simp only [Option.elim_some]
              omega

/-- What `peek` reads off a map are its extreme timestamps. -/
theorem peek_eq (reader : DatFileReader) (map : IndiciesMap) :
    reader.peek map =
      { reader with
        mStartTimestamp := map.keys.foldl min reader.mStartTimestamp
        mEndTimestamp := map.keys.foldl max reader.mEndTimestamp } := by
  have hascending : map.keys.Pairwise (· < ·) := List.pairwise_map.2 map.ascending
  rw [foldl_min_of_ascending hascending, foldl_max_of_ascending hascending, OrderedMap.keys,
    List.head?_map, List.getLast?_map, peek]
  cases hentries : map.entries with
  | nil => rfl
  | cons first rest =>
      obtain ⟨last, hlast⟩ := Option.isSome_iff_exists.1
        (List.getLast?_isSome.2 (List.cons_ne_nil first rest))
      rw [hlast]
      simp only [List.head?_cons, Option.map_some, Option.elim_some,
        max_comm last.1 reader.mEndTimestamp]

/-- **The time range that `GetTimestampPeeks` derives.** -/
theorem getTimestampPeeks_eq (reader : DatFileReader) :
    reader.getTimestampPeeks =
      { reader with
        mStartTimestamp := reader.earliest
        mEndTimestamp := reader.latest } := by
  have hfold (maps : List IndiciesMap) : ∀ reader : DatFileReader,
      maps.foldl peek reader =
        { reader with
          mStartTimestamp := (maps.flatMap OrderedMap.keys).foldl min reader.mStartTimestamp
          mEndTimestamp := (maps.flatMap OrderedMap.keys).foldl max reader.mEndTimestamp } := by
    induction maps with
    | nil => exact fun _ => rfl
    | cons map maps ih =>
        intro reader
        rw [List.foldl_cons, ih, peek_eq, List.flatMap_cons, List.foldl_append,
          List.foldl_append]
  exact hfold reader.mIndicies reader

end DatFileReader

/-! ## The iterations of a pass -/

namespace Replayer

open DatFileReader (iterations InRange inRange_iff)

/-- The end of a time range does not change within a pass. -/
theorem mEndTimestamp_scan (fuel : ℕ) (faults : Faults) (replayer : Replayer) (timestamp : ℤ) :
    (getFramesAtTimestamp fuel faults replayer timestamp).replayer.reader.mEndTimestamp =
      replayer.reader.mEndTimestamp :=
  (eq_of_settings (getFramesAtTimestamp_settings fuel faults replayer timestamp)).2.2.1

/-- **A pass is over after finitely many iterations**: further ones are not made. -/
theorem loopFrom_of_le (fuel : ℕ) (faults : Faults) (steps : ℕ) :
    ∀ (steps' : ℕ) (currentTimestamp : ℤ) (pass : FilePass),
      iterations currentTimestamp pass.replayer.reader.mEndTimestamp ≤ steps →
      iterations currentTimestamp pass.replayer.reader.mEndTimestamp ≤ steps' →
      loopFrom fuel faults steps currentTimestamp pass =
        loopFrom fuel faults steps' currentTimestamp pass := by
  have hover {currentTimestamp : ℤ} {pass : FilePass}
      (h : iterations currentTimestamp pass.replayer.reader.mEndTimestamp ≤ 0) (steps : ℕ) :
      loopFrom fuel faults steps currentTimestamp pass = pass := by
    cases steps with
    | zero => rfl
    | succ steps =>
        rw [loopFrom, if_neg]
        unfold iterations timestampStep at h
        omega
  induction steps with
  | zero =>
      intro steps' currentTimestamp pass hle hle'
      rw [hover hle, hover hle]
  | succ steps ih =>
      intro steps' currentTimestamp pass hle hle'
      cases steps' with
      | zero => rw [hover hle', hover hle']
      | succ steps' =>
          have hnext (hlt : currentTimestamp < pass.replayer.reader.mEndTimestamp) (count : ℕ)
              (hcount : iterations currentTimestamp pass.replayer.reader.mEndTimestamp ≤
                count + 1) :
              iterations (currentTimestamp + timestampStep)
                pass.replayer.reader.mEndTimestamp ≤ count := by
            unfold iterations timestampStep at hcount ⊢
            omega
          rw [loopFrom, loopFrom]
          split
          · rename_i hlt
            dsimp only
            split
            · rfl
            · split
              · rfl
              · refine ih _ _ _ ?_ ?_
                · rw [mEndTimestamp_scan]
                  exact hnext hlt steps hle
                · rw [mEndTimestamp_scan]
                  exact hnext hlt steps' hle'
          · rfl

/-- An iteration after which the condition of the loop is tested again. -/
structure Iterates (fuel : ℕ) (faults : Faults) (s s' : ℤ × Replayer) : Prop where
  enters : s.1 < s.2.reader.mEndTimestamp
  returns : (getFramesAtTimestamp fuel faults s.2 s.1).left = none
  inRange : s.1 + timestampStep ≤ longMax
  next : s' = (s.1 + timestampStep, (getFramesAtTimestamp fuel faults s.2 s.1).replayer)

/-- As many iterations as there are steps to the end, at most. -/
theorem length_le_of_iterates {fuel : ℕ} {faults : Faults} {states : ℕ → ℤ × Replayer} {n : ℕ}
    (h : ∀ i < n, Iterates fuel faults (states i) (states (i + 1))) :
    n ≤ iterations (states 0).1 (states 0).2.reader.mEndTimestamp := by
  induction n generalizing states with
  | zero => exact Nat.zero_le _
  | succ n ih =>
      have hfirst := h 0 (Nat.zero_lt_succ n)
      have hrest : n ≤ iterations (states 1).1 (states 1).2.reader.mEndTimestamp :=
        @ih (fun i => states (i + 1)) fun i hi => h (i + 1) (by omega)
      have hlt := hfirst.enters
      simp only [hfirst.next, mEndTimestamp_scan] at hrest
      unfold iterations timestampStep at hrest ⊢
      omega

/-- A pass leaves the range of `long` at a time that is before the end. -/
theorem exists_of_overflow {fuel : ℕ} {faults : Faults} (steps : ℕ) :
    ∀ {currentTimestamp : ℤ} {pass : FilePass}, pass.ended = .done →
      (loopFrom fuel faults steps currentTimestamp pass).ended = .overflow →
      ¬InRange currentTimestamp pass.replayer.reader.mEndTimestamp := by
  induction steps with
  | zero =>
      intro currentTimestamp pass hdone hended
      cases hdone.symm.trans hended
  | succ steps ih =>
      intro currentTimestamp pass hdone hended hrange
      rw [inRange_iff] at hrange
      rw [loopFrom] at hended
      split at hended
      · rename_i hlt
        dsimp only at hended
        split at hended
        · cases hended
        · split at hended
          · rename_i hoverflow
            have hnow := hrange 0 (by omega)
            omega
          · refine ih ?_ hended ?_
            · exact hdone
            · rw [mEndTimestamp_scan, inRange_iff]
              intro k hk
              have hlater := hrange (k + 1)
              unfold timestampStep at hk hlater ⊢
              omega
      · cases hdone.symm.trans hended

/-! ## Files that cannot be read -/

/-- Every call of the decoder meets a failing file. -/
def unreadable : Faults :=
  fun _ => some { content := [] }

/-- The scan has not been left, and each map has its stream. -/
def Goes (scan : FileScan) : Prop :=
  scan.left = none ∧
    scan.replayer.reader.mIndicies.length ≤ scan.replayer.reader.mDataStreams.length

/-- A frame that cannot be read leaves no exception behind. -/
theorem left_foldl_unreadable (fuel file : ℕ) (pairs : List (ℤ × ℤ)) {visit : FileVisit}
    (h : visit.left = none) :
    (pairs.foldl (visitEntry fuel unreadable file) visit).left = none := by
  induction pairs generalizing visit with
  | nil => exact h
  | cons pair pairs ih =>
      refine ih ?_
      simp only [visitEntry, h, attempt, unreadable, Option.isSome_none, Bool.false_eq_true,
        if_false]

/-- Looking through one index does not leave the scan. -/
theorem Goes.scanIndex {fuel : ℕ} {timestamp : ℤ} {scan : FileScan} (h : Goes scan)
    (index : ℕ) : Goes (scanIndex fuel unreadable timestamp scan index) := by
  obtain ⟨hleft, hlength⟩ := h
  unfold Replayer.scanIndex
  split
  · rename_i map _ hmap
    split
    · exact ⟨hleft, hlength⟩
    · have hindex := (List.getElem?_eq_some_iff.1 hmap).1
      rw [List.getElem?_eq_getElem (hindex.trans_le hlength)]
      refine ⟨left_foldl_unreadable fuel index _ rfl, ?_⟩
      simpa using hlength
  · exact ⟨hleft, hlength⟩

/-- A scan is not left as long as each map has its stream. -/
theorem goes_scan (fuel : ℕ) (timestamp : ℤ) {replayer : Replayer}
    (h : replayer.reader.mIndicies.length ≤ replayer.reader.mDataStreams.length) :
    Goes (getFramesAtTimestamp fuel unreadable replayer timestamp) := by
  have hfold (indices : List ℕ) : ∀ {scan : FileScan}, Goes scan →
      Goes (indices.foldl (Replayer.scanIndex fuel unreadable timestamp) scan) := by
    induction indices with
    | nil => exact fun hscan => hscan
    | cons index indices ih => exact fun hscan => ih (hscan.scanIndex index)
  exact hfold _ ⟨rfl, h⟩

/-- Where no file can be read, a pass reaches the time at which it leaves the range. -/
theorem overflow_of_unreadable (fuel k : ℕ) :
    ∀ {steps : ℕ} {currentTimestamp : ℤ} {pass : FilePass}, k < steps →
      pass.replayer.reader.mIndicies.length ≤ pass.replayer.reader.mDataStreams.length →
      currentTimestamp + timestampStep * k < pass.replayer.reader.mEndTimestamp →
      longMax < currentTimestamp + timestampStep * (k + 1) →
      (loopFrom fuel unreadable steps currentTimestamp pass).ended = .overflow := by
  induction k with
  | zero =>
      intro steps currentTimestamp pass hsteps hlength hlt hoverflow
      obtain ⟨steps, rfl⟩ := Nat.exists_eq_succ_of_ne_zero (Nat.ne_of_gt hsteps)
      have hscan := goes_scan fuel currentTimestamp hlength
      rw [loopFrom, if_pos (by omega)]
      simp only [hscan.1]
      rw [if_pos (by omega)]
  | succ k ih =>
      intro steps currentTimestamp pass hsteps hlength hlt hoverflow
      obtain ⟨steps, rfl⟩ := Nat.exists_eq_succ_of_ne_zero (Nat.ne_of_gt (Nat.zero_lt_of_lt hsteps))
      have hscan := goes_scan fuel currentTimestamp hlength
      have hbefore : currentTimestamp < pass.replayer.reader.mEndTimestamp := by
        unfold timestampStep at hlt
        omega
      rw [loopFrom, if_pos hbefore]
      simp only [hscan.1]
      split
      · rfl
      · unfold timestampStep at hlt hoverflow
        refine ih (by omega) hscan.2 ?_ ?_
        · rw [mEndTimestamp_scan]
          unfold timestampStep
          omega
        · unfold timestampStep
          omega

/-! ## All passes -/

/-- A pass makes finitely many iterations, and the time stays in the range of `long`. -/
structure Ends (fuel : ℕ) (faults : Faults) (replayer : Replayer) : Prop where
  finite : ∀ (states : ℕ → ℤ × Replayer) (n : ℕ),
    states 0 = (replayer.reader.mStartTimestamp, replayer) →
    (∀ i < n, Iterates fuel faults (states i) (states (i + 1))) →
    n ≤ iterations replayer.reader.mStartTimestamp replayer.reader.mEndTimestamp
  complete : ∀ steps,
    iterations replayer.reader.mStartTimestamp replayer.reader.mEndTimestamp ≤ steps →
    loopFrom fuel faults steps replayer.reader.mStartTimestamp { replayer := replayer } =
      scans fuel faults replayer
  inRange : (loop fuel faults replayer).ended ≠ .overflow

/-- Putting the entries back has no part in how a pass ends. -/
theorem ended_loop (fuel : ℕ) (faults : Faults) (replayer : Replayer) :
    (loop fuel faults replayer).ended = (scans fuel faults replayer).ended := by
  rw [loop]
  split <;> rfl

/-- A range that can be stepped through is the whole condition. -/
theorem Ends.of_inRange {fuel : ℕ} {faults : Faults} {replayer : Replayer}
    (h : InRange replayer.reader.mStartTimestamp replayer.reader.mEndTimestamp) :
    Ends fuel faults replayer where
  finite states n hstart hiterates := by
    have hle := length_le_of_iterates hiterates
    rwa [hstart] at hle
  complete steps hsteps := by
    refine loopFrom_of_le fuel faults steps _ _ _ hsteps ?_
    unfold iterations timestampStep
    dsimp only
    omega
  inRange hoverflow := by
    rw [ended_loop] at hoverflow
    exact exists_of_overflow _ rfl hoverflow h

/-- **When the current time stays in range.**  Whatever the data files hold and wherever
reading them fails, a pass makes finitely many iterations and does not leave the range of
`long`, if and only if the first of its times that is not before the end is in that range. -/
theorem pass_ends_iff (reader : DatFileReader) :
    (∀ fuel faults streams, Ends fuel faults
        { reader := { reader.getTimestampPeeks with mDataStreams := streams } }) ↔
      InRange reader.earliest reader.latest := by
  rw [DatFileReader.getTimestampPeeks_eq]
  constructor
  · intro h
    rw [inRange_iff]
    intro k hk
    by_contra hoverflow
    refine (h 0 unreadable (reader.mIndicies.map fun _ => { content := [] })).inRange ?_
    rw [ended_loop]
    have hsteps : k < (reader.latest - reader.earliest).toNat := by
      unfold timestampStep at hk
      omega
    exact overflow_of_unreadable 0 k hsteps (by simp) hk (not_le.1 hoverflow)
  · exact fun h fuel faults streams => .of_inRange h

/-- Two timestamps at the upper end of the range. -/
def lateReader : DatFileReader where
  mDataStreams := [{ content := [] }]
  mIndicies := [(OrderedMap.empty.insert (longMax - 1) 0).insert longMax 0]

/-- Two entries at the end of the range. -/
theorem not_ends_lateReader : ¬∀ (reader : DatFileReader) (fuel : ℕ) (faults : Faults),
    Ends fuel faults { reader := reader.getTimestampPeeks } := by
  intro h
  refine (h lateReader 0 noFaults).inRange ?_
  rfl

end Replayer

end NewCPP
