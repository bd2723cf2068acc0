import Mathlib.Data.List.Range
import NewCPP.DatFileReader

/-!
# What an index file is read as

`ReadIndicies` reads any file, not only one that a `DatFileWriter` has closed: an empty
one, one that ends inside a record, one in which a timestamp comes twice.

The loop asks for the state of the stream before it reads, so that it goes round once more
behind the last record.  This round inserts what the two variables hold: the last record
with the bytes of an incomplete one written over it, or the initial garbage when there is
no record at all.  `std::map::insert` leaves a key that is there alone.

* `readIndicies_eq` — the map for any file
* `readIndicies_exact` — the files whose map holds the records and nothing else

## Design notes

**Variables.**  The two variables of the loop keep their values from one round to the next, as
bytes: `heldCells` is what the timestamp holds after a short read.  Before the first record they
hold whatever was there, which is a parameter.

**Integers.**  A timestamp and an offset are values of `long`, eight bytes little-endian;
`longValue` reads them.
-/

namespace NewCPP

open Library

/-! ## The records of a file -/

/-- The timestamp that stands in a record. -/
def recordTimestamp (idx : List CChar) (i : ℕ) : ℤ :=
  longValue (Buffer.window idx (16 * i) 8)

/-- Timestamp and offset of each complete record. -/
def records (idx : List CChar) : List (ℤ × ℤ) :=
  (List.range (idx.length / 16)).map fun i => (recordTimestamp idx i, recordOffset idx i)

/-- The timestamps of the complete records, in their order. -/
def recordTimestamps (idx : List CChar) : List ℤ :=
  (records idx).map Prod.fst

/-- The timestamp of the last record, the bytes behind it written over its low bytes. -/
def leftTimestamp (idx : List CChar) : ℤ :=
  longValue (Buffer.blit (Buffer.window idx (16 * (idx.length / 16 - 1)) 8) 0
    (Buffer.window idx (16 * (idx.length / 16)) 8))

/-! ## The loop -/

/-- A variable after `count` records: its initial value, or the field of the last one. -/
def heldCells (idx initial : List CChar) (off : ℕ) : ℕ → List CChar
  | 0 => initial
  | i + 1 => Buffer.window idx (16 * i + off) 8

/-- The variables always hold eight bytes of a timestamp. -/
theorem length_heldCells {idx initial : List CChar} {off count : ℕ}
    (hinitial : initial.length = 8) (hoff : off ≤ 8) (hcount : 16 * count ≤ idx.length) :
    (heldCells idx initial off count).length = 8 := by
  cases count with
  | zero => exact hinitial
  | succ i => exact Buffer.length_window (by omega)

/-- A stream that has not met the end. -/
theorem IFStream.good_at (content : List CChar) (position : ℕ) :
    ({ content := content, position := position } : IFStream).good = true := rfl

/-- A read at the end of the file returns what is left and sets both bits. -/
theorem IFStream.read_short {s : IFStream} {count : ℕ} (hgood : s.good = true)
    (hshort : (s.content.drop s.position).length < count) :
    s.read count = (s.content.drop s.position,
      { s with
        position := s.position + (s.content.drop s.position).length
        eofbit := true, failbit := true }) := by
  have htake : (s.content.drop s.position).take count = s.content.drop s.position :=
    List.take_of_length_le hshort.le
  rw [IFStream.read, if_pos hgood, htake]
  dsimp only
  rw [if_pos hshort]

/-- A variable of 8 bytes takes a whole field. -/
theorem blit_whole {cells field : List CChar} (hcells : cells.length = 8)
    (hfield : field.length = 8) : Buffer.blit cells 0 field = field := by
  rw [Buffer.blit, List.take_zero, List.nil_append, List.drop_of_length_le (by omega),
    List.append_nil]

/-- An iteration on a complete record. -/
theorem readIndiciesLoop_record {idx timestamp frameSize : List CChar} {map : IndiciesMap}
    (i fuel : ℕ) (ht : timestamp.length = 8) (hf : frameSize.length = 8)
    (hi : 16 * i + 16 ≤ idx.length) :
    readIndiciesLoop (fuel + 1) { content := idx, position := 16 * i } timestamp frameSize
        map =
      readIndiciesLoop fuel { content := idx, position := 16 * (i + 1) }
        (Buffer.window idx (16 * i) 8) (Buffer.window idx (16 * i + 8) 8)
        (map.insert (recordTimestamp idx i) (recordOffset idx i)) := by
  have hfield (off : ℕ) (hoff : off + 8 ≤ idx.length) :
      ({ content := idx, position := off } : IFStream).read 8 =
        (Buffer.window idx off 8, { content := idx, position := off + 8 }) :=
    IFStream.read_of_le (s := { content := idx, position := off }) rfl
      (List.take_append_drop 8 (idx.drop off)).symm (Buffer.length_window hoff)
  rw [readIndiciesLoop, if_pos (IFStream.good_at idx _), hfield (16 * i) (by omega)]
  dsimp only
  rw [hfield (16 * i + 8) (by omega)]
  dsimp only
  rw [blit_whole ht (Buffer.length_window (by omega)),
    blit_whole hf (Buffer.length_window (by omega))]
  rfl

/-- The iterations on the complete records. -/
theorem readIndiciesLoop_records {idx timestamp frameSize : List CChar}
    (ht : timestamp.length = 8) (hf : frameSize.length = 8) (fuel : ℕ) :
    ∀ count, 16 * count ≤ idx.length →
      readIndiciesLoop (fuel + count) { content := idx } timestamp frameSize
          OrderedMap.empty =
        readIndiciesLoop fuel { content := idx, position := 16 * count }
          (heldCells idx timestamp 0 count) (heldCells idx frameSize 8 count)
          (OrderedMap.empty.insertAll ((List.range count).map fun i =>
            (recordTimestamp idx i, recordOffset idx i))) := by
  intro count
  induction count generalizing fuel with
  | zero => exact fun _ => rfl
  | succ count ih =>
      intro hcount
      have hrest := ih (fuel + 1) (by omega)
      rw [← Nat.add_assoc, Nat.add_right_comm, hrest,
        readIndiciesLoop_record count fuel (length_heldCells ht (by omega) (by omega))
          (length_heldCells hf (by omega) (by omega)) (by omega),
        List.range_succ, List.map_append]
      congr 1
      rw [OrderedMap.insertAll, OrderedMap.insertAll, List.foldl_append]
      rfl

/-- The round behind the last record: both variables are inserted, whatever they hold. -/
theorem readIndiciesLoop_last {idx : List CChar} {position : ℕ}
    (timestamp frameSize : List CChar) (map : IndiciesMap) (fuel : ℕ)
    (hrest : (idx.drop position).length < 16) :
    ∃ field, readIndiciesLoop (fuel + 2) { content := idx, position := position } timestamp
        frameSize map =
      map.insert (longValue (Buffer.blit timestamp 0 (Buffer.window idx position 8)))
        (longValue (Buffer.blit frameSize 0 field)) := by
  by_cases hshort : (idx.drop position).length < 8
  · -- the first read already meets the end
    have hfirst := IFStream.read_short (s := { content := idx, position := position }) rfl
      hshort
    have hwindow : Buffer.window idx position 8 = idx.drop position :=
      List.take_of_length_le (by omega)
    refine ⟨[], ?_⟩
    rw [readIndiciesLoop, if_pos (IFStream.good_at idx _), hfirst, hwindow]
    rfl
  · have hlen : (Buffer.window idx position 8).length = 8 := by
      rw [Buffer.window, List.length_take]
      omega
    have hfirst := IFStream.read_of_le (s := { content := idx, position := position }) rfl
      (List.take_append_drop 8 (idx.drop position)).symm hlen
    have hdrop : (idx.drop (position + 8)).length < 8 := by
      rw [List.length_drop] at hrest hshort ⊢
      omega
    have hsecond := IFStream.read_short (s := { content := idx, position := position + 8 })
      rfl hdrop
    refine ⟨idx.drop (position + 8), ?_⟩
    rw [readIndiciesLoop, if_pos (IFStream.good_at idx _), hfirst]
    dsimp only
    rw [hsecond]
    rfl

/-- **The map for any file**: its records, the first of each timestamp, and what the two
variables hold at the end. -/
theorem readIndicies_eq (idx : List CChar) (timestamp frameSize : UInt64) :
    ∃ offset, readIndicies idx timestamp frameSize =
      (OrderedMap.empty.insertAll (records idx)).insert
        (longValue (Buffer.blit (heldCells idx (objectBytes timestamp) 0 (idx.length / 16)) 0
          (Buffer.window idx (16 * (idx.length / 16)) 8))) offset := by
  obtain ⟨fuel, hfuel⟩ : ∃ fuel, idx.length + 2 = fuel + 2 + idx.length / 16 :=
    ⟨idx.length - idx.length / 16, by omega⟩
  have hrest : (idx.drop (16 * (idx.length / 16))).length < 16 := by
    rw [List.length_drop]
    omega
  obtain ⟨field, hlast⟩ := readIndiciesLoop_last
    (heldCells idx (objectBytes timestamp) 0 (idx.length / 16))
    (heldCells idx (objectBytes frameSize) 8 (idx.length / 16))
    (OrderedMap.empty.insertAll (records idx)) fuel hrest
  refine ⟨longValue (Buffer.blit (heldCells idx (objectBytes frameSize) 8
    (idx.length / 16)) 0 field), ?_⟩
  rw [readIndicies, hfuel, readIndiciesLoop_records (length_objectBytes _)
    (length_objectBytes _) (fuel + 2) (idx.length / 16) (by omega)]
  exact hlast

/-! ## Exact files -/

/-- A file shorter than a record has none. -/
theorem records_of_short {idx : List CChar} (h : idx.length < 16) : records idx = [] := by
  rw [records, Nat.div_eq_of_lt h]
  rfl

/-- Behind a record the last round inserts the timestamp that it left. -/
theorem readIndicies_of_record {idx : List CChar} (h : 16 ≤ idx.length)
    (timestamp frameSize : UInt64) :
    ∃ offset, readIndicies idx timestamp frameSize =
      (OrderedMap.empty.insertAll (records idx)).insert (leftTimestamp idx) offset := by
  obtain ⟨offset, heq⟩ := readIndicies_eq idx timestamp frameSize
  obtain ⟨i, hi⟩ : ∃ i, idx.length / 16 = i + 1 := ⟨idx.length / 16 - 1, by omega⟩
  refine ⟨offset, heq.trans ?_⟩
  rw [leftTimestamp, hi]
  rfl

/-- The keys of the map are the timestamps of the records. -/
theorem mem_keys_records {idx : List CChar} {x : ℤ} :
    x ∈ ((OrderedMap.empty : IndiciesMap).insertAll (records idx)).keys ↔
      x ∈ recordTimestamps idx :=
  OrderedMap.mem_keys_insertAll.trans (or_iff_right List.not_mem_nil)

/-- With distinct timestamps the map holds the records, sorted. -/
theorem records_perm {idx : List CChar} (h : (recordTimestamps idx).Nodup) :
    ((OrderedMap.empty : IndiciesMap).insertAll (records idx)).entries.Perm
      (records idx) := by
  have hperm := OrderedMap.insertAll_perm (m := (OrderedMap.empty : IndiciesMap)) h
    fun _ _ => List.not_mem_nil
  rwa [show (OrderedMap.empty : IndiciesMap).entries = [] from rfl, List.append_nil] at hperm

/-- **The index files that are decoded exactly.**  The map has one entry for each complete
record and no other, just when the records' timestamps are distinct and the timestamp left
behind them, the bytes of an incomplete record written over the last one, is one of
theirs. -/
theorem readIndicies_exact (idx : List CChar) (timestamp frameSize : UInt64) :
    (readIndicies idx timestamp frameSize).entries.Perm (records idx) ↔
      (recordTimestamps idx).Nodup ∧ leftTimestamp idx ∈ recordTimestamps idx := by
  constructor
  · intro hperm
    have hkeys : (readIndicies idx timestamp frameSize).keys.Perm (recordTimestamps idx) :=
      hperm.map Prod.fst
    refine ⟨hkeys.nodup_iff.mp (OrderedMap.keys_nodup _), ?_⟩
    by_cases hlen : 16 ≤ idx.length
    · obtain ⟨offset, heq⟩ := readIndicies_of_record hlen timestamp frameSize
      rw [← hkeys.mem_iff, heq]
      exact OrderedMap.mem_keys_insert.mpr (Or.inl rfl)
    · -- without a record the map still has an entry
      obtain ⟨offset, heq⟩ := readIndicies_eq idx timestamp frameSize
      rw [heq, records_of_short (by omega)] at hperm
      exact absurd (hperm.length_eq) (Nat.succ_ne_zero 0)
  · rintro ⟨hnodup, hmem⟩
    have hlen : 16 ≤ idx.length := by
      by_contra hshort
      rw [recordTimestamps, records_of_short (by omega)] at hmem
      exact List.not_mem_nil hmem
    obtain ⟨offset, heq⟩ := readIndicies_of_record hlen timestamp frameSize
    rw [heq, OrderedMap.insert_of_mem offset (mem_keys_records.mpr hmem)]
    exact records_perm hnodup

/-- An empty file has an entry, of two variables that nothing was read into. -/
theorem not_readIndicies_exact :
    ¬∀ (idx : List CChar) (timestamp frameSize : UInt64),
      (readIndicies idx timestamp frameSize).entries.Perm (records idx) := by
  intro h
  obtain ⟨offset, heq⟩ := readIndicies_eq [] 0 0
  have hperm := h [] 0 0
  rw [heq] at hperm
  exact absurd hperm.length_eq (Nat.succ_ne_zero 0)

end NewCPP
