import Mathlib.Data.Int.Order.Basic
import NewCPP.DatFileWriter
import NewCPP.Library.OrderedMap

/-!
# The replayer

`DatFileReader` reads the index files into maps from timestamps to offsets and, in
steps of 1000 milliseconds, hands the frames before the current time to its listener.

## Design notes

**Streams.**  An `std::ifstream` is the content of its file, a position and its state
bits.  A read that finds too few bytes sets `eofbit` and `failbit`; a stream in that
state reads nothing, and `seekg` does not move it.

**Objects.**  `ReadIndicies` reads into two local variables, which keep what they held
when a read finds nothing.  They are the cells of the objects, and their indeterminate
initial value is a parameter.

**Visiting.**  That `std::for_each` over `[begin, bound)` visits the entries which are in the
map when it starts is an assumption.  The visitor erases the entry that it is given, and so the
one on which the iterator of `for_each` stands: to increment that iterator afterwards is undefined,
and a build may crash at the first entry that is delivered.  What is proved of passes, of their
ends and of the streams is about the builds in which the increment goes on to the next entry.

**Ends of a pass.**  `Loop` lets an exception of the decoder through, and a decoder that
waits for bytes that never come does not return; both leave the pass without delivering
the frames of the current step (`PassEnd.left`).

A recording is replayed incompletely, whatever it holds: `replay_incomplete`.
-/

namespace NewCPP

open Library

/-! ## Input files -/

/-- `std::ifstream`. -/
structure IFStream where
  content : List CChar
  position : ℕ := 0
  eofbit : Bool := false
  failbit : Bool := false
  deriving DecidableEq, Repr

namespace IFStream

/-- The state that the loop over an index file asks for. -/
def good (s : IFStream) : Bool :=
  !s.eofbit && !s.failbit

/-- `read` and `gcount`. -/
def read (s : IFStream) (count : ℕ) : List CChar × IFStream :=
  if s.good then
    let bs := (s.content.drop s.position).take count
    (bs,
      if bs.length < count then
        { s with position := s.position + bs.length, eofbit := true, failbit := true }
      else { s with position := s.position + count })
  else ([], { s with failbit := true })

/-- `seekg` clears `eofbit` first. -/
def seekg (s : IFStream) (position : ℤ) : IFStream :=
  if s.failbit then { s with eofbit := false }
  else if position < 0 then { s with eofbit := false, failbit := true }
  else { s with eofbit := false, position := position.toNat }

end IFStream

namespace FileReadStream

/-- The constructor. -/
def mk (fileStream : IFStream) (position : ℤ) : IFStream :=
  fileStream.seekg position

/-- `static_cast<int>(gcount())`. -/
def result (bs : List CChar) : Option (List CChar) :=
  if toInt bs.length < 0 then none else some (bs.take (toInt bs.length).toNat)

/-- `Read`: counts from `2 ^ 31` on come out as another `int`. -/
def read : IReadStream IFStream where
  read s count := (result (s.read count).1, (s.read count).2)
  length_le := by
    intro s count bs s' h
    obtain ⟨hbs, -⟩ := Prod.mk.inj h
    have hcount : (s.read count).1.length ≤ count := by
      unfold IFStream.read
      split
      · exact List.length_take_le _ _
      · exact Nat.zero_le _
    unfold result at hbs
    split at hbs
    · exact absurd hbs.symm (Option.some_ne_none _)
    · rw [← Option.some.inj hbs, List.length_take]
      omega

end FileReadStream

/-! ## Reading an index -/

/-- `std::map<long, std::streamsize>`. -/
abbrev IndiciesMap := OrderedMap ℤ ℤ

/-- The value of a signed 64-bit object. -/
def longValue (cells : List CChar) : ℤ :=
  (objectValue cells).toInt64.toInt

/-- `while (indiciesDataStream.good())`.  An iteration takes a byte off the file or
leaves the stream in a state that is not good, so the file's length bounds their
number. -/
def readIndiciesLoop : ℕ → IFStream → List CChar → List CChar → IndiciesMap → IndiciesMap
  | 0, _, _, _, map => map
  | fuel + 1, indiciesDataStream, timestamp, frameSize, map =>
      if indiciesDataStream.good then
        let first := indiciesDataStream.read 8
        let timestamp := Buffer.blit timestamp 0 first.1
        let second := first.2.read 8
        let frameSize := Buffer.blit frameSize 0 second.1
        readIndiciesLoop fuel second.2 timestamp frameSize
          (map.insert (longValue timestamp) (longValue frameSize))
      else map

/-- The map `ReadIndicies` appends to `mIndicies`. -/
def readIndicies (idx : List CChar) (timestamp frameSize : UInt64) : IndiciesMap :=
  readIndiciesLoop (idx.length + 2) { content := idx } (objectBytes timestamp)
    (objectBytes frameSize) OrderedMap.empty

/-! ## The reader -/

/-- `TimestampStep`, the microseconds between two looks at the indices. -/
def timestampStep : ℤ := 1000

/-- `std::numeric_limits<long>::max()`. -/
def longMax : ℤ := 2 ^ 63 - 1

/-- The members of the class; the copy of the indices is for the next pass. -/
structure DatFileReader where
  mDataStreams : List IFStream := []
  mIndicies : List IndiciesMap := []
  mCopyIndicies : List IndiciesMap := []
  mStartTimestamp : ℤ := longMax
  mEndTimestamp : ℤ := 0
  mReadInfinitely : Bool := false

/-- The frames collected by a scan of the maps; an end other than returning. -/
structure Scan where
  reader : DatFileReader
  frames : List V4LFrame := []
  left : Option V4LFrame.Outcome := none

/-- The visitor's view of one map and its stream. -/
structure Visit where
  map : IndiciesMap
  stream : IFStream
  frames : List V4LFrame := []
  left : Option V4LFrame.Outcome := none

namespace DatFileReader

/-- Widen the time range to a map; an empty one is skipped. -/
def peek (reader : DatFileReader) (indiciesMap : IndiciesMap) : DatFileReader :=
  match indiciesMap.entries.head?, indiciesMap.entries.getLast? with
  | some first, some last =>
      { reader with
        mStartTimestamp := min first.1 reader.mStartTimestamp
        mEndTimestamp := max last.1 reader.mEndTimestamp }
  | _, _ => reader

/-- The first and the last timestamp of all indices. -/
def getTimestampPeeks (reader : DatFileReader) : DatFileReader :=
  reader.mIndicies.foldl peek reader

/-- The visitor of `GetFramesAtTimestamp`. -/
def visitEntry (fuel : ℕ) (visit : Visit) (pair : ℤ × ℤ) : Visit :=
  if visit.left.isSome then visit
  else
    let run := V4LFrame.deserializeFrom FileReadStream.read fuel {}
      (FileReadStream.mk visit.stream pair.2)
    match run.outcome with
    | .returned true =>
        { visit with
          map := visit.map.erase pair.1
          stream := run.stream
          frames := visit.frames ++ [run.frame] }
    | .returned false => { visit with stream := run.stream }
    | outcome => { visit with stream := run.stream, left := some outcome }

/-- `[begin, bound)` after `bound--`; nothing when the bound is the beginning. -/
def visited (map : IndiciesMap) (timestamp : ℤ) : List (ℤ × ℤ) :=
  (map.below timestamp).dropLast

/-- One iteration of the index loop.  `mDataStreams[index]` is evaluated by the visitor
only, and unchecked. -/
def scanIndex (fuel : ℕ) (timestamp : ℤ) (scan : Scan) (index : ℕ) : Scan :=
  match scan.left, scan.reader.mIndicies[index]? with
  | none, some map =>
      if (visited map timestamp).isEmpty then scan
      else
        match scan.reader.mDataStreams[index]? with
        | none => { scan with left := some .undefined }
        | some stream =>
            let visit := (visited map timestamp).foldl (visitEntry fuel)
              { map := map, stream := stream, frames := scan.frames }
            { reader :=
                { scan.reader with
                  mIndicies := scan.reader.mIndicies.set index visit.map
                  mDataStreams := scan.reader.mDataStreams.set index visit.stream }
              frames := visit.frames
              left := visit.left }
  | _, _ => scan

/-- What all indices have at one timestamp. -/
def getFramesAtTimestamp (fuel : ℕ) (reader : DatFileReader) (timestamp : ℤ) : Scan :=
  (List.range reader.mIndicies.length).foldl (scanIndex fuel timestamp) { reader := reader }

/-- How a pass of `Loop` ends. -/
inductive PassEnd
  | done
  /-- the decoder did not return -/
  | left (outcome : V4LFrame.Outcome)
  /-- `currentTimestamp += TimestampStep` leaves the range of `long` -/
  | overflow
  deriving DecidableEq, Repr

/-- A pass: what it delivered and how it ended. -/
structure Pass where
  reader : DatFileReader
  delivered : List V4LFrame := []
  ended : PassEnd := .done

/-- `while (currentTimestamp < mEndTimestamp)`.  Every iteration comes closer to the end,
so the distance bounds their number. -/
def loopFrom (fuel : ℕ) : ℕ → ℤ → Pass → Pass
  | 0, _, pass => pass
  | steps + 1, currentTimestamp, pass =>
      if currentTimestamp < pass.reader.mEndTimestamp then
        let scan := getFramesAtTimestamp fuel pass.reader currentTimestamp
        match scan.left with
        | some outcome => { pass with reader := scan.reader, ended := .left outcome }
        | none =>
            if longMax < currentTimestamp + timestampStep then
              { pass with reader := scan.reader, ended := .overflow }
            else
              loopFrom fuel steps (currentTimestamp + timestampStep)
                { pass with
                  reader := scan.reader
                  delivered := pass.delivered ++ scan.frames }
      else pass

/-- One pass over the timestamps; a reader that reads infinitely then restores its indices. -/
def loop (fuel : ℕ) (reader : DatFileReader) : Pass :=
  let pass := loopFrom fuel (reader.mEndTimestamp - reader.mStartTimestamp).toNat
    reader.mStartTimestamp { reader := reader }
  match pass.ended with
  | .done =>
      if pass.reader.mReadInfinitely then
        { pass with reader := { pass.reader with mIndicies := pass.reader.mCopyIndicies } }
      else pass
  | _ => pass

/-- `Start` on data and index files with these contents: open the data files, read the
index files, find the first and the last timestamp. -/
def start (reader : DatFileReader) (datFiles : List (List CChar × List CChar))
    (timestamp frameSize : UInt64) : DatFileReader :=
  let streams := datFiles.map fun file => ({ content := file.1 } : IFStream)
  let maps := datFiles.map fun file => readIndicies file.2 timestamp frameSize
  let reader :=
    { reader with
      mDataStreams := reader.mDataStreams ++ streams
      mIndicies := reader.mIndicies ++ maps }
  let reader :=
    if reader.mReadInfinitely then { reader with mCopyIndicies := reader.mIndicies }
    else reader
  reader.getTimestampPeeks

end DatFileReader

/-! ## The index of a complete file -/

/-- Insert an entry of the index file. -/
def insertIndex (map : IndiciesMap) (entry : UInt64 × Int64) : IndiciesMap :=
  map.insert entry.1.toInt64.toInt entry.2.toInt

/-- A read that finds enough bytes. -/
theorem IFStream.read_of_le {s : IFStream} {count : ℕ} {front rest : List CChar}
    (hgood : s.good = true) (hs : s.content.drop s.position = front ++ rest)
    (hlen : front.length = count) :
    s.read count = (front, { s with position := s.position + count }) := by
  have htake : (s.content.drop s.position).take count = front := by
    rw [hs, List.take_left' hlen]
  rw [IFStream.read, if_pos hgood, htake]
  dsimp only
  rw [if_neg (by omega)]

/-- Two objects are read from each record. -/
theorem blit_objectBytes {cells : List CChar} (h : cells.length = 8) (value : UInt64) :
    Buffer.blit cells 0 (objectBytes value) = objectBytes value := by
  rw [Buffer.blit, length_objectBytes, List.take_zero, List.nil_append, Nat.zero_add,
    List.drop_of_length_le (by omega), List.append_nil]

/-- The key of an entry is the value that the writer stored. -/
@[simp] theorem longValue_objectBytes (value : UInt64) :
    longValue (objectBytes value) = value.toInt64.toInt := by
  rw [longValue, objectValue_objectBytes]

/-- The last iteration finds nothing, keeps both variables and inserts the last entry
again. -/
theorem readIndiciesLoop_end {s : IFStream} {timestamp frameSize : List CChar}
    {map : IndiciesMap} {fuel : ℕ} (hgood : s.good = true)
    (hs : s.content.drop s.position = []) (hmem : longValue timestamp ∈ map.keys) :
    readIndiciesLoop (fuel + 2) s timestamp frameSize map = map := by
  have hfirst : s.read 8 = ([], { s with eofbit := true, failbit := true }) := by
    rw [IFStream.read, if_pos hgood, hs]
    rfl
  have hbad (count : ℕ) :
      ({ s with eofbit := true, failbit := true } : IFStream).read count =
        ([], { s with eofbit := true, failbit := true }) := rfl
  rw [readIndiciesLoop, if_pos hgood, hfirst]
  dsimp only
  rw [hbad, Buffer.blit_nil, Buffer.blit_nil, OrderedMap.insert_of_mem _ hmem]
  rfl

/-- An iteration on a whole record inserts it. -/
theorem readIndiciesLoop_cons {s : IFStream} {timestamp frameSize rest : List CChar}
    {map : IndiciesMap} {entry : UInt64 × Int64} (fuel : ℕ) (hgood : s.good = true)
    (hs : s.content.drop s.position = recordBytes entry ++ rest)
    (ht : timestamp.length = 8) (hf : frameSize.length = 8) :
    readIndiciesLoop (fuel + 1) s timestamp frameSize map =
      readIndiciesLoop fuel { s with position := s.position + 8 + 8 } (objectBytes entry.1)
        (objectBytes entry.2.toUInt64) (insertIndex map entry) := by
  rw [recordBytes, List.append_assoc] at hs
  have hfirst := IFStream.read_of_le hgood hs (length_objectBytes _)
  have hs' : s.content.drop (s.position + 8) = objectBytes entry.2.toUInt64 ++ rest := by
    rw [← List.drop_drop, hs, List.drop_left' (length_objectBytes _)]
  have hsecond := IFStream.read_of_le (s := { s with position := s.position + 8 }) hgood
    hs' (length_objectBytes _)
  rw [readIndiciesLoop, if_pos hgood, hfirst]
  dsimp only
  rw [hsecond, blit_objectBytes ht, blit_objectBytes hf, longValue_objectBytes,
    longValue_objectBytes, Int64.toInt64_toUInt64, insertIndex]

/-- Behind a record the rest of the file remains. -/
theorem drop_recordBytes {content rest : List CChar} {position : ℕ}
    {entry : UInt64 × Int64} (hs : content.drop position = recordBytes entry ++ rest) :
    content.drop (position + 8 + 8) = rest := by
  rw [Nat.add_assoc, ← List.drop_drop, hs, List.drop_left' (length_recordBytes _)]

/-- Every entry of the file has its key in the map. -/
theorem mem_keys_insertIndex (map : IndiciesMap) (entry : UInt64 × Int64) :
    longValue (objectBytes entry.1) ∈ (insertIndex map entry).keys := by
  rw [longValue_objectBytes]
  exact OrderedMap.mem_keys_insert.mpr (Or.inl rfl)

/-- Whole records are inserted one by one. -/
theorem readIndiciesLoop_entries (entries : List (UInt64 × Int64)) :
    ∀ {s : IFStream} {timestamp frameSize : List CChar} {map : IndiciesMap} {fuel : ℕ},
      s.good = true → s.content.drop s.position = idxBytes entries →
      timestamp.length = 8 → frameSize.length = 8 → entries.length ≤ fuel →
      longValue timestamp ∈ map.keys →
      readIndiciesLoop (fuel + 2) s timestamp frameSize map =
        entries.foldl insertIndex map := by
  induction entries with
  | nil => exact fun hgood hs _ _ _ hmem => readIndiciesLoop_end hgood hs hmem
  | cons entry entries ih =>
      intro s timestamp frameSize map fuel hgood hs ht hf hfuel hmem
      rw [List.length_cons] at hfuel
      obtain ⟨m, rfl⟩ : ∃ m, fuel = m + 1 := ⟨fuel - 1, by omega⟩
      rw [idxBytes_cons] at hs
      rw [readIndiciesLoop_cons (m + 2) hgood hs ht hf, List.foldl_cons]
      exact ih hgood (drop_recordBytes hs) (length_objectBytes _) (length_objectBytes _)
        (by omega) (mem_keys_insertIndex map entry)

/-- **A complete index file is read back**: its entries, in order, the first one of each
timestamp. -/
theorem readIndicies_idxBytes (entry : UInt64 × Int64) (entries : List (UInt64 × Int64))
    (timestamp frameSize : UInt64) :
    readIndicies (idxBytes (entry :: entries)) timestamp frameSize =
      (entry :: entries).foldl insertIndex OrderedMap.empty := by
  have hlen := length_idxBytes (entry :: entries)
  rw [List.length_cons] at hlen
  have hs : (idxBytes (entry :: entries)).drop 0 = recordBytes entry ++ idxBytes entries :=
    idxBytes_cons entry entries
  obtain ⟨m, hm⟩ : ∃ m, (idxBytes (entry :: entries)).length = m + 1 :=
    ⟨(idxBytes (entry :: entries)).length - 1, by omega⟩
  rw [readIndicies, hm, readIndiciesLoop_cons (s := { content := idxBytes (entry :: entries) })
    (m + 2) rfl hs (length_objectBytes _) (length_objectBytes _), List.foldl_cons]
  exact readIndiciesLoop_entries entries rfl (drop_recordBytes hs) (length_objectBytes _)
    (length_objectBytes _) (by omega) (mem_keys_insertIndex _ entry)

/-- Entries with a key that is there add nothing. -/
theorem length_foldl_insertIndex (entries : List (UInt64 × Int64)) :
    ∀ map : IndiciesMap, (entries.foldl insertIndex map).entries.length ≤
      map.entries.length + entries.length := by
  induction entries with
  | nil => exact fun _ => Nat.le_refl _
  | cons entry entries ih =>
      intro map
      have hrest := ih (insertIndex map entry)
      have hone := OrderedMap.length_insert_le map entry.1.toInt64.toInt entry.2.toInt
      rw [← insertIndex] at hone
      rw [List.foldl_cons, List.length_cons]
      omega

/-- Keys stay. -/
theorem keys_subset_foldl_insertIndex (entries : List (UInt64 × Int64)) :
    ∀ map : IndiciesMap, map.keys ⊆ (entries.foldl insertIndex map).keys := by
  induction entries with
  | nil => exact fun _ _ h => h
  | cons entry entries ih =>
      exact fun map x h => ih _ (OrderedMap.mem_keys_insert.mpr (Or.inr h))

/-! ## A pass over one file -/

/-- The reader has one map, with its stream. -/
def Single (reader : DatFileReader) (map : IndiciesMap) : Prop :=
  reader.mIndicies = [map] ∧ ∃ stream, reader.mDataStreams = [stream]

/-- `last` is the greatest key of the map. -/
def Greatest (map : IndiciesMap) (last : ℤ) : Prop :=
  last ∈ map.keys ∧ ∀ key ∈ map.keys, key ≤ last

/-- A map that is not empty has a last entry. -/
theorem exists_greatest {map : IndiciesMap} (h : map.entries ≠ []) :
    ∃ last, Greatest map last :=
  OrderedMap.exists_greatest h

namespace DatFileReader

/-- Every frame a visitor takes leaves the map. -/
theorem foldl_visitEntry (fuel : ℕ) (pairs : List (ℤ × ℤ)) :
    ∀ visit : Visit, (pairs.map Prod.fst).Nodup →
      (∀ pair ∈ pairs, pair.1 ∈ visit.map.keys) →
      (pairs.foldl (visitEntry fuel) visit).frames.length +
          (pairs.foldl (visitEntry fuel) visit).map.entries.length =
        visit.frames.length + visit.map.entries.length ∧
      (∀ key ∈ (pairs.foldl (visitEntry fuel) visit).map.keys, key ∈ visit.map.keys) ∧
      ∀ key ∈ visit.map.keys, key ∉ pairs.map Prod.fst →
        key ∈ (pairs.foldl (visitEntry fuel) visit).map.keys := by
  induction pairs with
  | nil => exact fun _ _ _ => ⟨rfl, fun _ h => h, fun _ h _ => h⟩
  | cons pair pairs ih =>
      intro visit hnodup hthere
      obtain ⟨hnew, hnodup⟩ := List.nodup_cons.mp hnodup
      rw [List.foldl_cons]
      -- the visitor erases its own key or leaves the map alone
      have hstep : (visitEntry fuel visit pair).map = visit.map ∧
            (visitEntry fuel visit pair).frames = visit.frames ∨
          (visitEntry fuel visit pair).map = visit.map.erase pair.1 ∧
            (visitEntry fuel visit pair).frames.length = visit.frames.length + 1 := by
        unfold visitEntry
        split
        · exact Or.inl ⟨rfl, rfl⟩
        · dsimp only
          split
          · exact Or.inr ⟨rfl, List.length_append⟩
          · exact Or.inl ⟨rfl, rfl⟩
          · exact Or.inl ⟨rfl, rfl⟩
      rcases hstep with ⟨hmap, hframes⟩ | ⟨hmap, hframes⟩
      · obtain ⟨hsum, hsub, hkeep⟩ := ih (visitEntry fuel visit pair) hnodup (by
          rw [hmap]
          exact fun p hp => hthere p (List.mem_cons_of_mem _ hp))
        rw [hmap, hframes] at hsum
        rw [hmap] at hsub hkeep
        refine ⟨hsum, hsub, fun key hkey hnot => hkeep key hkey fun hmem => hnot ?_⟩
        exact List.mem_cons_of_mem _ hmem
      · obtain ⟨hsum, hsub, hkeep⟩ := ih (visitEntry fuel visit pair) hnodup (by
          rw [hmap]
          refine fun p hp => OrderedMap.mem_keys_erase.mpr
            ⟨hthere p (List.mem_cons_of_mem _ hp), fun heq => hnew ?_⟩
          rw [← heq]
          exact List.mem_map_of_mem hp)
        rw [hmap, hframes] at hsum
        rw [hmap] at hsub hkeep
        have herase := OrderedMap.length_erase_of_mem (hthere pair List.mem_cons_self)
        refine ⟨by omega, fun key hkey => (OrderedMap.mem_keys_erase.mp (hsub key hkey)).1, ?_⟩
        intro key hkey hnot
        rw [List.map_cons, List.mem_cons, not_or] at hnot
        exact hkeep key (OrderedMap.mem_keys_erase.mpr ⟨hkey, hnot.1⟩) hnot.2

/-- Only entries of the map are visited. -/
theorem visited_subset (map : IndiciesMap) (timestamp : ℤ) :
    (visited map timestamp).Sublist map.entries :=
  (List.dropLast_sublist _).trans (List.takeWhile_sublist _)

/-- **A scan keeps the last entry of the map.**  Frames it collects leave the map, and
its greatest key stays. -/
theorem getFramesAtTimestamp_single (fuel : ℕ) {reader : DatFileReader} {map : IndiciesMap}
    {last : ℤ} (hsingle : Single reader map) (hlast : Greatest map last) (timestamp : ℤ) :
    ∃ map', Single (getFramesAtTimestamp fuel reader timestamp).reader map' ∧
      Greatest map' last ∧
      (getFramesAtTimestamp fuel reader timestamp).frames.length + map'.entries.length =
        map.entries.length := by
  obtain ⟨hmaps, stream, hstreams⟩ := hsingle
  have hscan : getFramesAtTimestamp fuel reader timestamp =
      scanIndex fuel timestamp { reader := reader } 0 := by
    rw [getFramesAtTimestamp, hmaps]
    rfl
  rw [hscan]
  unfold scanIndex
  rw [hmaps]
  dsimp only [List.getElem?_cons_zero]
  split
  · exact ⟨map, ⟨hmaps, stream, hstreams⟩, hlast, Nat.zero_add _⟩
  · rw [hstreams]
    dsimp only [List.getElem?_cons_zero]
    have hsub := visited_subset map timestamp
    obtain ⟨hsum, hkeys, hkeep⟩ := foldl_visitEntry fuel (visited map timestamp)
      { map := map, stream := stream } ((OrderedMap.keys_nodup map).sublist (hsub.map _))
      fun pair hpair => List.mem_map_of_mem (hsub.subset hpair)
    refine ⟨_, ⟨rfl, _, rfl⟩, ⟨?_, fun key hkey => hlast.2 key (hkeys key hkey)⟩, ?_⟩
    · refine hkeep last hlast.1 fun hmem => ?_
      obtain ⟨pair, hpair, hfst⟩ := List.mem_map.mp hmem
      obtain ⟨key, hkey, hgt⟩ := OrderedMap.exists_gt_of_mem_dropLast_below hpair
      have := hlast.2 key hkey
      omega
    · rw [hsum]
      exact Nat.zero_add _

/-- A whole pass delivers fewer frames than the map has entries. -/
theorem loopFrom_single (fuel steps : ℕ) {last : ℤ} :
    ∀ (currentTimestamp : ℤ) (pass : Pass) (map : IndiciesMap),
      Single pass.reader map → Greatest map last →
      (loopFrom fuel steps currentTimestamp pass).delivered.length <
        pass.delivered.length + map.entries.length := by
  have hpos {map : IndiciesMap} (h : Greatest map last) : 0 < map.entries.length := by
    obtain ⟨pair, hpair, -⟩ := List.mem_map.mp h.1
    exact List.length_pos_of_mem hpair
  induction steps with
  | zero =>
      intro _ pass map _ hlast
      have := hpos hlast
      rw [loopFrom]
      omega
  | succ steps ih =>
      intro currentTimestamp pass map hsingle hlast
      have hhere := hpos hlast
      obtain ⟨map', hsingle', hlast', hsum⟩ :=
        getFramesAtTimestamp_single fuel hsingle hlast currentTimestamp
      rw [loopFrom]
      split
      · dsimp only
        split
        · dsimp only
          omega
        · split
          · dsimp only
            omega
          · have hrest := ih (currentTimestamp + timestampStep)
              { pass with
                reader := (getFramesAtTimestamp fuel pass.reader currentTimestamp).reader
                delivered := pass.delivered ++
                  (getFramesAtTimestamp fuel pass.reader currentTimestamp).frames }
              map' hsingle' hlast'
            rw [List.length_append] at hrest
            omega
      · omega

/-- With one index, the last entry at least is not delivered. -/
theorem loop_single (fuel : ℕ) {reader : DatFileReader} {map : IndiciesMap} {last : ℤ}
    (hsingle : Single reader map) (hlast : Greatest map last) :
    (loop fuel reader).delivered.length < map.entries.length := by
  have hdelivered : (loop fuel reader).delivered =
      (loopFrom fuel (reader.mEndTimestamp - reader.mStartTimestamp).toNat
        reader.mStartTimestamp { reader := reader }).delivered := by
    rw [loop]
    split
    · split <;> rfl
    · rfl
  have hpass := loopFrom_single fuel (reader.mEndTimestamp - reader.mStartTimestamp).toNat
    reader.mStartTimestamp { reader := reader } map hsingle hlast
  rw [List.length_nil, Nat.zero_add] at hpass
  rwa [hdelivered]

/-- The time range is all that `GetTimestampPeeks` changes. -/
theorem getTimestampPeeks_range (reader : DatFileReader) :
    ∃ first last, reader.getTimestampPeeks =
      { reader with mStartTimestamp := first, mEndTimestamp := last } := by
  have hfold (maps : List IndiciesMap) : ∀ reader : DatFileReader,
      ∃ first last, maps.foldl peek reader =
        { reader with mStartTimestamp := first, mEndTimestamp := last } := by
    induction maps with
    | nil => exact fun reader => ⟨_, _, rfl⟩
    | cons map maps ih =>
        intro reader
        obtain ⟨first, last, h⟩ := ih (reader.peek map)
        refine ⟨first, last, h.trans ?_⟩
        unfold peek
        split <;> rfl
  exact hfold reader.mIndicies reader

/-- Looking for the first and the last timestamp changes no index. -/
theorem getTimestampPeeks_lists (reader : DatFileReader) :
    reader.getTimestampPeeks.mIndicies = reader.mIndicies ∧
      reader.getTimestampPeeks.mDataStreams = reader.mDataStreams := by
  obtain ⟨first, last, h⟩ := getTimestampPeeks_range reader
  rw [h]
  exact ⟨rfl, rfl⟩

/-- A reader started on one pair of files. -/
theorem start_single (readInfinitely : Bool) (raw idx : List CChar)
    (timestamp frameSize : UInt64) :
    Single (start { mReadInfinitely := readInfinitely } [(raw, idx)] timestamp frameSize)
      (readIndicies idx timestamp frameSize) := by
  cases readInfinitely with
  | false => exact ⟨(getTimestampPeeks_lists _).1, _, (getTimestampPeeks_lists _).2⟩
  | true => exact ⟨(getTimestampPeeks_lists _).1, _, (getTimestampPeeks_lists _).2⟩

end DatFileReader

/-! ## Recording and replaying -/

/-- Frames recorded in one truncating session and replayed in one pass. -/
def replay (saved : List Saved) (readInfinitely : Bool) (timestamp frameSize : UInt64)
    (fuel : ℕ) : DatFileReader.Pass :=
  let disk := runSessions [⟨.truncate, saved⟩]
  (DatFileReader.start { mReadInfinitely := readInfinitely } [(disk.raw, disk.idx)] timestamp
    frameSize).loop fuel

/-- Every saved frame once, in the order of the timestamps, with its content. -/
def Replays (saved : List Saved) (delivered : List V4LFrame) : Prop :=
  ∃ order : List Saved, order.Perm saved ∧
    (order.Pairwise fun a b => a.timestamp < b.timestamp) ∧
    delivered.map V4LFrame.content = order.map fun s => s.frame.content.cut

/-- A replay delivers as many frames as were saved. -/
theorem Replays.length_eq {saved : List Saved} {delivered : List V4LFrame}
    (h : Replays saved delivered) : delivered.length = saved.length := by
  obtain ⟨order, hperm, -, hcontent⟩ := h
  have hlen := congrArg List.length hcontent
  rw [List.length_map, List.length_map] at hlen
  rw [hlen, hperm.length_eq]

/-- A pass delivers fewer frames than were saved. -/
theorem length_replay_lt {saved : List Saved} (hne : saved ≠ []) (readInfinitely : Bool)
    (timestamp frameSize : UInt64) (fuel : ℕ) :
    (replay saved readInfinitely timestamp frameSize fuel).delivered.length < saved.length := by
  obtain ⟨first, rest, rfl⟩ := List.exists_cons_of_ne_nil hne
  have hidx : (runSessions [⟨.truncate, first :: rest⟩]).idx =
      idxBytes (indexEntries 0 (first :: rest)) := by
    rw [runSessions_eq]
    exact congrArg idxBytes (List.append_nil _)
  have hmap := readIndicies_idxBytes (first.timestamp, Int64.ofNat 0)
    (indexEntries (0 + first.frame.frameSize) rest) timestamp frameSize
  rw [← indexEntries] at hmap
  have hsingle := DatFileReader.start_single readInfinitely
    (runSessions [⟨.truncate, first :: rest⟩]).raw
    (runSessions [⟨.truncate, first :: rest⟩]).idx timestamp frameSize
  rw [hidx, hmap] at hsingle
  have hlen := length_foldl_insertIndex (indexEntries 0 (first :: rest)) OrderedMap.empty
  rw [length_indexEntries] at hlen
  have hne : ((indexEntries 0 (first :: rest)).foldl insertIndex
      OrderedMap.empty).entries ≠ [] := by
    have hkey := keys_subset_foldl_insertIndex
      (indexEntries (0 + first.frame.frameSize) rest)
      (insertIndex OrderedMap.empty (first.timestamp, Int64.ofNat 0))
      (mem_keys_insertIndex _ _)
    obtain ⟨pair, hpair, -⟩ := List.mem_map.mp hkey
    rw [indexEntries, List.foldl_cons]
    exact List.ne_nil_of_mem hpair
  obtain ⟨last, hlast⟩ := exists_greatest hne
  have hpass := DatFileReader.loop_single fuel hsingle hlast
  rw [replay, hidx]
  refine lt_of_lt_of_le hpass (hlen.trans ?_)
  exact (Nat.zero_add _).le

/-- **No recording is replayed completely.**  The scan stops one entry before its
bound, and the current time stops before the last timestamp: the last frame of the map
is never reached, so what the listener receives is never what was saved. -/
theorem replay_incomplete {saved : List Saved} (hne : saved ≠ []) (readInfinitely : Bool)
    (timestamp frameSize : UInt64) (fuel : ℕ) :
    ¬Replays saved (replay saved readInfinitely timestamp frameSize fuel).delivered := by
  intro h
  have hlt := length_replay_lt hne readInfinitely timestamp frameSize fuel
  have := h.length_eq
  omega

/-- Two frames, five seconds apart. -/
def twoSaved : List Saved :=
  [{ emptyFrame with timestamp := 1 }, { emptyFrame with timestamp := 5001 }]

/-- Two frames of one recording. -/
theorem twoSaved_incomplete : ¬Replays twoSaved (replay twoSaved false 0 0 200).delivered :=
  replay_incomplete (by rw [twoSaved]; exact List.cons_ne_nil _ _) false 0 0 200

/-- Neither of them is delivered. -/
theorem twoSaved_lost :
    (replay twoSaved false 0 0 200).delivered = [] ∧
      ¬Replays twoSaved (replay twoSaved false 0 0 200).delivered := by
  have hnone : (replay twoSaved false 0 0 200).delivered = [] := by decide
  refine ⟨hnone, fun h => ?_⟩
  have hlen := h.length_eq
  rw [hnone] at hlen
  exact absurd hlen (by decide)

end NewCPP
