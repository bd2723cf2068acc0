import NewCPP.DatFileReader
import NewCPP.TimerFramework.WorkerThread

/-!
# The streams of the replayer

`GetFramesAtTimestamp` reads the entries of the map at `index` from the stream at `index`.
`Start` opens a stream and reads a map for every data file, behind the ones that are there;
`Stop` clears the streams and keeps the maps, while the thread that it lets go is still in
its pass.

## Design notes

**Steps.**  The calls of the owner and the steps of the threads interleave in any order.  A
step of a thread is an iteration of the index loop, or what lies between two of them.
`Worker::Start` and `Worker::Stop` are those of `WorkerThread`, `perform_refines`.

**Files.**  Next to the lists of streams and of maps stand the places in `mDatFiles` that
they belong to.  `open` throws nothing, as the exceptions of the stream are not enabled, so
every data file brings a stream and a map, whatever is in the files.

**Visiting.**  An iteration is taken to read the entries that are in its map when it starts, as
`NewCPP.DatFileReader` assumes of `std::for_each`; where it crashes instead there are no later
accesses.

**Ends.**  A thread that the decoder does not return to, that reads outside of the
streams or whose current time leaves the range of `long` goes no further.

An access is sound exactly if its index is smaller than the number of data files times the
number of starts since the last stop, `sound_iff_covered`: without stops all accesses are,
`sound_without_stop`.
-/

namespace NewCPP.DatFileStreams

open WorkerThread

/-! ## The reader and its threads -/

/-- Where a thread is in `Loop`. -/
inductive Position where
  | enter
  | step (currentTimestamp : ℤ)
  /-- In `GetFramesAtTimestamp`, before the iteration for `index`. -/
  | scan (timestamp : ℤ) (index : ℕ)
  | left
  deriving DecidableEq, Repr

/-- An access `mDataStreams[index]`: the number of streams, the data file of the stream that
it finds, and the data file that the map was read for. -/
structure Access where
  index : ℕ
  size : ℕ
  stream : Option ℕ
  file : Option ℕ
  deriving DecidableEq, Repr

/-- The access stays inside and finds the stream of the map's data file. -/
def Access.Sound (access : Access) : Prop :=
  access.index < access.size ∧ ∃ file, access.stream = some file ∧ access.file = some file

/-- The reader, and the data files that its streams and maps belong to. -/
structure Shared where
  reader : DatFileReader
  streamFiles : List ℕ := []
  indexFiles : List ℕ := []
  copyFiles : List ℕ := []
  /-- Calls of `Start` since the last `Stop`. -/
  starts : ℕ := 0
  accesses : List Access := []

namespace Shared

/-- `Start` before `Worker::Start`. -/
def opened (shared : Shared) (datFiles : List (List CChar × List CChar))
    (timestamp frameSize : UInt64) : Shared :=
  let indexFiles := shared.indexFiles ++ List.range datFiles.length
  { shared with
    reader := shared.reader.start datFiles timestamp frameSize
    streamFiles := shared.streamFiles ++ List.range datFiles.length
    indexFiles := indexFiles
    copyFiles := if shared.reader.mReadInfinitely then indexFiles else shared.copyFiles
    starts := shared.starts + 1 }

/-- `Stop` behind `Worker::Stop`. -/
def closed (shared : Shared) : Shared :=
  { shared with
    reader := { shared.reader with mDataStreams := [] }
    streamFiles := []
    starts := 0 }

/-- The end of `Loop`. -/
def restored (shared : Shared) : Shared :=
  if shared.reader.mReadInfinitely then
    { shared with
      reader := { shared.reader with mIndicies := shared.reader.mCopyIndicies }
      indexFiles := shared.copyFiles }
  else shared

/-- The iteration visits an entry, and evaluates `mDataStreams[index]` for it. -/
def reads (shared : Shared) (timestamp : ℤ) (index : ℕ) : Bool :=
  match shared.reader.mIndicies[index]? with
  | some map => !(DatFileReader.visited map timestamp).isEmpty
  | none => false

/-- An access to the stream of an index, with what it depends on. -/
def access (shared : Shared) (index : ℕ) : Access where
  index := index
  size := shared.reader.mDataStreams.length
  stream := shared.streamFiles[index]?
  file := shared.indexFiles[index]?

/-- A step in `Loop`. -/
def loopStep (fuel : ℕ) (shared : Shared) : Position → Shared × Option Position
  | .enter => (shared, some (.step shared.reader.mStartTimestamp))
  | .step currentTimestamp =>
      if currentTimestamp < shared.reader.mEndTimestamp then
        (shared, some (.scan currentTimestamp 0))
      else (shared.restored, none)
  | .scan timestamp index =>
      if index < shared.reader.mIndicies.length then
        let scan := DatFileReader.scanIndex fuel timestamp { reader := shared.reader } index
        let accesses := if shared.reads timestamp index then [shared.access index] else []
        ({ shared with
            reader := scan.reader
            accesses := shared.accesses ++ accesses },
          some (if scan.left.isSome then .left else .scan timestamp (index + 1)))
      else if longMax < timestamp + timestampStep then (shared, some .left)
      else (shared, some (.step (timestamp + timestampStep)))
  | .left => (shared, some .left)

end Shared

/-- A `DatFileReader` is a worker. -/
abbrev State := Worker Shared Position

/-- The next step of the owner or of a thread. -/
inductive Action (n : ℕ) where
  /-- The contents of the data files and of their index files; the indeterminate values of
  `timestamp` and `frameSize` in `ReadIndicies`. -/
  | start (datFiles : Fin n → List CChar × List CChar) (timestamp frameSize : UInt64)
  | stop
  | thread (thread : ℕ)

namespace State

/-- `Start`: the files are opened and a thread is created, unless the list is empty. -/
def start (w : State) (datFiles : List (List CChar × List CChar))
    (timestamp frameSize : UInt64) : State :=
  if datFiles.isEmpty then w
  else
    (Worker.create { w with
      shared := w.shared.opened datFiles timestamp frameSize
      stopRequested := false }).2

/-- `Stop`: the thread is asked to end, and then let go; it may still run. -/
def stop (w : State) : State :=
  { w.requestStop.detach with shared := w.shared.closed }

/-- A step of a thread in `Run`. -/
def advance (fuel : ℕ) (w : State) (thread : ℕ) : State :=
  match w.threads[thread]? with
  | some .check =>
      if w.stopRequested then w.goTo thread .exited else w.goTo thread (.loop .enter)
  | some (.loop position) =>
      let next := w.shared.loopStep fuel position
      { w with shared := next.1, threads := w.threads.set thread (Worker.afterLoop next.2) }
  | _ => w

/-- What a call of the owner or a step of a thread does. -/
def perform {n : ℕ} (fuel : ℕ) (w : State) : Action n → State
  | .start datFiles timestamp frameSize =>
      w.start (List.ofFn datFiles) timestamp frameSize
  | .stop => w.stop
  | .thread thread => w.advance fuel thread

/-- What a schedule of them does. -/
def run {n : ℕ} (fuel : ℕ) (w : State) (actions : List (Action n)) : State :=
  actions.foldl (perform fuel) w

/-- A reader that has just been constructed. -/
def new (readInfinitely : Bool) : State :=
  Worker.new { reader := { mReadInfinitely := readInfinitely } }

end State

/-! ## The thread of the reader is that of a worker -/

/-- `DatFileReader::Loop`, between the calls of its owner. -/
def loopImpl (fuel : ℕ) : LoopImpl Shared Position where
  enter := .enter
  step _ _ shared position shared' next := shared.loopStep fuel position = (shared', next)
  client _ shared shared' :=
    (∃ datFiles timestamp frameSize, shared' = shared.opened datFiles timestamp frameSize) ∨
      shared' = shared.closed

/-- **Every action is a path of the worker's steps.** -/
theorem perform_refines {n : ℕ} (fuel : ℕ) {w : State} (action : Action n)
    (hidle : w.owner = .idle) :
    Relation.ReflTransGen (Worker.Step (loopImpl fuel)) w (w.perform fuel action) ∧
      (w.perform fuel action).owner = .idle := by
  cases action with
  | start datFiles timestamp frameSize =>
      rw [State.perform, State.start]
      split
      · exact ⟨Relation.ReflTransGen.refl, hidle⟩
      · have hopen : Worker.Step (loopImpl fuel) w { w with
            shared := w.shared.opened (List.ofFn datFiles) timestamp frameSize } :=
          .client _ (Or.inl ⟨_, _, _, rfl⟩)
        have hcreate := Worker.Step.create (R := loopImpl fuel) (w := { w with
          shared := w.shared.opened (List.ofFn datFiles) timestamp frameSize
          stopRequested := false
          owner := .starting }) rfl
        -- `create` returns the owner from wherever it was
        have howner (w : State) (owner : Owner) :
            ({ w with owner := owner } : State).create.2 = w.create.2 := by
          unfold Worker.create
          cases w.thread <;> rfl
        have hback (w : State) : w.create.2.owner = .idle := by
          unfold Worker.create
          cases w.thread <;> rfl
        refine ⟨((Relation.ReflTransGen.single hopen).tail (.start hidle)).tail ?_, hback _⟩
        exact (howner { w with
          shared := w.shared.opened (List.ofFn datFiles) timestamp frameSize
          stopRequested := false } .starting) ▸ hcreate
  | stop =>
      have hclose : Worker.Step (loopImpl fuel) w.requestStop.detach w.stop :=
        .client _ (Or.inr rfl)
      exact ⟨((Relation.ReflTransGen.single (.stop hidle)).tail (.detach rfl)).tail hclose, rfl⟩
  | thread thread =>
      rw [State.perform, State.advance]
      split
      · rename_i hcheck
        split
        · rename_i hstop
          exact ⟨Relation.ReflTransGen.single (.exit thread hcheck hstop), hidle⟩
        · rename_i hgoes
          exact ⟨Relation.ReflTransGen.single (.enter thread hcheck (by simpa using hgoes)),
            hidle⟩
      · rename_i position hloop
        exact ⟨Relation.ReflTransGen.single (.loop thread position _ _ hloop rfl), hidle⟩
      · exact ⟨Relation.ReflTransGen.refl, hidle⟩

/-! ## What a step does to the streams and the maps -/

/-- A step in `Loop` shares what it found, or the maps that the end of `Loop` restores, or
the streams and maps behind one iteration. -/
theorem Shared.loopStep_cases (fuel : ℕ) (shared : Shared) (position : Position) :
    (shared.loopStep fuel position).1 = shared ∨
      (shared.loopStep fuel position).1 = shared.restored ∨
      ∃ timestamp index accesses, (shared.loopStep fuel position).1 =
        { shared with
          reader := (DatFileReader.scanIndex fuel timestamp
            { reader := shared.reader } index).reader
          accesses := accesses } := by
  cases position with
  | enter => exact Or.inl rfl
  | step currentTimestamp =>
      rw [Shared.loopStep]
      split
      · exact Or.inl rfl
      · exact Or.inr (Or.inl rfl)
  | scan timestamp index =>
      rw [Shared.loopStep]
      split
      · exact Or.inr (Or.inr ⟨timestamp, index, _, rfl⟩)
      · split <;> exact Or.inl rfl
  | left => exact Or.inl rfl

/-- Of the owner only `Start` and `Stop` touch what is shared, of a thread only `Loop`. -/
theorem perform_cases {n : ℕ} (fuel : ℕ) (w : State) (action : Action n) :
    (w.perform fuel action).shared = w.shared ∨
      (∃ datFiles timestamp frameSize, action = .start datFiles timestamp frameSize ∧
        (w.perform fuel action).shared =
          w.shared.opened (List.ofFn datFiles) timestamp frameSize) ∨
      (action = .stop ∧ (w.perform fuel action).shared = w.shared.closed) ∨
      ∃ position, (w.perform fuel action).shared = (w.shared.loopStep fuel position).1 := by
  cases action with
  | start datFiles timestamp frameSize =>
      rw [State.perform, State.start]
      split
      · exact Or.inl rfl
      · refine Or.inr (Or.inl ⟨datFiles, timestamp, frameSize, rfl, ?_⟩)
        unfold Worker.create
        split <;> rfl
  | stop => exact Or.inr (Or.inr (Or.inl ⟨rfl, rfl⟩))
  | thread thread =>
      rw [State.perform, State.advance]
      split
      · split <;> exact Or.inl rfl
      · exact Or.inr (Or.inr (Or.inr ⟨_, rfl⟩))
      · exact Or.inl rfl

/-! ## Streams and maps stay in the order of the data files -/

/-- The data files of `k` starts. -/
def cycle (n : ℕ) : ℕ → List ℕ
  | 0 => []
  | k + 1 => cycle n k ++ List.range n

/-- The lists are as long as the number of starts says. -/
theorem length_cycle (n k : ℕ) : (cycle n k).length = n * k := by
  induction k with
  | zero => rfl
  | succ k ih => rw [cycle, List.length_append, ih, List.length_range, Nat.mul_succ]

/-- Each start repeats the files of the list in their order. -/
theorem getElem?_cycle (n k : ℕ) {index : ℕ} (h : index < n * k) :
    (cycle n k)[index]? = some (index % n) := by
  induction k with
  | zero => exact absurd h (Nat.not_lt_zero _)
  | succ k ih =>
      rw [cycle]
      by_cases hfront : index < n * k
      · rw [List.getElem?_append_left (by rwa [length_cycle]), ih hfront]
      · have hlen := length_cycle n k
        have hlast : index - n * k < n := by
          rw [Nat.mul_succ] at h
          omega
        rw [List.getElem?_append_right (by omega), hlen, List.getElem?_range hlast]
        have hmod : index % n = index - n * k := by
          rw [← Nat.mod_eq_of_lt hlast, Nat.sub_mul_mod (by omega)]
        rw [hmod]

/-- What every action keeps: every stream and every map has its data file, and these come in
the order of `mDatFiles`, again and again. -/
structure Ordered (n : ℕ) (shared : Shared) : Prop where
  streams : shared.reader.mDataStreams.length = shared.streamFiles.length
  maps : shared.reader.mIndicies.length = shared.indexFiles.length
  copies : shared.reader.mCopyIndicies.length = shared.copyFiles.length
  streamFiles : shared.streamFiles = cycle n shared.starts
  indexFiles : ∃ k, shared.indexFiles = cycle n k
  copyFiles : ∃ k, shared.copyFiles = cycle n k

/-- **An access is sound exactly if its index is one of the streams.** -/
theorem Ordered.access_sound_iff {n : ℕ} {shared : Shared} (h : Ordered n shared)
    {index : ℕ} (hmap : index < shared.reader.mIndicies.length) :
    (shared.access index).Sound ↔ index < n * shared.starts := by
  obtain ⟨k, hk⟩ := h.indexFiles
  have hsize : shared.reader.mDataStreams.length = n * shared.starts := by
    rw [h.streams, h.streamFiles, length_cycle]
  have hfile : shared.indexFiles[index]? = some (index % n) := by
    rw [h.maps, hk, length_cycle] at hmap
    rw [hk, getElem?_cycle n k hmap]
  constructor
  · rintro ⟨hlt, -⟩
    exact lt_of_lt_of_eq hlt hsize
  · intro hlt
    refine ⟨lt_of_lt_of_eq hlt hsize.symm, index % n, ?_, hfile⟩
    change shared.streamFiles[index]? = _
    rw [h.streamFiles, getElem?_cycle n _ hlt]

/-- `Start` appends a stream and a map for every data file. -/
theorem start_lengths (reader : DatFileReader) (datFiles : List (List CChar × List CChar))
    (timestamp frameSize : UInt64) :
    (reader.start datFiles timestamp frameSize).mDataStreams.length =
        reader.mDataStreams.length + datFiles.length ∧
      (reader.start datFiles timestamp frameSize).mIndicies.length =
        reader.mIndicies.length + datFiles.length ∧
      (reader.start datFiles timestamp frameSize).mCopyIndicies.length =
        (if reader.mReadInfinitely then reader.mIndicies.length + datFiles.length
          else reader.mCopyIndicies.length) ∧
      (reader.start datFiles timestamp frameSize).mReadInfinitely = reader.mReadInfinitely := by
  obtain ⟨first, last, h⟩ := DatFileReader.getTimestampPeeks_range
    (if reader.mReadInfinitely then
      { reader with
        mDataStreams := reader.mDataStreams ++ datFiles.map fun file => { content := file.1 }
        mIndicies := reader.mIndicies ++ datFiles.map fun file =>
          readIndicies file.2 timestamp frameSize
        mCopyIndicies := reader.mIndicies ++ datFiles.map fun file =>
          readIndicies file.2 timestamp frameSize }
    else
      { reader with
        mDataStreams := reader.mDataStreams ++ datFiles.map fun file => { content := file.1 }
        mIndicies := reader.mIndicies ++ datFiles.map fun file =>
          readIndicies file.2 timestamp frameSize })
  rw [DatFileReader.start, h]
  split <;> simp

/-- A start appends one more turn of the cycle. -/
theorem Ordered.opened {n : ℕ} {shared : Shared} (h : Ordered n shared)
    {datFiles : List (List CChar × List CChar)} (hn : datFiles.length = n)
    (timestamp frameSize : UInt64) :
    Ordered n (shared.opened datFiles timestamp frameSize) := by
  obtain ⟨hstreams, hmaps, hcopies, -⟩ :=
    start_lengths shared.reader datFiles timestamp frameSize
  have hrange : (List.range datFiles.length).length = datFiles.length := List.length_range
  obtain ⟨k, hk⟩ := h.indexFiles
  have hindex : shared.indexFiles ++ List.range datFiles.length = cycle n (k + 1) := by
    rw [cycle, hk, hn]
  refine ⟨?_, ?_, ?_, ?_, ⟨k + 1, hindex⟩, ?_⟩
  · rw [Shared.opened, hstreams, List.length_append, hrange, h.streams]
  · rw [Shared.opened, hmaps, List.length_append, hrange, h.maps]
  · rw [Shared.opened, hcopies]
    dsimp only
    split
    · rw [List.length_append, hrange, h.maps]
    · exact h.copies
  · rw [Shared.opened, cycle, h.streamFiles, hn]
  · rw [Shared.opened]
    dsimp only
    split
    · exact ⟨k + 1, hindex⟩
    · exact h.copyFiles

theorem Ordered.closed {n : ℕ} {shared : Shared} (h : Ordered n shared) :
    Ordered n shared.closed where
  streams := rfl
  maps := h.maps
  copies := h.copies
  streamFiles := rfl
  indexFiles := h.indexFiles
  copyFiles := h.copyFiles

theorem Ordered.restored {n : ℕ} {shared : Shared} (h : Ordered n shared) :
    Ordered n shared.restored := by
  unfold Shared.restored
  split
  · exact ⟨h.streams, h.copies, h.copies, h.streamFiles, h.copyFiles, h.copyFiles⟩
  · exact h

/-- An iteration writes the map and the stream at its index. -/
theorem scanIndex_lengths (fuel : ℕ) (timestamp : ℤ) (scan : Scan) (index : ℕ) :
    (DatFileReader.scanIndex fuel timestamp scan index).reader.mDataStreams.length =
        scan.reader.mDataStreams.length ∧
      (DatFileReader.scanIndex fuel timestamp scan index).reader.mIndicies.length =
        scan.reader.mIndicies.length ∧
      (DatFileReader.scanIndex fuel timestamp scan index).reader.mCopyIndicies =
        scan.reader.mCopyIndicies := by
  unfold DatFileReader.scanIndex
  split
  · split
    · exact ⟨rfl, rfl, rfl⟩
    · split
      · exact ⟨rfl, rfl, rfl⟩
      · exact ⟨List.length_set, List.length_set, rfl⟩
  · exact ⟨rfl, rfl, rfl⟩

/-- A step of the loop opens and closes nothing. -/
theorem Ordered.loopStep {n : ℕ} {shared : Shared} (h : Ordered n shared) (fuel : ℕ)
    (position : Position) : Ordered n (shared.loopStep fuel position).1 := by
  obtain hsame | hrestored | ⟨timestamp, index, accesses, hscan⟩ :=
    shared.loopStep_cases fuel position
  · rwa [hsame]
  · rw [hrestored]
    exact h.restored
  · obtain ⟨hstreams, hmaps, hcopies⟩ :=
      scanIndex_lengths fuel timestamp { reader := shared.reader } index
    rw [hscan]
    exact ⟨hstreams.trans h.streams, hmaps.trans h.maps,
      (congrArg List.length hcopies).trans h.copies, h.streamFiles, h.indexFiles, h.copyFiles⟩

/-- Calls and steps keep the order. -/
theorem Ordered.perform {n : ℕ} {w : State} (h : Ordered n w.shared) (fuel : ℕ)
    (action : Action n) : Ordered n (w.perform fuel action).shared := by
  obtain hsame | ⟨datFiles, timestamp, frameSize, -, hopened⟩ | ⟨-, hclosed⟩ |
    ⟨position, hloop⟩ := perform_cases fuel w action
  · rwa [hsame]
  · rw [hopened]
    exact h.opened List.length_ofFn timestamp frameSize
  · rw [hclosed]
    exact h.closed
  · rw [hloop]
    exact h.loopStep fuel position

theorem Ordered.new (n : ℕ) (readInfinitely : Bool) :
    Ordered n (State.new readInfinitely).shared :=
  ⟨rfl, rfl, rfl, rfl, ⟨0, rfl⟩, ⟨0, rfl⟩⟩

/-! ## Accesses of a run -/

/-- If the action is an iteration that reads, its index is smaller than the number of data
files times the number of starts since the last stop. -/
def Covered {n : ℕ} (w : State) : Action n → Prop
  | .thread thread =>
      ∀ timestamp index, w.threads[thread]? = some (.loop (.scan timestamp index)) →
        w.shared.reads timestamp index = true → index < n * w.shared.starts
  | _ => True

/-- Every action of the run is covered. -/
def CoveredRun {n : ℕ} (fuel : ℕ) : State → List (Action n) → Prop
  | _, [] => True
  | w, action :: actions => Covered w action ∧ CoveredRun fuel (w.perform fuel action) actions

/-- Every access so far was one to a stream that exists and belongs to its index. -/
def AccessesSound (w : State) : Prop :=
  ∀ access ∈ w.shared.accesses, access.Sound

/-- A map that has an entry at the timestamp exists. -/
theorem lt_of_reads {shared : Shared} {timestamp : ℤ} {index : ℕ}
    (h : shared.reads timestamp index = true) : index < shared.reader.mIndicies.length := by
  unfold Shared.reads at h
  split at h
  · rename_i map hmap
    exact (List.getElem?_eq_some_iff.mp hmap).1
  · exact absurd h Bool.false_ne_true

/-- The accesses of a step in `Loop`. -/
theorem loopStep_accesses (fuel : ℕ) (shared : Shared) (position : Position) :
    (shared.loopStep fuel position).1.accesses = shared.accesses ∧
        (∀ timestamp index, position = .scan timestamp index →
          shared.reads timestamp index = false) ∨
      ∃ timestamp index, position = .scan timestamp index ∧
        shared.reads timestamp index = true ∧
        (shared.loopStep fuel position).1.accesses =
          shared.accesses ++ [shared.access index] := by
  cases position with
  | enter => exact Or.inl ⟨rfl, fun _ _ h => by cases h⟩
  | step currentTimestamp =>
      refine Or.inl ⟨?_, fun _ _ h => by cases h⟩
      rw [Shared.loopStep]
      split
      · rfl
      · unfold Shared.restored
        split <;> rfl
  | scan timestamp index =>
      rw [Shared.loopStep]
      cases hreads : shared.reads timestamp index with
      | false =>
          refine Or.inl ⟨?_, ?_⟩
          · split
            · exact List.append_nil _
            · split <;> rfl
          · intro timestamp' index' h
            cases h
            exact hreads
      | true =>
          refine Or.inr ⟨timestamp, index, rfl, hreads, ?_⟩
          rw [if_pos (lt_of_reads hreads)]
          rfl
  | left => exact Or.inl ⟨rfl, fun _ _ h => by cases h⟩

/-- **One action**: the accesses that it adds are sound exactly if it is covered. -/
theorem perform_sound_iff {n : ℕ} (fuel : ℕ) {w : State} (h : Ordered n w.shared)
    (action : Action n) :
    AccessesSound (w.perform fuel action) ↔ AccessesSound w ∧ Covered w action := by
  cases action with
  | start datFiles timestamp frameSize =>
      have hsame : (w.perform fuel (.start datFiles timestamp frameSize)).shared.accesses =
          w.shared.accesses := by
        rw [State.perform, State.start]
        split
        · rfl
        · unfold Worker.create
          split <;> rfl
      rw [AccessesSound, hsame]
      exact (and_iff_left trivial).symm
  | stop => exact (and_iff_left trivial).symm
  | thread thread =>
      rw [State.perform, State.advance]
      cases hplace : w.threads[thread]? with
      | none =>
          refine (and_iff_left fun timestamp index hscan => ?_).symm
          rw [hplace] at hscan
          cases hscan
      | some place =>
          cases place with
          | check =>
              have hsame : AccessesSound (if w.stopRequested = true then
                  w.goTo thread .exited else w.goTo thread (.loop .enter)) ↔
                  AccessesSound w := by
                split <;> exact Iff.rfl
              refine hsame.trans (and_iff_left fun timestamp index hscan => ?_).symm
              rw [hplace] at hscan
              cases hscan
          | exited =>
              refine (and_iff_left fun timestamp index hscan => ?_).symm
              rw [hplace] at hscan
              cases hscan
          | loop position =>
              change (∀ access ∈ (w.shared.loopStep fuel position).1.accesses,
                access.Sound) ↔ _
              obtain ⟨hsame, hquiet⟩ | ⟨timestamp, index, rfl, hreads, hnew⟩ :=
                loopStep_accesses fuel w.shared position
              · rw [hsame]
                refine (and_iff_left fun timestamp index hscan hreads => ?_).symm
                rw [hplace] at hscan
                cases hscan
                rw [hquiet _ _ rfl] at hreads
                exact absurd hreads Bool.false_ne_true
              · have hcovered : Covered w (.thread thread : Action n) ↔
                    index < n * w.shared.starts := by
                  refine ⟨fun hc => hc timestamp index hplace hreads, ?_⟩
                  intro hlt timestamp' index' hscan _
                  rw [hplace] at hscan
                  cases hscan
                  exact hlt
                rw [hnew, hcovered, ← h.access_sound_iff (lt_of_reads hreads)]
                simp [AccessesSound, or_imp, forall_and]

/-- All accesses are sound exactly if all steps are covered. -/
theorem run_sound_iff {n : ℕ} (fuel : ℕ) (actions : List (Action n)) :
    ∀ {w : State}, Ordered n w.shared →
      (AccessesSound (w.run fuel actions) ↔ AccessesSound w ∧ CoveredRun fuel w actions) := by
  induction actions with
  | nil => exact fun _ => (and_iff_left trivial).symm
  | cons action actions ih =>
      intro w h
      have hrest := ih (h.perform fuel action)
      rw [perform_sound_iff fuel h action, and_assoc] at hrest
      exact hrest

/-- **Every access of a run is inside the streams and finds the stream of its map's data
file** exactly if every iteration of the run that reads does so at an index smaller than the
number of data files times the number of starts since the last stop. -/
theorem sound_iff_covered {n : ℕ} (fuel : ℕ) (readInfinitely : Bool)
    (actions : List (Action n)) :
    AccessesSound ((State.new readInfinitely).run fuel actions) ↔
      CoveredRun fuel (State.new readInfinitely) actions := by
  rw [run_sound_iff fuel actions (Ordered.new n readInfinitely)]
  refine and_iff_right ?_
  intro access h
  cases h

/-! ## Runs without stops -/

/-- No more maps than streams, in use or copied. -/
def Backed (shared : Shared) : Prop :=
  shared.indexFiles.length ≤ shared.streamFiles.length ∧
    shared.copyFiles.length ≤ shared.streamFiles.length

/-- A start that opens a stream for each map keeps that. -/
theorem Backed.opened {shared : Shared} (h : Backed shared)
    (datFiles : List (List CChar × List CChar)) (timestamp frameSize : UInt64) :
    Backed (shared.opened datFiles timestamp frameSize) := by
  unfold Shared.opened Backed
  simp only [List.length_append]
  refine ⟨Nat.add_le_add_right h.1 _, ?_⟩
  split
  · rw [List.length_append]
    exact Nat.add_le_add_right h.1 _
  · exact h.2.trans (Nat.le_add_right _ _)

/-- So does putting the entries back. -/
theorem Backed.restored {shared : Shared} (h : Backed shared) : Backed shared.restored := by
  unfold Shared.restored
  split
  · exact ⟨h.2, h.2⟩
  · exact h

/-- So does a step of the loop. -/
theorem Backed.loopStep {shared : Shared} (h : Backed shared) (fuel : ℕ)
    (position : Position) : Backed (shared.loopStep fuel position).1 := by
  obtain hsame | hrestored | ⟨timestamp, index, accesses, hscan⟩ :=
    shared.loopStep_cases fuel position
  · rwa [hsame]
  · rw [hrestored]
    exact h.restored
  · rw [hscan]
    exact h

/-- Only `Stop` takes streams away. -/
theorem Backed.perform {n : ℕ} {w : State} (h : Backed w.shared) (fuel : ℕ)
    {action : Action n} (hstop : action ≠ .stop) : Backed (w.perform fuel action).shared := by
  obtain hsame | ⟨datFiles, timestamp, frameSize, -, hopened⟩ | ⟨hclosed, -⟩ |
    ⟨position, hloop⟩ := perform_cases fuel w action
  · rwa [hsame]
  · rw [hopened]
    exact h.opened _ timestamp frameSize
  · exact absurd hclosed hstop
  · rw [hloop]
    exact h.loopStep fuel position

/-- With a stream behind each map, every access is covered. -/
theorem Backed.covered {n : ℕ} {w : State} (h : Backed w.shared) (hordered : Ordered n w.shared)
    (action : Action n) : Covered w action := by
  cases action with
  | start datFiles timestamp frameSize => trivial
  | stop => trivial
  | thread thread =>
      intro timestamp index _ hreads
      have hlt := lt_of_reads hreads
      have hlen := h.1
      rw [hordered.streamFiles, length_cycle] at hlen
      rw [hordered.maps] at hlt
      exact lt_of_lt_of_le hlt hlen

/-- **Without stops all accesses are sound**, however often the reader is started. -/
theorem sound_without_stop {n : ℕ} (fuel : ℕ) (readInfinitely : Bool)
    {actions : List (Action n)} (hstop : .stop ∉ actions) :
    AccessesSound ((State.new readInfinitely).run fuel actions) := by
  have hrun (actions : List (Action n)) : ∀ {w : State}, Backed w.shared →
      Ordered n w.shared → .stop ∉ actions → CoveredRun fuel w actions := by
    induction actions with
    | nil => exact fun _ _ _ => trivial
    | cons action actions ih =>
        intro w h hordered hstop
        rw [List.mem_cons, not_or] at hstop
        exact ⟨h.covered hordered action, ih (h.perform fuel (Ne.symm hstop.1))
          (hordered.perform fuel action) hstop.2⟩
  exact (sound_iff_covered fuel readInfinitely actions).mpr
    (hrun actions ⟨Nat.le_refl _, Nat.le_refl _⟩ (Ordered.new n readInfinitely) hstop)

/-! ## A stop in the middle of a pass -/

/-- An index of three frames, two of them in the first second. -/
def threeEntries : List CChar :=
  idxBytes [(0, 0), (500, 0), (5000, 0)]

/-- The thread is at the only map of its second scan when the reader is stopped. -/
def stoppedInPass : List (Action 1) :=
  .start (fun _ => ([], threeEntries)) 0 0 :: List.replicate 6 (.thread 0) ++
    [.stop, .thread 0]

/-- The stream is gone that the thread reads next. -/
theorem stoppedInPass_accesses :
    ((State.new false).run 0 stoppedInPass).shared.accesses = [⟨0, 0, none, some 0⟩] := by
  decide

/-- Not every access of every run is sound. -/
theorem not_accessesSound :
    ¬∀ (n fuel : ℕ) (readInfinitely : Bool) (actions : List (Action n)),
      AccessesSound ((State.new readInfinitely).run fuel actions) := by
  intro h
  have haccess := h 1 0 false stoppedInPass ⟨0, 0, none, some 0⟩
    (by rw [stoppedInPass_accesses]; exact List.mem_singleton.mpr rfl)
  exact absurd haccess.1 (Nat.lt_irrefl 0)

end NewCPP.DatFileStreams
