import Mathlib.Algebra.Order.Ring.Nat
import Mathlib.Data.Int.Order.Basic
import Mathlib.Data.List.Infix
import Mathlib.Tactic.Common

/-!
# Writing to a socket

`Socket::writeData` calls `send` until it has counted as many bytes as the buffer holds.
Each round sends the buffer from its start.

* `writeData_returns` — the loop ends.
* `writeData_delivers_iff` — when a result that is not negative means that the bytes
  accepted are those of the buffer: where no round after the first is needed, or every
  start of the buffer that is sent again happens to equal what is due.

## Design notes

**The kernel.**  `results` lists what the calls of `send` return; a count is positive and
not larger than requested.  `none` stands for a call of `send` that has not returned.

**Integers.**  `writtenBytes` is an `int` of 32 bits, `size_t` has 64.

**Results.**  The theorem is over every list of results, with the bytes that each accepted call
took from the front of the buffer; a result that is an error ends the loop, and so does a count
that reaches the size.

**The condition** compares pieces of the buffer with one another, because a start of the buffer
that is sent again does no harm where it equals what should have been sent.
-/

namespace NewCPP.Network

/-- What `send` returns for a request. -/
inductive SendResult (requested : ℕ) where
  | accepted (count : ℕ) (positive : 0 < count) (bounded : count ≤ requested)
  | error

/-- The largest `int`. -/
def intMax : ℕ := 2 ^ 31 - 1

/-- The conversion to `int`. -/
def toInt (n : ℤ) : ℤ :=
  n.bmod (2 ^ 32)

/-- The conversion to `size_t`. -/
def toSize (n : ℤ) : ℕ :=
  (n % 2 ^ 64).toNat

/-- The descriptor of a socket without a connection. -/
def invalidSocket : ℤ := -1

/-- The loop of `writeData`: its value, and the bytes that the kernel has accepted. -/
def sendLoop (buffer : List UInt8) (writtenBytes : ℤ) :
    List (SendResult buffer.length) → Option (ℤ × List UInt8)
  | [] => none
  | .error :: _ => some (-1, [])
  | .accepted writtenChunk _ _ :: results =>
      let writtenBytes := toInt (writtenBytes + writtenChunk)
      let sent := buffer.take writtenChunk
      if toSize writtenBytes < buffer.length then
        (sendLoop buffer writtenBytes results).map fun rest => (rest.1, sent ++ rest.2)
      else some (writtenBytes, sent)

/-- `writeData`: what it returns and what was sent; nothing if the results run out. -/
def writeData (descriptor : ℤ) (buffer : List UInt8)
    (results : List (SendResult buffer.length)) : Option (ℤ × List UInt8) :=
  if descriptor = invalidSocket then some (-1, []) else sendLoop buffer 0 results

/-! ## Integers -/

theorem toInt_natCast {n : ℕ} (h : n ≤ intMax) : toInt n = n := by
  rw [intMax] at h
  rw [toInt, Int.bmod]
  split <;> omega

theorem toInt_le (n : ℤ) : toInt n ≤ intMax := by
  rw [toInt, Int.bmod, intMax]
  split <;> omega

theorem toSize_natCast {n : ℕ} (h : n ≤ intMax) : toSize n = n := by
  rw [intMax] at h
  rw [toSize]
  omega

/-- One overflow makes the sum negative. -/
theorem toInt_neg {n : ℕ} (h : intMax < n) (hle : n ≤ 2 * intMax) : toInt n < 0 := by
  rw [intMax] at h hle
  rw [toInt, Int.bmod]
  split <;> omega

/-- The loop ends there: as a size a negative sum is larger than any such length. -/
theorem le_toSize_neg {n : ℤ} (h : n < 0) (hle : -2 ^ 31 ≤ n) : intMax ≤ toSize n := by
  rw [toSize, intMax]
  omega

theorem neg_le_toInt (n : ℤ) : -2 ^ 31 ≤ toInt n := by
  rw [toInt, Int.bmod]
  split <;> omega

/-! ## The counts of a run -/

/-- The counts that `send` returns before its first error. -/
def acceptedCounts {requested : ℕ} : List (SendResult requested) → List ℕ
  | .accepted count _ _ :: results => count :: acceptedCounts results
  | _ => []

/-- With these counts the loop, which has counted `sent` bytes so far, reaches the length
in the last round and not before, and the sum is an `int`. -/
structure Completes (length sent : ℕ) (counts : List ℕ) : Prop where
  before : sent + counts.dropLast.sum < length
  reached : length ≤ sent + counts.sum
  representable : sent + counts.sum ≤ intMax

/-- A value that is not negative is at least the length, and an `int`. -/
theorem le_of_sendLoop {buffer : List UInt8} {results : List (SendResult buffer.length)}
    {writtenBytes value : ℤ} {bytes : List UInt8}
    (h : sendLoop buffer writtenBytes results = some (value, bytes)) (hvalue : 0 ≤ value) :
    (buffer.length : ℤ) ≤ value ∧ value ≤ intMax := by
  induction results generalizing writtenBytes bytes with
  | nil => cases h
  | cons result results ih =>
      cases result with
      | error =>
          cases h
          exact absurd hvalue (by decide)
      | accepted count positive bounded =>
          simp only [sendLoop] at h
          split at h
          · obtain ⟨rest, hrest, heq⟩ := Option.map_eq_some_iff.1 h
            cases heq
            exact ih hrest
          · rename_i hstop
            cases h
            have hle := toInt_le (writtenBytes + count)
            obtain ⟨n, hn⟩ := Int.eq_ofNat_of_zero_le hvalue
            rw [hn] at hstop hle ⊢
            rw [toSize_natCast (Int.ofNat_le.1 hle), Nat.not_lt] at hstop
            exact ⟨Int.ofNat_le.2 hstop, hle⟩

/-- Such a value comes from a count, which is not larger than the buffer. -/
theorem pos_of_sendLoop {buffer : List UInt8} {results : List (SendResult buffer.length)}
    {writtenBytes value : ℤ} {bytes : List UInt8}
    (h : sendLoop buffer writtenBytes results = some (value, bytes)) (hvalue : 0 ≤ value) :
    0 < buffer.length := by
  cases results with
  | nil => cases h
  | cons result results =>
      cases result with
      | error =>
          cases h
          exact absurd hvalue (by decide)
      | accepted count positive bounded => exact positive.trans_le bounded

/-- A round that does not reach the length. -/
theorem sendLoop_continue {buffer : List UInt8} {sent count : ℕ} {positive : 0 < count}
    {bounded : count ≤ buffer.length} (hlength : buffer.length ≤ intMax)
    (h : sent + count < buffer.length) (results : List (SendResult buffer.length)) :
    sendLoop buffer sent (.accepted count positive bounded :: results) =
      (sendLoop buffer ↑(sent + count) results).map fun rest =>
        (rest.1, buffer.take count ++ rest.2) := by
  have hle : sent + count ≤ intMax := (Nat.le_of_lt h).trans hlength
  simp only [sendLoop]
  rw [← Int.natCast_add, toInt_natCast hle, toSize_natCast hle, if_pos h]

/-- The round that reaches the length, if the sum is an `int`. -/
theorem sendLoop_stop {buffer : List UInt8} {sent count : ℕ} {positive : 0 < count}
    {bounded : count ≤ buffer.length} (hle : sent + count ≤ intMax)
    (h : buffer.length ≤ sent + count) (results : List (SendResult buffer.length)) :
    sendLoop buffer sent (.accepted count positive bounded :: results) =
      some (↑(sent + count), buffer.take count) := by
  simp only [sendLoop]
  rw [← Int.natCast_add, toInt_natCast hle, toSize_natCast hle, if_neg (Nat.not_lt.2 h)]

/-- The round that overflows. -/
theorem sendLoop_overflow {buffer : List UInt8} {sent count : ℕ} (positive : 0 < count)
    (bounded : count ≤ buffer.length) (hlength : buffer.length ≤ intMax)
    (hsent : sent < buffer.length) (h : intMax < sent + count)
    (results : List (SendResult buffer.length)) :
    ∃ value < 0, sendLoop buffer sent (.accepted count positive bounded :: results) =
      some (value, buffer.take count) := by
  have hneg : toInt ↑(sent + count) < 0 := toInt_neg h (by omega)
  have hsize := hlength.trans (le_toSize_neg hneg (neg_le_toInt _))
  refine ⟨_, hneg, ?_⟩
  simp only [sendLoop]
  rw [← Int.natCast_add, if_neg (Nat.not_lt.2 hsize)]

/-- Every round counts a byte at least, so that the loop ends. -/
theorem sendLoop_isSome {buffer : List UInt8} {results : List (SendResult buffer.length)}
    {sent : ℕ} (hlength : buffer.length ≤ intMax) (hsent : sent < buffer.length)
    (h : buffer.length ≤ sent + results.length) : (sendLoop buffer sent results).isSome := by
  induction results generalizing sent with
  | nil => exact absurd (hsent.trans_le h) (Nat.lt_irrefl _)
  | cons result results ih =>
      cases result with
      | error => rfl
      | accepted count positive bounded =>
          by_cases hcontinue : sent + count < buffer.length
          · rw [sendLoop_continue hlength hcontinue, Option.isSome_map]
            refine ih hcontinue ?_
            rw [List.length_cons] at h
            omega
          · have hreached := Nat.not_lt.1 hcontinue
            by_cases hrepresentable : sent + count ≤ intMax
            · rw [sendLoop_stop hrepresentable hreached]
              rfl
            · obtain ⟨value, -, heq⟩ := sendLoop_overflow positive bounded hlength hsent
                (Nat.not_le.1 hrepresentable) results
              rw [heq]
              rfl

/-- `writeData` returns if each call of `send` does. -/
theorem writeData_returns (descriptor : ℤ) {buffer : List UInt8}
    {results : List (SendResult buffer.length)} (hlength : buffer.length ≤ intMax)
    (hpos : 0 < buffer.length) (h : buffer.length ≤ results.length) :
    (writeData descriptor buffer results).isSome := by
  rw [writeData]
  split
  · rfl
  · exact sendLoop_isSome hlength hpos (by rwa [Nat.zero_add])

/-- With counts that complete the buffer the loop returns their sum, and the kernel has
accepted a start of the buffer for each. -/
theorem sendLoop_of_completes {buffer : List UInt8}
    {results : List (SendResult buffer.length)} {sent : ℕ} {counts : List ℕ}
    (hfront : counts <+: acceptedCounts results)
    (h : Completes buffer.length sent counts) :
    sendLoop buffer sent results =
      some (↑(sent + counts.sum), counts.flatMap fun count => buffer.take count) := by
  have hlength := h.reached.trans h.representable
  induction counts generalizing results sent with
  | nil => exact absurd (h.before.trans_le h.reached) (Nat.lt_irrefl _)
  | cons count counts ih =>
      match results with
      | [] => simp [acceptedCounts] at hfront
      | .error :: results => simp [acceptedCounts] at hfront
      | .accepted first positive bounded :: results =>
          rw [acceptedCounts, List.cons_prefix_cons] at hfront
          obtain ⟨rfl, hfront⟩ := hfront
          obtain ⟨hbefore, hreached, hrepresentable⟩ := h
          rw [List.sum_cons, ← Nat.add_assoc] at hreached hrepresentable ⊢
          cases counts with
          | nil =>
              rw [List.sum_nil, Nat.add_zero] at hreached hrepresentable ⊢
              rw [sendLoop_stop hrepresentable hreached]
              simp
          | cons second counts =>
              rw [List.dropLast_cons_cons, List.sum_cons, ← Nat.add_assoc] at hbefore
              rw [sendLoop_continue hlength ((Nat.le_add_right _ _).trans_lt hbefore),
                ih hfront ⟨hbefore, hreached, hrepresentable⟩]
              rfl

/-- Nothing else makes the loop return a value that is not negative. -/
theorem completes_of_sendLoop {buffer : List UInt8}
    {results : List (SendResult buffer.length)} {sent : ℕ} {value : ℤ} {bytes : List UInt8}
    (hlength : buffer.length ≤ intMax) (hsent : sent < buffer.length)
    (h : sendLoop buffer sent results = some (value, bytes)) (hvalue : 0 ≤ value) :
    ∃ counts, counts <+: acceptedCounts results ∧ Completes buffer.length sent counts := by
  induction results generalizing sent bytes with
  | nil => cases h
  | cons result results ih =>
      cases result with
      | error =>
          cases h
          exact absurd hvalue (by decide)
      | accepted count positive bounded =>
          by_cases hcontinue : sent + count < buffer.length
          · rw [sendLoop_continue hlength hcontinue] at h
            obtain ⟨rest, hrest, heq⟩ := Option.map_eq_some_iff.1 h
            cases heq
            obtain ⟨counts, hfront, hbefore, hreached, hrepresentable⟩ := ih hcontinue hrest
            refine ⟨count :: counts, ?_, ?_⟩
            · rw [acceptedCounts, List.cons_prefix_cons]
              exact ⟨rfl, hfront⟩
            · cases counts with
              | nil => exact absurd (hbefore.trans_le hreached) (Nat.lt_irrefl _)
              | cons second counts =>
                  refine ⟨?_, ?_, ?_⟩
                  · rwa [List.dropLast_cons_cons, List.sum_cons, ← Nat.add_assoc]
                  · rwa [List.sum_cons, ← Nat.add_assoc]
                  · rwa [List.sum_cons, ← Nat.add_assoc]
          · have hreached := Nat.not_lt.1 hcontinue
            by_cases hrepresentable : sent + count ≤ intMax
            · refine ⟨[count], ?_, ⟨by simpa using hsent, by simpa using hreached,
                by simpa using hrepresentable⟩⟩
              rw [acceptedCounts, List.cons_prefix_cons]
              exact ⟨rfl, List.nil_prefix⟩
            · obtain ⟨negative, hneg, heq⟩ := sendLoop_overflow positive bounded hlength hsent
                (Nat.not_le.1 hrepresentable) results
              rw [heq] at h
              cases h
              exact absurd hvalue (Int.not_le.2 hneg)

/-! ## What is delivered -/

/-- Two pieces of one length, and what follows them. -/
theorem take_append_eq_drop_iff {buffer rest : List UInt8} {sent count : ℕ}
    (h : sent + count ≤ buffer.length) :
    buffer.take count ++ rest = buffer.drop sent ↔
      buffer.take count = (buffer.drop sent).take count ∧ rest = buffer.drop (sent + count) := by
  rw [← List.drop_drop]
  constructor
  · intro heq
    rw [← List.take_append_drop count (buffer.drop sent)] at heq
    refine List.append_inj heq ?_
    rw [List.length_take, List.length_take, List.length_drop]
    omega
  · rintro ⟨hfirst, hrest⟩
    rw [hfirst, hrest, List.take_append_drop]

/-- The starts of a buffer that are sent again make up what is due if each of them does. -/
theorem flatMap_take_eq_iff {buffer : List UInt8} {sent : ℕ} {counts : List ℕ}
    (hsum : sent + counts.sum = buffer.length) :
    (counts.flatMap fun count => buffer.take count) = buffer.drop sent ↔
      ∀ front count, front ++ [count] <+: counts →
        buffer.take count = (buffer.drop (sent + front.sum)).take count := by
  induction counts generalizing sent with
  | nil =>
      rw [List.sum_nil, Nat.add_zero] at hsum
      simp [hsum]
  | cons first counts ih =>
      rw [List.sum_cons, ← Nat.add_assoc] at hsum
      rw [List.flatMap_cons, take_append_eq_drop_iff (by omega), ih hsum]
      constructor
      · rintro ⟨hfirst, hrest⟩ front count hfront
        cases front with
        | nil =>
            obtain rfl : count = first := by simpa using hfront
            simpa using hfirst
        | cons head front =>
            rw [List.cons_append, List.cons_prefix_cons] at hfront
            obtain ⟨rfl, hfront⟩ := hfront
            rw [List.sum_cons, ← Nat.add_assoc]
            exact hrest front count hfront
      · intro hall
        constructor
        · simpa using hall [] first (by simp)
        · intro front count hfront
          have hnext := hall (first :: front) count (by simpa using hfront)
          rwa [List.sum_cons, ← Nat.add_assoc] at hnext

/-- Where the counts before an error reach the length, their sum is the length, and each
start of the buffer that is sent equals the bytes that are due at its place. -/
def ResendsDue (buffer : List UInt8) (results : List (SendResult buffer.length)) : Prop :=
  ∀ counts, counts <+: acceptedCounts results → Completes buffer.length 0 counts →
    counts.sum = buffer.length ∧
      ∀ front count, front ++ [count] <+: counts →
        buffer.take count = (buffer.drop front.sum).take count

/-- **What `writeData` delivers.**  That a result which is not negative is the length, and
that the kernel has accepted the buffer, is true where the descriptor is invalid, where
the loop does not complete the buffer without an error or an overflow, or where what is
sent again is due. -/
theorem writeData_delivers_iff (descriptor : ℤ) (buffer : List UInt8)
    (results : List (SendResult buffer.length)) :
    (∀ value bytes, writeData descriptor buffer results = some (value, bytes) → 0 ≤ value →
        value = buffer.length ∧ bytes = buffer) ↔
      descriptor = invalidSocket ∨ ResendsDue buffer results := by
  by_cases hdescriptor : descriptor = invalidSocket
  · simp only [writeData, hdescriptor, if_true, true_or, iff_true]
    intro value bytes h hvalue
    cases h
    exact absurd hvalue (by decide)
  · simp only [writeData, hdescriptor, if_false, false_or]
    -- the loop starts with nothing sent
    have hdelivers {counts : List ℕ} (hfront : counts <+: acceptedCounts results)
        (h : Completes buffer.length 0 counts) : sendLoop buffer 0 results =
          some (↑counts.sum, counts.flatMap fun count => buffer.take count) := by
      simpa using sendLoop_of_completes hfront h
    have hdue {counts : List ℕ} (hsum : counts.sum = buffer.length) :
        (counts.flatMap fun count => buffer.take count) = buffer ↔
          ∀ front count, front ++ [count] <+: counts →
            buffer.take count = (buffer.drop front.sum).take count := by
      have hzero : 0 + counts.sum = buffer.length := by rw [Nat.zero_add, hsum]
      simpa using flatMap_take_eq_iff hzero
    constructor
    · intro hall counts hfront hcounts
      obtain ⟨hvalue, hbytes⟩ := hall _ _ (hdelivers hfront hcounts) (Int.natCast_nonneg _)
      have hsum := Int.ofNat_inj.1 hvalue
      exact ⟨hsum, (hdue hsum).1 hbytes⟩
    · intro hresends value bytes h hvalue
      obtain ⟨hle, hmax⟩ := le_of_sendLoop h hvalue
      have hlength := Int.ofNat_le.1 (Int.le_trans hle hmax)
      obtain ⟨counts, hfront, hcounts⟩ :=
        completes_of_sendLoop hlength (pos_of_sendLoop h hvalue) h hvalue
      obtain ⟨hsum, hall⟩ := hresends counts hfront hcounts
      rw [hdelivers hfront hcounts] at h
      cases h
      exact ⟨congrArg Nat.cast hsum, (hdue hsum).2 hall⟩

/-- The kernel takes two of the four bytes at a time: it gets the first two twice. -/
theorem not_writeData_delivers : ¬∀ (descriptor : ℤ) (buffer : List UInt8)
    (results : List (SendResult buffer.length)) value bytes,
      writeData descriptor buffer results = some (value, bytes) → 0 ≤ value →
        value = buffer.length ∧ bytes = buffer := by
  intro h
  have hbytes := (h 3 [1, 2, 3, 4] [.accepted 2 (by decide) (by decide),
    .accepted 2 (by decide) (by decide)] 4 [1, 2, 1, 2] rfl (by decide)).2
  exact absurd hbytes (by decide)

end NewCPP.Network
