import NewCPP.Tools.MD5

/-!
# The digest of a message in pieces

A digest is that of the whole message, however it was cut into pieces.

* `padded`, `messageDigest` — the message behind its padding, and the digest of its blocks
* `Represents` — the object has taken a message; kept by `update`
* `hexdigest_run` — the text of an object is that of the digest of the bytes it was given
* `run_isSome_iff`, `update_none` — exactly the calls near 2^32 bytes go on behind the end of
  their input

## Design notes

**The 64-bit counter.**  It counts bits, so that a message of 2^61 bytes starts again at zero;
`padded` has the same 64 bits.

**The layers.**  `Library.BlockStream` has the law that a stream may be cut anywhere; here an
object represents the message that it has absorbed, with the rest in its buffer and the length
in its two counters.  `Represents.update` is the step and `run_open` the run.

**Undefined calls.**  `run` has no value if one of its calls has none, and `InsideRun` says of
which runs all calls stay inside their input.
-/

namespace NewCPP

namespace MD5

open Library Library.BlockStream

/-! ## The digest of a message -/

/-- `0x80`, zeros up to the last 8 bytes of a block, and the number of bits. -/
def padded (message : List UInt8) : List UInt8 :=
  message ++ (0x80 :: List.replicate ((119 - message.length % 64) % 64) 0) ++
    LittleEndian.bytes 8 (8 * message.length)

/-- What the standard asks of a digest: the padded message, absorbed block by block. -/
def messageDigest (message : List UInt8) : List UInt8 :=
  let s := (absorb 64 compress State.init (padded message)).1
  encode [s.a, s.b, s.c, s.d]

/-! ## The words of the counter -/

theorem encodeWord_eq (word : UInt32) : encodeWord word = LittleEndian.bytes 4 word.toNat := by
  simp only [encodeWord, LittleEndian.bytes, List.cons.injEq, and_true, ← UInt8.toNat_inj]
  refine ⟨?_, ?_, ?_, ?_⟩ <;>
    simp [Nat.shiftRight_eq_div_pow, Nat.and_two_pow_sub_one_eq_mod _ 8, Nat.div_div_eq_div_mul]

/-- The counter as `encode` writes it. -/
theorem encode_counter {low high : UInt32} {bits : ℕ}
    (h : high.toNat * 2 ^ 32 + low.toNat = bits % 2 ^ 64) :
    encode [low, high] = LittleEndian.bytes 8 bits := by
  have hlow := low.toNat_lt
  have hwords : LittleEndian.bytes 8 (bits % 2 ^ 64) = LittleEndian.bytes 8 bits :=
    LittleEndian.bytes_mod 8 bits
  have hfour : LittleEndian.bytes 4 (bits % 2 ^ 64 % 256 ^ 4) =
      LittleEndian.bytes 4 (bits % 2 ^ 64) := LittleEndian.bytes_mod 4 _
  have hmod : bits % 2 ^ 64 % 256 ^ 4 = low.toNat := by omega
  have hdiv : bits % 2 ^ 64 / 256 ^ 4 = high.toNat := by omega
  rw [← hwords, show (8 : ℕ) = 4 + 4 from rfl, LittleEndian.bytes_add, ← hfour, hmod, hdiv]
  simp only [encode, List.flatMap_cons, List.flatMap_nil, encodeWord_eq, List.append_nil]

/-! ## The loop over the blocks -/

/-- The loop ends behind the last whole block, unless the comparison wraps there. -/
theorem chunks_eq {input : List UInt8} (hsize : input.length < 2 ^ 32) (fuel : ℕ) (i : UInt32)
    (state : State) (hi : i.toNat ≤ input.length) (hfuel : input.length < i.toNat + 64 * fuel) :
    chunks input fuel i state =
      if input.length - (input.length - i.toNat) % 64 + 64 < 2 ^ 32 then
        some (UInt32.ofNat (input.length - (input.length - i.toNat) % 64),
          (absorb 64 compress state (input.drop i.toNat)).1)
      else none := by
  induction fuel generalizing i state with
  | zero => omega
  | succ fuel ih =>
      have hnext : (i + blocksize).toNat = (i.toNat + 64) % 2 ^ 32 := UInt32.toNat_add i blocksize
      have hle : i + blocksize ≤ UInt32.ofNat input.length ↔
          (i.toNat + 64) % 2 ^ 32 ≤ input.length := by
        rw [UInt32.le_iff_toNat_le, hnext, UInt32.toNat_ofNat_of_lt' hsize]
      rw [chunks]
      by_cases hblock : i.toNat + 64 ≤ input.length
      · have hwrap : (i.toNat + 64) % 2 ^ 32 = i.toNat + 64 := Nat.mod_eq_of_lt (by omega)
        have hwindow : (Buffer.window input i.toNat 64).length = 64 := Buffer.length_window hblock
        have hdrop : input.drop i.toNat =
            Buffer.window input i.toNat 64 ++ input.drop (i.toNat + 64) := by
          rw [Buffer.window, ← List.drop_drop, List.take_append_drop]
        have hmod : (input.length - (i.toNat + 64)) % 64 = (input.length - i.toNat) % 64 := by
          omega
        rw [hwrap] at hnext hle
        rw [if_pos (hle.2 hblock), if_pos hblock, ih _ _ (hnext ▸ hblock) (by omega), hnext, hmod,
          hdrop, absorb_block _ hwindow, transform_eq]
      · by_cases hwrap : i.toNat + 64 < 2 ^ 32
        · have hmod : (input.length - i.toNat) % 64 = input.length - i.toNat :=
            Nat.mod_eq_of_lt (by omega)
          have hend : input.length - (input.length - i.toNat) = i.toNat := by omega
          have hshort : (input.drop i.toNat).length < 64 := by
            rw [List.length_drop]
            omega
          rw [Nat.mod_eq_of_lt hwrap] at hle
          rw [if_neg (fun h => hblock (hle.1 h)), hmod, hend, if_pos hwrap,
            absorb_of_lt _ hshort, UInt32.ofNat_toNat]
        · -- the sum wraps, and the loop takes a block that is not there
          have hover : (i.toNat + 64) % 2 ^ 32 ≤ input.length := by omega
          rw [if_pos (hle.2 hover), if_neg hblock, if_neg (by omega)]

/-! ## One call of `update` -/

/-- Two words as a number of 64 bits. -/
theorem join_mod {s t : ℕ} (ht : t < 2 ^ 32) :
    s % 2 ^ 32 * 2 ^ 32 + t = (s * 2 ^ 32 + t) % 2 ^ 64 := by
  have h : (s * 2 ^ 32 + t) % (2 ^ 32 * 2 ^ 32) = _ := Nat.mod_mul ..
  rw [Nat.pow_add 2 32 32, h]
  omega

/-- The carry between the two words of the counter, when `n` bytes are added. -/
theorem carry_add (high n : ℕ) {low : ℕ} (hlow : low < 2 ^ 32) :
    ((if (low + n * 8 % 2 ^ 32) % 2 ^ 32 < n * 8 % 2 ^ 32 then (high + 1) % 2 ^ 32 else high)
        + n / 2 ^ 29) % 2 ^ 32 * 2 ^ 32 + (low + n * 8 % 2 ^ 32) % 2 ^ 32 =
      (high * 2 ^ 32 + low + n * 8) % 2 ^ 64 := by
  have hlt : n * 8 % 2 ^ 32 < 2 ^ 32 := Nat.mod_lt _ (by decide)
  rw [join_mod (Nat.mod_lt _ (by decide))]
  split
  case isTrue hcarry =>
    have hsum : (high + 1 + n / 2 ^ 29) * 2 ^ 32 + (low + n * 8 % 2 ^ 32) % 2 ^ 32 =
        high * 2 ^ 32 + low + n * 8 := by omega
    rw [← join_mod (Nat.mod_lt _ (by decide)), Nat.mod_add_mod,
      join_mod (Nat.mod_lt _ (by decide)), hsum]
  case isFalse hcarry =>
    have hsum : (high + n / 2 ^ 29) * 2 ^ 32 + (low + n * 8 % 2 ^ 32) % 2 ^ 32 =
        high * 2 ^ 32 + low + n * 8 := by omega
    rw [hsum]

/-- The object has taken `message` since its state was `start`: the state behind the blocks,
the rest in front of the buffer, and the number of bits. -/
structure Represents (start : State) (m : MD5) (message : List UInt8) : Prop where
  length_buffer : m.buffer.length = 64
  state_eq : m.state = (absorb 64 compress start message).1
  take_buffer : m.buffer.take (message.length % 64) = (absorb 64 compress start message).2
  counter : m.countHigh.toNat * 2 ^ 32 + m.countLow.toNat = 8 * message.length % 2 ^ 64

/-- The loop of a call that comes behind `before` bytes stays inside its `length` bytes. -/
def Inside (before length : ℕ) : Prop :=
  length - (before + length) % 64 + 64 < 2 ^ 32

instance (before length : ℕ) : Decidable (Inside before length) :=
  inferInstanceAs (Decidable (_ < _))

/-- A call has an outcome exactly if `inside`, one of those of `post`. -/
def Yields (inside : Prop) (post : MD5 → Prop) : Option MD5 → Prop
  | none => ¬ inside
  | some m => inside ∧ post m

theorem Yields.bind {inside inside' : Prop} {post post' : MD5 → Prop} {result : Option MD5}
    (h : Yields inside post result) {next : MD5 → Option MD5}
    (hnext : ∀ m, post m → Yields inside' post' (next m)) :
    Yields (inside ∧ inside') post' (result.bind next) := by
  cases result with
  | none => exact fun hboth => h hboth.1
  | some m =>
      rw [Option.bind_some]
      have hafter := hnext m h.2
      cases hresult : next m with
      | none =>
          rw [hresult] at hafter
          exact fun hboth => hafter hboth.2
      | some m' =>
          rw [hresult] at hafter
          exact ⟨⟨h.1, hafter.1⟩, hafter.2⟩

theorem Yields.exists {inside : Prop} {post : MD5 → Prop} {result : Option MD5}
    (h : Yields inside post result) (hinside : inside) : ∃ m, result = some m ∧ post m := by
  cases result with
  | none => exact absurd hinside h
  | some m => exact ⟨m, rfl, h.2⟩

/-- No bytes since `start`. -/
theorem represents_nil {start : State} {m : MD5} (hbuffer : m.buffer.length = 64)
    (hstate : m.state = start) (hlow : m.countLow = 0) (hhigh : m.countHigh = 0) :
    Represents start m [] := by
  have hempty : absorb 64 compress start [] = (start, []) :=
    absorb_of_lt start (Nat.succ_pos 63)
  refine ⟨hbuffer, ?_, ?_, by rw [hlow, hhigh]; simp⟩
  · rw [hempty, hstate]
  · rw [hempty]
    rfl

/-- What the last copy of a call puts into the buffer. -/
theorem rest_window (start : State) {message input : List UInt8}
    (h : (message.length + input.length) % 64 ≤ input.length) :
    Buffer.window input (input.length - (message.length + input.length) % 64)
        ((message.length + input.length) % 64) =
      (absorb 64 compress start (message ++ input)).2 := by
  have hrest : ((message ++ input).length - (message ++ input).length % 64) =
      message.length + (input.length - (message.length + input.length) % 64) := by
    rw [List.length_append]
    omega
  rw [rest_eq, hrest, List.drop_length_add_append, Buffer.window, List.take_of_length_le]
  rw [List.length_drop]
  omega

section Update

variable {start : State} {m : MD5} {message input : List UInt8} (hm : Represents start m message)
include hm

theorem Represents.index : (m.countLow / 8 % blocksize).toNat = message.length % 64 := by
  have hlow := m.countLow.toNat_lt
  have hcounter := hm.counter
  have h : (m.countLow / 8 % blocksize).toNat = m.countLow.toNat / 8 % 64 := by
    rw [UInt32.toNat_mod, UInt32.toNat_div]
    rfl
  omega

theorem Represents.firstpart :
    (64 - m.countLow / 8 % blocksize).toNat = 64 - message.length % 64 := by
  have hle : m.countLow / 8 % blocksize ≤ 64 := by
    rw [UInt32.le_iff_toNat_le, hm.index]
    exact (Nat.mod_lt _ (by decide)).le
  rw [UInt32.toNat_sub_of_le _ _ hle, hm.index]
  rfl

theorem Represents.count_update (hsize : input.length < 2 ^ 32) :
    let length := UInt32.ofNat input.length
    ((if m.countLow + (length <<< 3) < length <<< 3 then m.countHigh + 1 else m.countHigh)
          + (length >>> 29)).toNat * 2 ^ 32 + (m.countLow + (length <<< 3)).toNat =
      8 * (message ++ input).length % 2 ^ 64 := by
  intro length
  have hlength : length.toNat = input.length := UInt32.toNat_ofNat_of_lt' hsize
  have hshl : (length <<< 3).toNat = input.length * 8 % 2 ^ 32 := by
    rw [UInt32.toNat_shiftLeft, hlength, Nat.shiftLeft_eq]
    rfl
  have hshr : (length >>> 29).toNat = input.length / 2 ^ 29 := by
    rw [UInt32.toNat_shiftRight, hlength, Nat.shiftRight_eq_div_pow]
    rfl
  have hcarry := carry_add m.countHigh.toNat input.length m.countLow.toNat_lt
  rw [hm.counter, Nat.mod_add_mod, Nat.mul_comm input.length, ← Nat.mul_add,
    ← List.length_append] at hcarry
  rw [← hcarry, UInt32.toNat_add, UInt32.toNat_add, hshl, hshr, Nat.mul_comm input.length]
  simp only [UInt32.lt_iff_toNat_lt, UInt32.toNat_add, hshl, apply_ite UInt32.toNat,
    UInt32.toNat_one, Nat.mul_comm 8]

/-- The rest in front of the buffer, and the first bytes of the input behind it. -/
theorem Represents.blit_buffer (count : ℕ)
    (hcount : message.length % 64 + count ≤ 64) (hlength : count ≤ input.length) :
    (Buffer.blit m.buffer (message.length % 64) (input.take count)).length = 64 ∧
      (Buffer.blit m.buffer (message.length % 64) (input.take count)).take
          (message.length % 64 + count) =
        (absorb 64 compress start message).2 ++ input.take count := by
  have htake : (input.take count).length = count := by
    rw [List.length_take, Nat.min_eq_left hlength]
  have hfits : message.length % 64 + (input.take count).length ≤ m.buffer.length := by
    rw [htake, hm.length_buffer]
    exact hcount
  refine ⟨(Buffer.length_blit hfits).trans hm.length_buffer, ?_⟩
  have h := Buffer.take_blit hfits
  rwa [htake, hm.take_buffer] at h

/-- An input that leaves the block incomplete. -/
theorem Represents.absorb_short (h : message.length % 64 + input.length < 64) :
    absorb 64 compress start (message ++ input) =
      (m.state, (absorb 64 compress start message).2 ++ input) := by
  rw [absorb_append, ← hm.state_eq, absorb_of_lt]
  rwa [List.length_append, length_rest]

/-- An input that completes the block `block`. -/
theorem Represents.absorb_long {block : List UInt8} (hblock : block.length = 64)
    (h : block = (absorb 64 compress start message).2 ++
      input.take (64 - message.length % 64)) :
    absorb 64 compress start (message ++ input) =
      absorb 64 compress (transform m.state block) (input.drop (64 - message.length % 64)) := by
  rw [transform_eq, ← absorb_block _ hblock, h, List.append_assoc, List.take_append_drop,
    absorb_append, hm.state_eq]

/-- **One call.**  The object takes the input behind its message, or goes on behind the end of
the input. -/
theorem Represents.update (hsize : input.length < 2 ^ 32) :
    Yields (Inside message.length input.length)
      (fun m' => Represents start m' (message ++ input) ∧ m'.finalized = m.finalized ∧
        m'.digest = m.digest)
      (m.update input) := by
  have hcount := hm.count_update hsize
  have hrest : message.length % 64 < 64 := Nat.mod_lt _ (by decide)
  have hlength : (UInt32.ofNat input.length).toNat = input.length :=
    UInt32.toNat_ofNat_of_lt' hsize
  have hcond : 64 - m.countLow / 8 % blocksize ≤ UInt32.ofNat input.length ↔
      64 - message.length % 64 ≤ input.length := by
    rw [UInt32.le_iff_toNat_le, hm.firstpart, hlength]
  rw [MD5.update]
  dsimp only
  by_cases hblock : 64 - message.length % 64 ≤ input.length
  · -- the block is filled up, and the loop takes those behind it
    obtain ⟨hbuffer, htake⟩ :=
      hm.blit_buffer (64 - message.length % 64) (by omega) hblock
    rw [Nat.add_sub_cancel' hrest.le, List.take_of_length_le hbuffer.le] at htake
    have hstate := hm.absorb_long hbuffer htake
    have hmod : (input.length - (64 - message.length % 64)) % 64 =
        (message.length + input.length) % 64 := by omega
    have hchunks := chunks_eq hsize (input.length + 1) (64 - m.countLow / 8 % blocksize)
      (transform m.state (Buffer.blit m.buffer (message.length % 64)
        (input.take (64 - message.length % 64))))
      (by rw [hm.firstpart]; exact hblock) (by omega)
    rw [hm.firstpart, hmod, ← hstate] at hchunks
    rw [if_pos (hcond.2 hblock), hm.index, hm.firstpart]
    by_cases hinside : Inside message.length input.length
    · have hlast : (UInt32.ofNat (input.length - (message.length + input.length) % 64)).toNat =
          input.length - (message.length + input.length) % 64 :=
        UInt32.toNat_ofNat_of_lt' (Nat.lt_of_le_of_lt (Nat.sub_le _ _) hsize)
      have hlast_le : UInt32.ofNat (input.length - (message.length + input.length) % 64) ≤
          UInt32.ofNat input.length := by
        rw [UInt32.le_iff_toNat_le, hlast, hlength]
        exact Nat.sub_le _ _
      have hlen : (UInt32.ofNat input.length -
          UInt32.ofNat (input.length - (message.length + input.length) % 64)).toNat =
          (message.length + input.length) % 64 := by
        rw [UInt32.toNat_sub_of_le _ _ hlast_le, hlength, hlast]
        omega
      have hwritten : (absorb 64 compress start (message ++ input)).2.length =
          (message.length + input.length) % 64 := by
        rw [length_rest, List.length_append]
      rw [hchunks.trans (if_pos hinside), Option.map_some, hlast, hlen,
        rest_window start (by omega)]
      refine ⟨hinside, ⟨?_, rfl, ?_, hcount⟩, rfl, rfl⟩
      · rw [Buffer.length_blit (by omega), hbuffer]
      · have hfits : 0 + (absorb 64 compress start (message ++ input)).2.length ≤
            (Buffer.blit m.buffer (message.length % 64)
              (input.take (64 - message.length % 64))).length := by omega
        have h := Buffer.take_blit hfits
        rwa [Nat.zero_add, hwritten, List.take_zero, List.nil_append, ← List.length_append] at h
    · rw [hchunks.trans (if_neg hinside)]
      exact hinside
  · -- all of the input goes behind the rest
    have hshort : message.length % 64 + input.length < 64 := by omega
    have hstate := hm.absorb_short hshort
    have hmod : (message ++ input).length % 64 = message.length % 64 + input.length := by
      rw [List.length_append]
      omega
    obtain ⟨hbuffer, htake⟩ := hm.blit_buffer input.length hshort.le le_rfl
    rw [List.take_of_length_le le_rfl] at hbuffer htake
    rw [if_neg fun h => hblock (hcond.1 h), hm.index, hlength, Buffer.window, List.drop_zero,
      List.take_of_length_le le_rfl]
    refine ⟨by rw [Inside]; omega, ⟨hbuffer, ?_, ?_, hcount⟩, rfl, rfl⟩
    · rw [hstate]
    · rw [hstate, hmod]
      exact htake

end Update

/-! ## The end of a message -/

/-- Whatever `finalize` feeds is short. -/
theorem inside_of_le {before length : ℕ} (h : length ≤ 64) : Inside before length := by
  rw [Inside]
  omega

/-- The padding that `finalize` takes off its table. -/
theorem take_padding {start : State} {m : MD5} {message : List UInt8}
    (hm : Represents start m message) :
    (padding.take (if m.countLow / 8 % 64 < 56 then 56 - m.countLow / 8 % 64
        else 120 - m.countLow / 8 % 64).toNat) =
      0x80 :: List.replicate ((119 - message.length % 64) % 64) 0 := by
  have hindex : (m.countLow / 8 % 64).toNat = message.length % 64 := hm.index
  have hlt : message.length % 64 < 64 := Nat.mod_lt _ (by decide)
  have hlen : (if m.countLow / 8 % 64 < 56 then 56 - m.countLow / 8 % 64
      else 120 - m.countLow / 8 % 64).toNat = (119 - message.length % 64) % 64 + 1 := by
    generalize m.countLow / 8 % 64 = index at hindex
    split
    case isTrue h =>
      have hnat : index.toNat < 56 := UInt32.lt_iff_toNat_lt.1 h
      rw [UInt32.toNat_sub_of_le _ _ (UInt32.le_of_lt h), hindex]
      change 56 - message.length % 64 = _
      omega
    case isFalse h =>
      have hnat : ¬ index.toNat < 56 := fun hlt => h (UInt32.lt_iff_toNat_lt.2 hlt)
      have hle : index ≤ 120 := by
        rw [UInt32.le_iff_toNat_le, hindex]
        exact hlt.le.trans (by decide)
      rw [UInt32.toNat_sub_of_le _ _ hle, hindex]
      change 120 - message.length % 64 = _
      omega
  rw [hlen, padding, List.take_succ_cons, List.take_replicate]
  congr 2
  omega

/-- **`finalize`** stores the digest of the message, and the object begins a new one. -/
theorem Represents.finalize {m : MD5} {message : List UInt8}
    (hm : Represents State.init m message) (h : m.finalized = false) :
    ∃ m', m.finalize = some m' ∧ m'.finalized = true ∧ m'.digest = messageDigest message ∧
      Represents m'.state m' [] := by
  have hbits : encode [m.countLow, m.countHigh] = LittleEndian.bytes 8 (8 * message.length) :=
    encode_counter hm.counter
  have hpad : (0x80 :: List.replicate ((119 - message.length % 64) % 64) (0 : UInt8)).length ≤
      64 := by
    rw [List.length_cons, List.length_replicate]
    omega
  obtain ⟨m₁, hm₁, hrep₁, -, -⟩ :=
    (hm.update (Nat.lt_of_le_of_lt hpad (by decide))).exists (inside_of_le hpad)
  have height : (LittleEndian.bytes 8 (8 * message.length)).length ≤ 64 := by
    rw [LittleEndian.length_bytes]
    decide
  obtain ⟨m₂, hm₂, hrep₂, -, -⟩ :=
    (hrep₁.update (Nat.lt_of_le_of_lt height (by decide))).exists (inside_of_le height)
  have hstate : m₂.state = (absorb 64 compress State.init (padded message)).1 := hrep₂.state_eq
  rw [MD5.finalize, if_neg (by rw [h]; exact Bool.false_ne_true)]
  dsimp only
  rw [take_padding hm, hm₁, Option.bind_some, hbits, hm₂, Option.map_some]
  refine ⟨_, rfl, rfl, ?_, represents_nil List.length_replicate rfl rfl rfl⟩
  rw [messageDigest, hstate]

/-! ## Runs -/

/-- What a user does with an object. -/
inductive Call where
  | update (input : List UInt8)
  | finalize
  deriving DecidableEq, Repr

/-- What a call does, if it returns. -/
def step (m : MD5) : Call → Option MD5
  | .update input => m.update input
  | .finalize => m.finalize

/-- What a list of calls does, if all of them return. -/
def run (m : MD5) : List Call → Option MD5
  | [] => some m
  | call :: calls => (m.step call).bind fun m => m.run calls

/-- The bytes that come before the first `finalize`. -/
def message : List Call → List UInt8
  | [] => []
  | .update input :: calls => input ++ message calls
  | .finalize :: _ => []

/-- The calls stay inside their inputs, behind `before` bytes. -/
def InsideRun : (finalized : Bool) → (before : ℕ) → List Call → Prop
  | _, _, [] => True
  | finalized, before, .update input :: calls =>
      Inside before input.length ∧ InsideRun finalized (before + input.length) calls
  | false, _, .finalize :: calls => InsideRun true 0 calls
  | true, before, .finalize :: calls => InsideRun true before calls

/-- What callers promise: a length is an `unsigned int`. -/
def Sized : Call → Prop
  | .update input => input.length < 2 ^ 32
  | .finalize => True

instance : DecidablePred Sized
  | .update input => inferInstanceAs (Decidable (input.length < 2 ^ 32))
  | .finalize => inferInstanceAs (Decidable True)

/-- Behind the first `finalize` the digest stays. -/
theorem run_finalized {m : MD5} {start : State} {taken : List UInt8}
    (hm : Represents start m taken) (h : m.finalized = true) {calls : List Call}
    (hsized : ∀ call ∈ calls, Sized call) :
    Yields (InsideRun true taken.length calls)
      (fun m' => m'.finalized = true ∧ m'.digest = m.digest) (m.run calls) := by
  induction calls generalizing m taken with
  | nil => exact ⟨trivial, h, rfl⟩
  | cons call calls ih =>
      rw [List.forall_mem_cons] at hsized
      cases call with
      | update input =>
          refine (hm.update hsized.1).bind fun m' hm' => ?_
          have hrest := ih hm'.1 (hm'.2.1.trans h) hsized.2
          rwa [List.length_append, hm'.2.2] at hrest
      | finalize =>
          have hstep : m.step .finalize = some m := if_pos h
          rw [run, hstep, Option.bind_some]
          exact ih hm h hsized.2

/-- In front of it the object takes bytes. -/
theorem run_open {m : MD5} {taken : List UInt8} (hm : Represents State.init m taken)
    (h : m.finalized = false) {calls : List Call} (hsized : ∀ call ∈ calls, Sized call) :
    Yields (InsideRun false taken.length calls)
      (fun m' => m'.finalized = decide (Call.finalize ∈ calls) ∧
        (Call.finalize ∈ calls → m'.digest = messageDigest (taken ++ message calls)))
      (m.run calls) := by
  induction calls generalizing m taken with
  | nil => exact ⟨trivial, h, fun hmem => absurd hmem List.not_mem_nil⟩
  | cons call calls ih =>
      rw [List.forall_mem_cons] at hsized
      cases call with
      | update input =>
          refine (hm.update hsized.1).bind fun m' hm' => ?_
          have hrest := ih hm'.1 (hm'.2.1.trans h) hsized.2
          have hmem : Call.finalize ∈ Call.update input :: calls ↔ Call.finalize ∈ calls := by
            rw [List.mem_cons, or_iff_right Call.noConfusion]
          rw [List.length_append, List.append_assoc] at hrest
          simp only [hmem]
          exact hrest
      | finalize =>
          obtain ⟨m', hm', hfinal, hdigest, hrep⟩ := hm.finalize h
          have hrest := run_finalized hrep hfinal hsized.2
          have hstep : m.step .finalize = some m' := hm'
          rw [run, hstep, Option.bind_some, message, List.append_nil]
          rw [hdigest] at hrest
          simp only [List.mem_cons_self, decide_true, true_implies]
          exact hrest

/-! ## The text of a digest -/

/-- The 32 digits of the digest. -/
def hexText (message : List UInt8) : List Char := (messageDigest message).flatMap hexByte

/-- All of the digest is written. -/
theorem hexdigest_eq {m : MD5} {message : List UInt8} (h : m.finalized = true)
    (hdigest : m.digest = messageDigest message) : m.hexdigest = hexText message := by
  have hlength : (messageDigest message).length ≤ 16 := le_rfl
  rw [hexdigest, if_pos h, hdigest, List.take_of_length_le hlength, hexText]

theorem represents_new {buffer : List UInt8} (h : buffer.length = 64) (digest : List UInt8) :
    Represents State.init (new buffer digest) [] :=
  represents_nil h rfl rfl rfl

section Object

variable {buffer : List UInt8} (hbuffer : buffer.length = 64) (digest : List UInt8)
include hbuffer

/-- **The text of an object depends on the bytes in front of the first `finalize` only**, not
on the pieces they came in nor on what is done later; before that it is empty. -/
theorem hexdigest_run {calls : List Call} (hsized : ∀ call ∈ calls, Sized call)
    (hinside : InsideRun false 0 calls) :
    ∃ m, (new buffer digest).run calls = some m ∧
      m.hexdigest = if Call.finalize ∈ calls then hexText (message calls) else [] := by
  have h := run_open (represents_new hbuffer digest) rfl hsized
  cases hrun : (new buffer digest).run calls with
  | none =>
      rw [hrun] at h
      exact absurd hinside h
  | some m =>
      rw [hrun, List.nil_append] at h
      obtain ⟨-, hfinal, hdigest⟩ := h
      refine ⟨m, rfl, ?_⟩
      split
      case isTrue hmem => exact hexdigest_eq (hfinal.trans (decide_eq_true hmem)) (hdigest hmem)
      case isFalse hmem =>
        rw [decide_eq_false hmem] at hfinal
        rw [hexdigest, hfinal, if_neg Bool.false_ne_true]

/-- **Exactly the runs whose calls stay inside their inputs have an outcome.** -/
theorem run_isSome_iff {calls : List Call} (hsized : ∀ call ∈ calls, Sized call) :
    ((new buffer digest).run calls).isSome ↔ InsideRun false 0 calls := by
  have h := run_open (represents_new hbuffer digest) rfl hsized
  cases hrun : (new buffer digest).run calls with
  | none =>
      rw [hrun] at h
      exact iff_of_false Bool.false_ne_true h
  | some m =>
      rw [hrun] at h
      exact iff_of_true rfl h.1

/-- **`md5` of a text**: the digest of the first `length % 2^32` characters, unless the loop
leaves them. -/
theorem md5_eq (str : List CChar) :
    md5 buffer digest str =
      if Inside 0 (str.length % 2 ^ 32) then
        some (hexText ((str.take (str.length % 2 ^ 32)).map Int8.toUInt8))
      else none := by
  have hlength : ((str.take (str.length % 2 ^ 32)).map Int8.toUInt8).length =
      str.length % 2 ^ 32 := by
    rw [List.length_map, List.length_take, Nat.min_eq_left (Nat.mod_le _ _)]
  have hsize : ((str.take (str.length % 2 ^ 32)).map Int8.toUInt8).length < 2 ^ 32 := by
    rw [hlength]
    exact Nat.mod_lt _ (by decide)
  have hupdate := (represents_new hbuffer digest).update hsize
  rw [hlength, List.length_nil, List.nil_append] at hupdate
  rw [md5, ofText, updateChars]
  cases hresult : (new buffer digest).update
      ((str.take (str.length % 2 ^ 32)).map Int8.toUInt8) with
  | none =>
      rw [hresult] at hupdate
      exact (if_neg hupdate).symm
  | some m =>
      rw [hresult] at hupdate
      obtain ⟨hinside, hrep, hopen, -⟩ := hupdate
      obtain ⟨m', hm', hfinal, hdigest, -⟩ := hrep.finalize hopen
      rw [Option.bind_some, hm', Option.map_some, if_pos hinside, hexdigest_eq hfinal hdigest]

end Object

/-- Two pieces, and a third one behind the end. -/
def pieces : List Call := [.update [97], .update [98, 99], .finalize, .update [100], .finalize]

theorem insideRun_pieces : InsideRun false 0 pieces :=
  ⟨by decide, by decide, by decide, trivial⟩

/-- The text is that of the bytes of the first two pieces. -/
theorem hexdigest_run_pieces :
    ∃ m, (new (List.replicate 64 7) []).run pieces = some m ∧
      m.hexdigest = hexText [97, 98, 99] :=
  hexdigest_run List.length_replicate [] (by decide) insideRun_pieces

theorem run_isSome_iff_pieces :
    ((new (List.replicate 64 7) []).run pieces).isSome ↔ InsideRun false 0 pieces :=
  run_isSome_iff List.length_replicate [] (by decide)

theorem md5_eq_abc :
    md5 (List.replicate 64 7) [] [97, 98, 99] =
      if Inside 0 (3 % 2 ^ 32) then some (hexText [97, 98, 99]) else none :=
  md5_eq List.length_replicate [] [97, 98, 99]

end MD5

end NewCPP
