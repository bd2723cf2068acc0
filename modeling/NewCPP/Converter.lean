import Mathlib.Data.Nat.Bitwise
import NewCPP.Library.Buffer

/-!
# Big-endian header fields

`ConverterUtils` and the constants of `converterconstants.h`: the accessors every
frame header is written and read with.

A `std::vector<char>` is a list of `CChar`; `char` is signed on the platforms the
project builds for, so a cell is an `Int8` and every byte goes through the casts the
source performs.  The accessors are transcribed cell by cell.  What the rest of the
development uses is that they are a `blit` and a `window` of four or eight cells
(`setU32_eq_blit`, `getU32_eq_word32` and their 64-bit twins); the laws then come from
`Library.Buffer`.

`operator[]` is total here and reads `0` outside the vector.  No theorem relies on
that value: each one carries the room its field needs, and the decoders log
their accesses next to what they compute.

## Design notes

**Casts.**  `toInt8` and `toUint8` are the casts of the source between `char`, `int8_t` and
`uint8_t`; on eight bits they lose nothing, and the shifts work on unsigned words of the width
that is asked for.

**Constants** keep their words, and each has a definition of its own, so that an offset in a
model can be looked up in the header of the source.
-/

namespace NewCPP

open Library

/-- The source's plain `char`, signed on the target platforms. -/
abbrev CChar := Int8

namespace converter

/-- The longest name that a header holds, `MAX_NAME_LENGTH`. -/
def maxNameLength : ℕ := 63
/-- The bytes of a header in front of the name. -/
def frameHeaderLength : ℕ := 28
/-- The bytes of a header behind the name. -/
def videoHeaderLength : ℕ := 16
/-- The version that the encoder writes. -/
def headerVersion : UInt8 := 1
/-- The subversion that the encoder writes. -/
def headerSubversion : UInt8 := 0
/-- The type of a video frame. -/
def mediaTypeVideo : UInt32 := 0x0100
/-- The subtype of a frame that is not compressed. -/
def mediaSubtypeVideoUncompressed : UInt32 := 0x0000

/-- Where the width is, from the end of the name on. -/
def offsetVideoWidth : ℕ := 0
/-- Where the height is. -/
def offsetVideoHeight : ℕ := 4
/-- Where the length of a line is. -/
def offsetVideoBytesPerLine : ℕ := 8
/-- Where the depth is, in one byte. -/
def offsetVideoBitsPerPixel : ℕ := 12
/-- Where the colour format is, in one byte. -/
def offsetVideoColorFormat : ℕ := 13

/-- Where the size of the whole frame is. -/
def offsetFrameSize : ℕ := 0
/-- Where the size of the header is. -/
def offsetHeaderSize : ℕ := 4
/-- Where the version is, in one byte. -/
def offsetHeaderVersion : ℕ := 8
/-- Where the subversion is, in one byte. -/
def offsetHeaderSubversion : ℕ := 9
/-- Where the length of the name is, in one byte. -/
def offsetNameLength : ℕ := 10
/-- Where the byte is that is always 0. -/
def offsetReserved1 : ℕ := 11
/-- Where the media type is. -/
def offsetMediaType : ℕ := 12
/-- Where the media subtype is. -/
def offsetMediaSubtype : ℕ := 16
/-- Where the timestamp is; the name follows it. -/
def offsetTimestamp : ℕ := 20

end converter

namespace ConverterUtils

/-- `static_cast<int8_t>` of a 32-bit value. -/
def toInt8 (value : UInt32) : CChar := value.toUInt8.toInt8

/-- `static_cast<uint8_t>` of a `char`, promoted for the shift that follows. -/
def toUint8 (cell : CChar) : UInt32 := cell.toUInt8.toUInt32

/-- Writes a 32-bit value into the header as 4 bytes. -/
def setU32 (destination : List CChar) (offset : ℕ) (value : UInt32) : List CChar :=
  let destination := destination.set offset (toInt8 ((value >>> 24) &&& 0xFF))
  let destination := destination.set (offset + 1) (toInt8 ((value >>> 16) &&& 0xFF))
  let destination := destination.set (offset + 2) (toInt8 ((value >>> 8) &&& 0xFF))
  destination.set (offset + 3) (toInt8 ((value >>> 0) &&& 0xFF))

/-- Writes a 64-bit value into the header as 8 bytes. -/
def setU64 (destination : List CChar) (offset : ℕ) (value : UInt64) : List CChar :=
  let destination := setU32 destination offset ((value >>> 32) &&& 0xFFFFFFFF).toUInt32
  setU32 destination (offset + 4) (value &&& 0xFFFFFFFF).toUInt32

/-- The size rounded up to the next multiple of four. -/
def getPaddedSize (originalSize : ℕ) : ℕ :=
  originalSize + (4 - originalSize % 4) % 4

/-- Four cells put together, the first one in front. -/
def getU32 (data : List CChar) (offset : ℕ) : UInt32 :=
  (toUint8 (data.getD offset 0) <<< 24) ||| (toUint8 (data.getD (offset + 1) 0) <<< 16)
    ||| (toUint8 (data.getD (offset + 2) 0) <<< 8)
    ||| (toUint8 (data.getD (offset + 3) 0) <<< 0)

/-- Eight cells put together, as two values of `getU32`. -/
def getU64 (data : List CChar) (offset : ℕ) : UInt64 :=
  ((getU32 data offset).toUInt64 <<< 32) ||| (getU32 data (offset + 4)).toUInt64

/-! ## Words and their bytes -/

/-- The four cells `setU32` writes, most significant first. -/
def bytes32 (value : UInt32) : List CChar :=
  [toInt8 (value >>> 24), toInt8 (value >>> 16), toInt8 (value >>> 8), toInt8 value]

/-- The value `getU32` assembles from four cells. -/
def word32 (cells : List CChar) : UInt32 :=
  (toUint8 (cells.getD 0 0) <<< 24) ||| (toUint8 (cells.getD 1 0) <<< 16)
    ||| (toUint8 (cells.getD 2 0) <<< 8) ||| toUint8 (cells.getD 3 0)

/-- The eight cells `setU64` writes. -/
def bytes64 (value : UInt64) : List CChar :=
  bytes32 (value >>> 32).toUInt32 ++ bytes32 value.toUInt32

/-- The value `getU64` assembles from eight cells. -/
def word64 (cells : List CChar) : UInt64 :=
  ((word32 (cells.take 4)).toUInt64 <<< 32) ||| (word32 (cells.drop 4)).toUInt64

@[simp] theorem length_bytes32 (value : UInt32) : (bytes32 value).length = 4 := rfl

@[simp] theorem length_bytes64 (value : UInt64) : (bytes64 value).length = 8 := rfl

/-- The source masks before it casts; the cast alone keeps the same eight bits. -/
theorem toInt8_and_mask (value : UInt32) : toInt8 (value &&& 0xFF) = toInt8 value := by
  have hmask : (value &&& 0xFF).toUInt8 = value.toUInt8 := by
    apply UInt8.toNat_inj.mp
    rw [UInt32.toNat_toUInt8, UInt32.toNat_toUInt8, UInt32.toNat_and]
    have hff : (0xFF : UInt32).toNat = 2 ^ 8 - 1 := rfl
    rw [hff, Nat.and_two_pow_sub_one_eq_mod, Nat.mod_mod]
  rw [toInt8, toInt8, hmask]

theorem toUInt32_and_mask (value : UInt64) :
    (value &&& 0xFFFFFFFF).toUInt32 = value.toUInt32 := by
  apply UInt32.toNat_inj.mp
  rw [UInt64.toNat_toUInt32, UInt64.toNat_toUInt32, UInt64.toNat_and]
  have hff : (0xFFFFFFFF : UInt64).toNat = 2 ^ 32 - 1 := rfl
  rw [hff, Nat.and_two_pow_sub_one_eq_mod, Nat.mod_mod]

/-- The cast to `int8_t` keeps the low eight bits. -/
@[simp] theorem toUint8_toInt8 (value : UInt32) :
    (toUint8 (toInt8 value)).toNat = value.toNat % 2 ^ 8 := by
  rw [toUint8, toInt8, UInt8.toUInt8_toInt8, UInt8.toNat_toUInt32, UInt32.toNat_toUInt8]

theorem toNat_toUint8_lt (cell : CChar) : (toUint8 cell).toNat < 2 ^ 8 := by
  rw [toUint8, UInt8.toNat_toUInt32]
  exact cell.toUInt8.toNat_lt

/-- An or with a value below all the set bits is a sum. -/
private theorem or_eq_add {i a b : ℕ} (hd : 2 ^ i ∣ a) (hb : b < 2 ^ i) :
    a ||| b = a + b := by
  obtain ⟨c, rfl⟩ := hd
  exact (Nat.two_pow_add_eq_or_of_lt hb c).symm

/-- Four bytes, shifted apart and or-ed together, add up. -/
theorem toNat_word32 (cells : List CChar) :
    (word32 cells).toNat =
      (toUint8 (cells.getD 0 0)).toNat * 2 ^ 24 + (toUint8 (cells.getD 1 0)).toNat * 2 ^ 16
        + (toUint8 (cells.getD 2 0)).toNat * 2 ^ 8 + (toUint8 (cells.getD 3 0)).toNat := by
  have h₀ := toNat_toUint8_lt (cells.getD 0 0)
  have h₁ := toNat_toUint8_lt (cells.getD 1 0)
  have h₂ := toNat_toUint8_lt (cells.getD 2 0)
  have h₃ := toNat_toUint8_lt (cells.getD 3 0)
  unfold word32
  generalize toUint8 (cells.getD 0 0) = b₀ at *
  generalize toUint8 (cells.getD 1 0) = b₁ at *
  generalize toUint8 (cells.getD 2 0) = b₂ at *
  generalize toUint8 (cells.getD 3 0) = b₃ at *
  have s₀ : (b₀ <<< 24).toNat = b₀.toNat * 2 ^ 24 := by
    rw [UInt32.toNat_shiftLeft, Nat.shiftLeft_eq]
    exact Nat.mod_eq_of_lt (by change b₀.toNat * 2 ^ 24 < 2 ^ 32; omega)
  have s₁ : (b₁ <<< 16).toNat = b₁.toNat * 2 ^ 16 := by
    rw [UInt32.toNat_shiftLeft, Nat.shiftLeft_eq]
    exact Nat.mod_eq_of_lt (by change b₁.toNat * 2 ^ 16 < 2 ^ 32; omega)
  have s₂ : (b₂ <<< 8).toNat = b₂.toNat * 2 ^ 8 := by
    rw [UInt32.toNat_shiftLeft, Nat.shiftLeft_eq]
    exact Nat.mod_eq_of_lt (by change b₂.toNat * 2 ^ 8 < 2 ^ 32; omega)
  have e₁ : b₀.toNat * 2 ^ 24 ||| b₁.toNat * 2 ^ 16 =
      b₀.toNat * 2 ^ 24 + b₁.toNat * 2 ^ 16 := or_eq_add (i := 24) (by omega) (by omega)
  have e₂ : (b₀.toNat * 2 ^ 24 + b₁.toNat * 2 ^ 16) ||| b₂.toNat * 2 ^ 8 =
      b₀.toNat * 2 ^ 24 + b₁.toNat * 2 ^ 16 + b₂.toNat * 2 ^ 8 :=
    or_eq_add (i := 16) (by omega) (by omega)
  rw [UInt32.toNat_or, UInt32.toNat_or, UInt32.toNat_or, s₀, s₁, s₂, e₁, e₂]
  exact or_eq_add (i := 8) (by omega) (by omega)

/-- The low half of a 64-bit word is not extended into the high one. -/
theorem toNat_word64 (cells : List CChar) :
    (word64 cells).toNat =
      (word32 (cells.take 4)).toNat * 2 ^ 32 + (word32 (cells.drop 4)).toNat := by
  have hhi := (word32 (cells.take 4)).toNat_lt
  have hlo := (word32 (cells.drop 4)).toNat_lt
  unfold word64
  generalize word32 (cells.take 4) = hi at *
  generalize word32 (cells.drop 4) = lo at *
  have hshift : (hi.toUInt64 <<< 32).toNat = hi.toNat * 2 ^ 32 := by
    rw [UInt64.toNat_shiftLeft, Nat.shiftLeft_eq, UInt32.toNat_toUInt64]
    exact Nat.mod_eq_of_lt (by change hi.toNat * 2 ^ 32 < 2 ^ 64; omega)
  rw [UInt64.toNat_or, hshift, UInt32.toNat_toUInt64, or_eq_add (i := 32) (by omega) hlo]

/-- **Bytes to word and back**: the four bytes of a value reassemble to it. -/
@[simp] theorem word32_bytes32 (value : UInt32) : word32 (bytes32 value) = value := by
  have hlt := value.toNat_lt
  apply UInt32.toNat_inj.mp
  rw [toNat_word32]
  simp only [bytes32, List.getD_cons_zero, List.getD_cons_succ, toUint8_toInt8,
    UInt32.toNat_shiftRight, Nat.shiftRight_eq_div_pow]
  change value.toNat / 2 ^ 24 % 2 ^ 8 * 2 ^ 24 + value.toNat / 2 ^ 16 % 2 ^ 8 * 2 ^ 16
    + value.toNat / 2 ^ 8 % 2 ^ 8 * 2 ^ 8 + value.toNat % 2 ^ 8 = value.toNat
  omega

/-- A cell survives the way through `uint8_t`, an unsigned shift and `int8_t`. -/
private theorem toInt8_eq_of_toNat {value : UInt32} {cell : CChar}
    (h : value.toNat % 2 ^ 8 = (toUint8 cell).toNat) : toInt8 value = cell := by
  have hcell : value.toUInt8 = cell.toUInt8 := by
    apply UInt8.toNat_inj.mp
    rw [UInt32.toNat_toUInt8, h, toUint8, UInt8.toNat_toUInt32]
  rw [toInt8, hcell, Int8.toInt8_toUInt8]

/-- **Word to bytes and back**: four cells are the bytes of the word they spell,
whatever their high bits. -/
theorem bytes32_word32 {cells : List CChar} (h : cells.length = 4) :
    bytes32 (word32 cells) = cells := by
  have hw := toNat_word32 cells
  obtain ⟨c₀, c₁, c₂, c₃, rfl⟩ : ∃ c₀ c₁ c₂ c₃, cells = [c₀, c₁, c₂, c₃] :=
    List.length_eq_four.mp h
  have h₀ := toNat_toUint8_lt c₀
  have h₁ := toNat_toUint8_lt c₁
  have h₂ := toNat_toUint8_lt c₂
  have h₃ := toNat_toUint8_lt c₃
  simp only [List.getD_cons_zero, List.getD_cons_succ] at hw
  generalize word32 [c₀, c₁, c₂, c₃] = value at *
  have e₀ : toInt8 (value >>> 24) = c₀ := toInt8_eq_of_toNat (by
    rw [UInt32.toNat_shiftRight, Nat.shiftRight_eq_div_pow]
    change value.toNat / 2 ^ 24 % 2 ^ 8 = _
    omega)
  have e₁ : toInt8 (value >>> 16) = c₁ := toInt8_eq_of_toNat (by
    rw [UInt32.toNat_shiftRight, Nat.shiftRight_eq_div_pow]
    change value.toNat / 2 ^ 16 % 2 ^ 8 = _
    omega)
  have e₂ : toInt8 (value >>> 8) = c₂ := toInt8_eq_of_toNat (by
    rw [UInt32.toNat_shiftRight, Nat.shiftRight_eq_div_pow]
    change value.toNat / 2 ^ 8 % 2 ^ 8 = _
    omega)
  have e₃ : toInt8 value = c₃ := toInt8_eq_of_toNat (by omega)
  rw [bytes32, e₀, e₁, e₂, e₃]

/-- Reading what `setU64` wrote. -/
@[simp] theorem word64_bytes64 (value : UInt64) : word64 (bytes64 value) = value := by
  have hlt := value.toNat_lt
  apply UInt64.toNat_inj.mp
  have htake : (bytes64 value).take 4 = bytes32 (value >>> 32).toUInt32 := rfl
  have hdrop : (bytes64 value).drop 4 = bytes32 value.toUInt32 := rfl
  rw [toNat_word64, htake, hdrop, word32_bytes32, word32_bytes32, UInt64.toNat_toUInt32,
    UInt64.toNat_toUInt32, UInt64.toNat_shiftRight, Nat.shiftRight_eq_div_pow]
  change value.toNat / 2 ^ 32 % 2 ^ 32 * 2 ^ 32 + value.toNat % 2 ^ 32 = value.toNat
  omega

/-- Writing what `getU64` read. -/
theorem bytes64_word64 {cells : List CChar} (h : cells.length = 8) :
    bytes64 (word64 cells) = cells := by
  have hw := toNat_word64 cells
  have hhi := (word32 (cells.take 4)).toNat_lt
  have hlo := (word32 (cells.drop 4)).toNat_lt
  have e₀ : (word64 cells >>> 32).toUInt32 = word32 (cells.take 4) := by
    apply UInt32.toNat_inj.mp
    rw [UInt64.toNat_toUInt32, UInt64.toNat_shiftRight, Nat.shiftRight_eq_div_pow]
    change (word64 cells).toNat / 2 ^ 32 % 2 ^ 32 = _
    omega
  have e₁ : (word64 cells).toUInt32 = word32 (cells.drop 4) := by
    apply UInt32.toNat_inj.mp
    rw [UInt64.toNat_toUInt32]
    omega
  rw [bytes64, e₀, e₁, bytes32_word32 (by rw [List.length_take, h]; rfl),
    bytes32_word32 (by rw [List.length_drop, h]), List.take_append_drop]

/-! ## The accessors are a write and a read of one field -/

/-- With room for it, `setU32` overwrites four cells in place. -/
theorem setU32_eq_blit {data : List CChar} {offset : ℕ} (value : UInt32)
    (h : offset + 4 ≤ data.length) :
    setU32 data offset value = Buffer.blit data offset (bytes32 value) := by
  have hzero : value >>> 0 = value := by simp
  rw [bytes32, Buffer.blit_cons h]
  iterate 3
    rw [Buffer.blit_cons (by simp only [List.length_set, List.length_cons, List.length_nil]; omega)]
  rw [Buffer.blit_nil]
  simp only [setU32, toInt8_and_mask, hzero]

/-- With room for it, `setU64` overwrites eight cells in place. -/
theorem setU64_eq_blit {data : List CChar} {offset : ℕ} (value : UInt64)
    (h : offset + 8 ≤ data.length) :
    setU64 data offset value = Buffer.blit data offset (bytes64 value) := by
  have hhi : ((value >>> 32) &&& 0xFFFFFFFF).toUInt32 = (value >>> 32).toUInt32 :=
    toUInt32_and_mask _
  have hlo : (value &&& 0xFFFFFFFF).toUInt32 = value.toUInt32 := toUInt32_and_mask _
  have hleft : offset + 4 ≤ data.length := by omega
  have hright : offset + 4 + 4 ≤ (setU32 data offset (value >>> 32).toUInt32).length := by
    simp only [setU32, List.length_set]
    exact h
  simp only [setU64, hhi, hlo]
  rw [setU32_eq_blit _ hright, setU32_eq_blit _ hleft]
  exact Buffer.blit_append h

/-- A cell of a field, read through the field. -/
private theorem getD_window {data : List CChar} {offset len i : ℕ} (h : i < len) :
    (Buffer.window data offset len).getD i 0 = data.getD (offset + i) 0 := by
  rw [List.getD_eq_getElem?_getD, List.getD_eq_getElem?_getD, Buffer.getElem?_window,
    if_pos h]

theorem getD_eq_window (data : List CChar) (offset : ℕ) :
    data.getD offset 0 = (Buffer.window data offset 1).getD 0 0 :=
  (getD_window (i := 0) Nat.one_pos).symm

/-- `getU32` reads four cells, wherever they are. -/
theorem getU32_eq_word32 (data : List CChar) (offset : ℕ) :
    getU32 data offset = word32 (Buffer.window data offset 4) := by
  have hzero (value : UInt32) : value <<< 0 = value := by simp
  rw [getU32, word32, getD_window (i := 0) (by omega), getD_window (i := 1) (by omega),
    getD_window (i := 2) (by omega), getD_window (i := 3) (by omega), hzero]
  rfl

/-- `getU64` reads eight cells, wherever they are. -/
theorem getU64_eq_word64 (data : List CChar) (offset : ℕ) :
    getU64 data offset = word64 (Buffer.window data offset 8) := by
  rw [getU64, word64, getU32_eq_word32, getU32_eq_word32,
    Buffer.take_window (n := 4) (by decide), Buffer.drop_window (n := 4)]

/-! ## Reads after writes, writes after reads -/

theorem length_setU32 (data : List CChar) (offset : ℕ) (value : UInt32) :
    (setU32 data offset value).length = data.length := by
  simp only [setU32, List.length_set]

theorem length_setU64 (data : List CChar) (offset : ℕ) (value : UInt64) :
    (setU64 data offset value).length = data.length := by
  simp only [setU64, length_setU32]

theorem window_setU32_self {data : List CChar} {offset : ℕ} (value : UInt32)
    (h : offset + 4 ≤ data.length) :
    Buffer.window (setU32 data offset value) offset 4 = bytes32 value := by
  rw [setU32_eq_blit value h]
  exact Buffer.window_blit_self h

/-- Storing the value just loaded leaves the vector unchanged. -/
theorem setU32_getU32 {data : List CChar} {offset : ℕ} (h : offset + 4 ≤ data.length) :
    setU32 data offset (getU32 data offset) = data := by
  rw [setU32_eq_blit _ h, getU32_eq_word32, bytes32_word32 (Buffer.length_window h),
    Buffer.blit_window_self h]

/-- Writing back what was just read changes nothing. -/
theorem setU64_getU64 {data : List CChar} {offset : ℕ} (h : offset + 8 ≤ data.length) :
    setU64 data offset (getU64 data offset) = data := by
  rw [setU64_eq_blit _ h, getU64_eq_word64, bytes64_word64 (Buffer.length_window h),
    Buffer.blit_window_self h]

theorem window_set_self {data : List CChar} {offset : ℕ} (cell : CChar)
    (h : offset < data.length) :
    Buffer.window (data.set offset cell) offset 1 = [cell] := by
  rw [Buffer.set_eq_blit cell h]
  have hself : Buffer.window (Buffer.blit data offset [cell]) offset [cell].length = [cell] :=
    Buffer.window_blit_self h
  exact hself

/-! ### Frame laws

A store touches its own field only, so a field elsewhere reads the same before and
after. -/

/-- A field that is not touched keeps its cells. -/
theorem window_setU32 {data : List CChar} {offset offset' len : ℕ} (value : UInt32)
    (h : offset + 4 ≤ data.length) (hd : Buffer.Disjoint offset 4 offset' len) :
    Buffer.window (setU32 data offset value) offset' len =
      Buffer.window data offset' len := by
  rw [setU32_eq_blit value h]
  exact Buffer.window_blit_of_disjoint h hd

/-- The same for a single cell. -/
theorem window_set {data : List CChar} {offset offset' len : ℕ} (cell : CChar)
    (h : offset < data.length) (hd : Buffer.Disjoint offset 1 offset' len) :
    Buffer.window (data.set offset cell) offset' len = Buffer.window data offset' len := by
  rw [Buffer.set_eq_blit cell h]
  exact Buffer.window_blit_of_disjoint (by rw [List.length_singleton]; omega) hd

end ConverterUtils

end NewCPP
