import NewCPP.Converter
import NewCPP.Library.FieldCode

/-!
# The laws of the header accessors

`setU32`, `setU64`, `getU32` and `getU64` taken together: whatever the bytes, the place
and the value, they behave as stores to and loads from fields.  A `Width` stands for one
of the two pairs, and `Width.Lawful` says what is expected of it.

* `code32`, `code64` — the two values as codes of a fixed width
* `Width.set_eq_write`, `Width.get_eq_read` — the accessors write and read as the codes do
* `accessors_lawful` — both pairs are lawful, and their stores commute with one another

## Design notes

The bytes are where the casts matter.  A cell is a signed `char`, so its high bit is
a sign: `getU32` casts it to `uint8_t` before the promotion to `int`, the shift by 24 may
still reach the sign bit of the `int`, and the last cast makes the result unsigned again.
The bits are the same on every step, so the model shifts words of `UInt32` from the start.
`setU32` goes the other way, with a cast to `int8_t` that keeps the low eight bits.
-/

namespace NewCPP

open Library

namespace ConverterUtils

/-! ## The two codes -/

/-- A 32-bit value, big-endian, in four cells. -/
def code32 : FieldCode CChar UInt32 where
  width := 4
  encode := bytes32
  decode := word32
  length_encode _ := rfl
  decode_encode := word32_bytes32
  encode_decode _ := bytes32_word32

/-- A 64-bit value, its high half in front, in eight cells. -/
def code64 : FieldCode CChar UInt64 where
  width := 8
  encode := bytes64
  decode := word64
  length_encode := length_bytes64
  decode_encode := word64_bytes64
  encode_decode _ := bytes64_word64

/-! ## Both pairs of accessors -/

/-- Which accessors: those with `U32` or those with `U64` in their names. -/
inductive Width
  | u32
  | u64

namespace Width

/-- `uint32_t` or `uint64_t`. -/
abbrev Value : Width → Type
  | u32 => UInt32
  | u64 => UInt64

/-- The bytes of a field. -/
abbrev bytes : Width → ℕ
  | u32 => 4
  | u64 => 8

/-- `setU32` or `setU64`. -/
def set : (w : Width) → List CChar → ℕ → w.Value → List CChar
  | u32 => setU32
  | u64 => setU64

/-- `getU32` or `getU64`. -/
def get : (w : Width) → List CChar → ℕ → w.Value
  | u32 => getU32
  | u64 => getU64

/-- The code that a pair of accessors implements. -/
def code : (w : Width) → FieldCode CChar w.Value
  | u32 => code32
  | u64 => code64

theorem width_code (w : Width) : w.code.width = w.bytes := by
  cases w <;> rfl

/-- There is room for a field at `offset`. -/
abbrev Room (w : Width) (data : List CChar) (offset : ℕ) : Prop :=
  offset + w.bytes ≤ data.length

/-- What is expected of a pair of accessors. -/
structure Lawful (w : Width) : Prop where
  /-- Loading what was stored. -/
  get_set : ∀ {data : List CChar} {offset : ℕ} (value : w.Value), w.Room data offset →
    w.get (w.set data offset value) offset = value
  /-- Storing what was loaded. -/
  set_get : ∀ {data : List CChar} {offset : ℕ}, w.Room data offset →
    w.set data offset (w.get data offset) = data
  /-- No byte outside the field changes, and none is added or dropped. -/
  outside : ∀ {data : List CChar} {offset : ℕ} (value : w.Value), w.Room data offset →
    Buffer.AgreesOff (Buffer.cells offset w.bytes) (w.set data offset value) data
  /-- Stores to disjoint fields commute, also those of different widths. -/
  set_comm : ∀ (w' : Width) {data : List CChar} {offset offset' : ℕ} (value : w.Value)
    (value' : w'.Value), w.Room data offset → w'.Room data offset' →
    Buffer.Disjoint offset w.bytes offset' w'.bytes →
    w'.set (w.set data offset value) offset' value' =
      w.set (w'.set data offset' value') offset value

variable {w : Width} {data : List CChar} {offset : ℕ}

theorem Room.code (h : w.Room data offset) : w.code.Room data offset := by
  rwa [FieldCode.Room, width_code]

/-- With room for the field, an accessor stores as its code does. -/
theorem set_eq_write (h : w.Room data offset) (value : w.Value) :
    w.set data offset value = w.code.write data offset value := by
  cases w with
  | u32 => exact setU32_eq_blit value h
  | u64 => exact setU64_eq_blit value h

/-- An accessor loads as its code does, with or without room. -/
theorem get_eq_read (data : List CChar) (offset : ℕ) :
    w.get data offset = w.code.read data offset := by
  cases w with
  | u32 => exact getU32_eq_word32 data offset
  | u64 => exact getU64_eq_word64 data offset

/-- No cell is added or dropped. -/
theorem length_set (data : List CChar) (offset : ℕ) (value : w.Value) :
    (w.set data offset value).length = data.length := by
  cases w with
  | u32 => exact length_setU32 data offset value
  | u64 => exact length_setU64 data offset value

/-- A store leaves the room of every other field. -/
theorem Room.set {w' : Width} {offset' : ℕ} (h : w.Room data offset) (value' : w'.Value) :
    w.Room (w'.set data offset' value') offset := by
  rwa [Room, length_set]

end Width

/-- **The header accessors are lawful**: storing and loading are inverse to one another,
no byte outside the field changes, and stores to disjoint fields commute.  The bytes are
signed, and nothing is assumed of them. -/
theorem accessors_lawful (w : Width) : w.Lawful where
  get_set value h := by
    rw [Width.set_eq_write h, Width.get_eq_read, FieldCode.read_write h.code]
  set_get h := by
    rw [Width.set_eq_write h, Width.get_eq_read, FieldCode.write_read h.code]
  outside value h := by
    rw [Width.set_eq_write h, ← w.width_code]
    exact FieldCode.agreesOff_write h.code value
  set_comm w' _ _ _ value value' h h' hd := by
    rw [Width.set_eq_write (h'.set value), Width.set_eq_write (h.set value'),
      Width.set_eq_write h, Width.set_eq_write h']
    refine FieldCode.write_comm h.code h'.code ?_ value value'
    rwa [w.width_code, w'.width_code]

/-- Bytes from 128 on are stored as negative cells. -/
example : setU32 [0, 0, 0, 0, 0] 1 0xFF80007F = [0, -1, -128, 0, 127] := by decide

end ConverterUtils

end NewCPP
