import NewCPP.Library.Buffer

/-!
# Fields that hold a value

A record is a buffer whose fields hold values.  A `FieldCode` says how one kind of
value is spelled: with a fixed number of cells, and with nothing lost in either
direction.  Both directions are fields of the structure, so the laws of storing and
loading need no premise but the room of the field.

## Main definitions

* `FieldCode α β` — the values of `β`, spelled with `width` cells of `α`
* `FieldCode.write code buf off value`, `FieldCode.read code buf off` — a value stored
  in the field at `off`, and the value found there

## Main results

* `FieldCode.read_write`, `FieldCode.write_read` — storing and loading are inverse
* `FieldCode.agreesOff_write` — a store changes the cells of its field only
* `FieldCode.write_comm` — stores to disjoint fields commute, whatever their codes
-/

namespace Library

universe u v w

/-- A code of fixed width: every value has one spelling, and every run of `width` cells
spells one. -/
structure FieldCode (α : Type u) (β : Type v) where
  /-- How many cells a value takes. -/
  width : ℕ
  encode : β → List α
  decode : List α → β
  length_encode : ∀ value, (encode value).length = width
  decode_encode : ∀ value, decode (encode value) = value
  encode_decode : ∀ cells, cells.length = width → encode (decode cells) = cells

namespace FieldCode

variable {α : Type u} {β : Type v} {γ : Type w}

/-- The field at `off` lies inside the buffer. -/
abbrev Room (code : FieldCode α β) (buf : List α) (off : ℕ) : Prop :=
  off + code.width ≤ buf.length

/-- `value` stored in the field at `off`. -/
def write (code : FieldCode α β) (buf : List α) (off : ℕ) (value : β) : List α :=
  Buffer.blit buf off (code.encode value)

/-- The value in the field at `off`. -/
def read (code : FieldCode α β) (buf : List α) (off : ℕ) : β :=
  code.decode (Buffer.window buf off code.width)

variable {code : FieldCode α β} {buf : List α} {off : ℕ}

/-- The room of a field is the room of the write that fills it. -/
theorem Room.encode (h : code.Room buf off) (value : β) :
    off + (code.encode value).length ≤ buf.length := by
  rwa [code.length_encode]

/-- Loading what was stored. -/
theorem read_write (h : code.Room buf off) (value : β) :
    code.read (code.write buf off value) off = value := by
  have hself : Buffer.window (code.write buf off value) off (code.encode value).length =
      code.encode value := Buffer.window_blit_self (h.encode value)
  rw [code.length_encode] at hself
  rw [read, hself, code.decode_encode]

/-- Storing what was loaded. -/
theorem write_read (h : code.Room buf off) : code.write buf off (code.read buf off) = buf := by
  rw [write, read, code.encode_decode _ (Buffer.length_window h), Buffer.blit_window_self h]

/-- A store changes the cells of its field only. -/
theorem agreesOff_write (h : code.Room buf off) (value : β) :
    Buffer.AgreesOff (Buffer.cells off code.width) (code.write buf off value) buf := by
  have hwrite := Buffer.agreesOff_blit (h.encode value)
  rwa [code.length_encode] at hwrite

/-- **Stores to disjoint fields commute**, whatever the codes of the two. -/
theorem write_comm {code' : FieldCode α γ} {off' : ℕ} (h : code.Room buf off)
    (h' : code'.Room buf off') (hd : Buffer.Disjoint off code.width off' code'.width)
    (value : β) (value' : γ) :
    code'.write (code.write buf off value) off' value' =
      code.write (code'.write buf off' value') off value := by
  refine Buffer.blit_comm (h.encode value) (h'.encode value') ?_
  rwa [code.length_encode, code'.length_encode]

end FieldCode

end Library
