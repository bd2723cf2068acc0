import NewCPP.Converter
import NewCPP.Library.BlockStream
import NewCPP.Library.LittleEndian

/-!
# Message digests

`MD5` takes a message in pieces of any length, works off its blocks of 64 bytes as soon as
they are complete and keeps the rest in `buffer`; `finalize` pads the message and writes the
digest.

## Design notes

**Indeterminate values.**  The constructor leaves `buffer` and `digest` as they are, so that
their initial values are parameters.

**Lengths.**  `size_type` is an `unsigned int`.  A call of `update` is given the bytes that its
caller promises, `length` of them.  The loop in it compares `i + blocksize`, which may wrap,
so that it may go on behind the last byte; such a call has no defined outcome and is `none`.

**The algorithm.**  `compress` is the operation of the four rounds by a table, and
`transform_eq` reads the unrolled source as that.
-/

namespace NewCPP

open Library

namespace MD5

/-- The rotations of the first round. -/
def s11 : UInt32 := 7
/-- The second of them. -/
def s12 : UInt32 := 12
/-- The third. -/
def s13 : UInt32 := 17
/-- The fourth. -/
def s14 : UInt32 := 22
/-- The rotations of the second round. -/
def s21 : UInt32 := 5
/-- The second of them. -/
def s22 : UInt32 := 9
/-- The third. -/
def s23 : UInt32 := 14
/-- The fourth. -/
def s24 : UInt32 := 20
/-- The rotations of the third round. -/
def s31 : UInt32 := 4
/-- The second of them. -/
def s32 : UInt32 := 11
/-- The third. -/
def s33 : UInt32 := 16
/-- The fourth. -/
def s34 : UInt32 := 23
/-- The rotations of the fourth round. -/
def s41 : UInt32 := 6
/-- The second of them. -/
def s42 : UInt32 := 10
/-- The third. -/
def s43 : UInt32 := 15
/-- The fourth. -/
def s44 : UInt32 := 21

/-- The bytes of a block. -/
def blocksize : UInt32 := 64

/-- The function of the first round: `x` chooses between `y` and `z`. -/
def f (x y z : UInt32) : UInt32 := (x &&& y) ||| (~~~x &&& z)

/-- The function of the second round: `z` chooses between `x` and `y`. -/
def g (x y z : UInt32) : UInt32 := (x &&& z) ||| (y &&& ~~~z)

/-- The function of the third round, the parity of the three. -/
def h (x y z : UInt32) : UInt32 := x ^^^ y ^^^ z

/-- The function of the fourth round. -/
def i (x y z : UInt32) : UInt32 := y ^^^ (x ||| ~~~z)

/-- A rotation by `n` bits, for `n` from 1 to 31. -/
def rotateLeft (x n : UInt32) : UInt32 := (x <<< n) ||| (x >>> (32 - n))

/-- What `FF` stores in its first argument. -/
def ff (a b c d x s ac : UInt32) : UInt32 := rotateLeft (a + f b c d + x + ac) s + b

/-- One operation of the second round. -/
def gg (a b c d x s ac : UInt32) : UInt32 := rotateLeft (a + g b c d + x + ac) s + b

/-- One operation of the third round. -/
def hh (a b c d x s ac : UInt32) : UInt32 := rotateLeft (a + h b c d + x + ac) s + b

/-- One operation of the fourth round. -/
def ii (a b c d x s ac : UInt32) : UInt32 := rotateLeft (a + i b c d + x + ac) s + b

/-- The array `state`. -/
structure State where
  a : UInt32
  b : UInt32
  c : UInt32
  d : UInt32
  deriving DecidableEq, Repr

/-- The magic initialization constants. -/
def State.init : State := ⟨0x67452301, 0xefcdab89, 0x98badcfe, 0x10325476⟩

/-- The word that `decode` reads at `j`. -/
def decodeWord (input : List UInt8) (j : ℕ) : UInt32 :=
  (input.getD j 0).toUInt32 ||| ((input.getD (j + 1) 0).toUInt32 <<< 8)
    ||| ((input.getD (j + 2) 0).toUInt32 <<< 16) ||| ((input.getD (j + 3) 0).toUInt32 <<< 24)

/-- `len` is a multiple of 4. -/
def decode (input : List UInt8) (len : ℕ) : List UInt32 :=
  (List.range (len / 4)).map fun i => decodeWord input (4 * i)

/-- A word as four bytes, the lowest first. -/
def encodeWord (word : UInt32) : List UInt8 :=
  [(word &&& 0xff).toUInt8, ((word >>> 8) &&& 0xff).toUInt8, ((word >>> 16) &&& 0xff).toUInt8,
    ((word >>> 24) &&& 0xff).toUInt8]

/-- The bytes of a list of words. -/
def encode (input : List UInt32) : List UInt8 := input.flatMap encodeWord

/-- The 64 operations of `transform` on a block, written out as in the source. -/
def transform (state : State) (block : List UInt8) : State :=
  let a := state.a
  let b := state.b
  let c := state.c
  let d := state.d
  let words := decode block 64
  let x := fun i => words.getD i 0
  -- Round 1
  let a := ff a b c d (x 0) s11 0xd76aa478
  let d := ff d a b c (x 1) s12 0xe8c7b756
  let c := ff c d a b (x 2) s13 0x242070db
  let b := ff b c d a (x 3) s14 0xc1bdceee
  let a := ff a b c d (x 4) s11 0xf57c0faf
  let d := ff d a b c (x 5) s12 0x4787c62a
  let c := ff c d a b (x 6) s13 0xa8304613
  let b := ff b c d a (x 7) s14 0xfd469501
  let a := ff a b c d (x 8) s11 0x698098d8
  let d := ff d a b c (x 9) s12 0x8b44f7af
  let c := ff c d a b (x 10) s13 0xffff5bb1
  let b := ff b c d a (x 11) s14 0x895cd7be
  let a := ff a b c d (x 12) s11 0x6b901122
  let d := ff d a b c (x 13) s12 0xfd987193
  let c := ff c d a b (x 14) s13 0xa679438e
  let b := ff b c d a (x 15) s14 0x49b40821
  -- Round 2
  let a := gg a b c d (x 1) s21 0xf61e2562
  let d := gg d a b c (x 6) s22 0xc040b340
  let c := gg c d a b (x 11) s23 0x265e5a51
  let b := gg b c d a (x 0) s24 0xe9b6c7aa
  let a := gg a b c d (x 5) s21 0xd62f105d
  let d := gg d a b c (x 10) s22 0x2441453
  let c := gg c d a b (x 15) s23 0xd8a1e681
  let b := gg b c d a (x 4) s24 0xe7d3fbc8
  let a := gg a b c d (x 9) s21 0x21e1cde6
  let d := gg d a b c (x 14) s22 0xc33707d6
  let c := gg c d a b (x 3) s23 0xf4d50d87
  let b := gg b c d a (x 8) s24 0x455a14ed
  let a := gg a b c d (x 13) s21 0xa9e3e905
  let d := gg d a b c (x 2) s22 0xfcefa3f8
  let c := gg c d a b (x 7) s23 0x676f02d9
  let b := gg b c d a (x 12) s24 0x8d2a4c8a
  -- Round 3
  let a := hh a b c d (x 5) s31 0xfffa3942
  let d := hh d a b c (x 8) s32 0x8771f681
  let c := hh c d a b (x 11) s33 0x6d9d6122
  let b := hh b c d a (x 14) s34 0xfde5380c
  let a := hh a b c d (x 1) s31 0xa4beea44
  let d := hh d a b c (x 4) s32 0x4bdecfa9
  let c := hh c d a b (x 7) s33 0xf6bb4b60
  let b := hh b c d a (x 10) s34 0xbebfbc70
  let a := hh a b c d (x 13) s31 0x289b7ec6
  let d := hh d a b c (x 0) s32 0xeaa127fa
  let c := hh c d a b (x 3) s33 0xd4ef3085
  let b := hh b c d a (x 6) s34 0x4881d05
  let a := hh a b c d (x 9) s31 0xd9d4d039
  let d := hh d a b c (x 12) s32 0xe6db99e5
  let c := hh c d a b (x 15) s33 0x1fa27cf8
  let b := hh b c d a (x 2) s34 0xc4ac5665
  -- Round 4
  let a := ii a b c d (x 0) s41 0xf4292244
  let d := ii d a b c (x 7) s42 0x432aff97
  let c := ii c d a b (x 14) s43 0xab9423a7
  let b := ii b c d a (x 5) s44 0xfc93a039
  let a := ii a b c d (x 12) s41 0x655b59c3
  let d := ii d a b c (x 3) s42 0x8f0ccc92
  let c := ii c d a b (x 10) s43 0xffeff47d
  let b := ii b c d a (x 1) s44 0x85845dd1
  let a := ii a b c d (x 8) s41 0x6fa87e4f
  let d := ii d a b c (x 15) s42 0xfe2ce6e0
  let c := ii c d a b (x 6) s43 0xa3014314
  let b := ii b c d a (x 13) s44 0x4e0811a1
  let a := ii a b c d (x 4) s41 0xf7537e82
  let d := ii d a b c (x 11) s42 0xbd3af235
  let c := ii c d a b (x 2) s43 0x2ad7d2bb
  let b := ii b c d a (x 9) s44 0xeb86d391
  { a := state.a + a, b := state.b + b, c := state.c + c, d := state.d + d }

/-! ## The operations by a table -/

/-- The function of a round. -/
def mix : ℕ → UInt32 → UInt32 → UInt32 → UInt32
  | 0 => f
  | 1 => g
  | 2 => h
  | _ => i

/-- The word of the block that an operation takes. -/
def wordIndex (i : ℕ) : ℕ :=
  match i / 16 with
  | 0 => i
  | 1 => (5 * i + 1) % 16
  | 2 => (3 * i + 5) % 16
  | _ => 7 * i % 16

/-- How far an operation rotates. -/
def shift (i : ℕ) : UInt32 :=
  match i / 16, i % 4 with
  | 0, 0 => 7
  | 0, 1 => 12
  | 0, 2 => 17
  | 0, _ => 22
  | 1, 0 => 5
  | 1, 1 => 9
  | 1, 2 => 14
  | 1, _ => 20
  | 2, 0 => 4
  | 2, 1 => 11
  | 2, 2 => 16
  | 2, _ => 23
  | _, 0 => 6
  | _, 1 => 10
  | _, 2 => 15
  | _, _ => 21

/-- The additive constants. -/
def sines : List UInt32 :=
  [ 0xd76aa478, 0xe8c7b756, 0x242070db, 0xc1bdceee,
    0xf57c0faf, 0x4787c62a, 0xa8304613, 0xfd469501,
    0x698098d8, 0x8b44f7af, 0xffff5bb1, 0x895cd7be,
    0x6b901122, 0xfd987193, 0xa679438e, 0x49b40821,
    0xf61e2562, 0xc040b340, 0x265e5a51, 0xe9b6c7aa,
    0xd62f105d, 0x2441453, 0xd8a1e681, 0xe7d3fbc8,
    0x21e1cde6, 0xc33707d6, 0xf4d50d87, 0x455a14ed,
    0xa9e3e905, 0xfcefa3f8, 0x676f02d9, 0x8d2a4c8a,
    0xfffa3942, 0x8771f681, 0x6d9d6122, 0xfde5380c,
    0xa4beea44, 0x4bdecfa9, 0xf6bb4b60, 0xbebfbc70,
    0x289b7ec6, 0xeaa127fa, 0xd4ef3085, 0x4881d05,
    0xd9d4d039, 0xe6db99e5, 0x1fa27cf8, 0xc4ac5665,
    0xf4292244, 0x432aff97, 0xab9423a7, 0xfc93a039,
    0x655b59c3, 0x8f0ccc92, 0xffeff47d, 0x85845dd1,
    0x6fa87e4f, 0xfe2ce6e0, 0xa3014314, 0x4e0811a1,
    0xf7537e82, 0xbd3af235, 0x2ad7d2bb, 0xeb86d391]

/-- An operation; the four words take turns. -/
def operation (words : List UInt32) (s : State) (i : ℕ) : State where
  a := s.d
  b := rotateLeft (s.a + mix (i / 16) s.b s.c s.d + words.getD (wordIndex i) 0 + sines.getD i 0)
    (shift i) + s.b
  c := s.b
  d := s.c

/-- The same as a fold over the operations; `transform_eq` says so. -/
def compress (s : State) (block : List UInt8) : State :=
  let rounds := (List.range 64).foldl (operation (decode block 64)) s
  { a := s.a + rounds.a, b := s.b + rounds.b, c := s.c + rounds.c, d := s.d + rounds.d }

/-- **The unrolled operations are those of the table.** -/
theorem transform_eq (state : State) (block : List UInt8) :
    transform state block = compress state block := by
  unfold transform
  extract_lets a b c d words x a₁ d₁ c₁ b₁ a₂ d₂ c₂ b₂ a₃ d₃ c₃ b₃ a₄ d₄ c₄ b₄ a₅ d₅ c₅ b₅
    a₆ d₆ c₆ b₆ a₇ d₇ c₇ b₇ a₈ d₈ c₈ b₈ a₉ d₉ c₉ b₉ a₁₀ d₁₀ c₁₀ b₁₀ a₁₁ d₁₁ c₁₁ b₁₁
    a₁₂ d₁₂ c₁₂ b₁₂ a₁₃ d₁₃ c₁₃ b₁₃ a₁₄ d₁₄ c₁₄ b₁₄ a₁₅ d₁₅ c₁₅ b₁₅ a₁₆ d₁₆ c₁₆ b₁₆
  have hrange : List.range 64 = [0, 1, 2, 3] ++ [4, 5, 6, 7] ++ [8, 9, 10, 11] ++
      [12, 13, 14, 15] ++ [16, 17, 18, 19] ++ [20, 21, 22, 23] ++ [24, 25, 26, 27] ++
      [28, 29, 30, 31] ++ [32, 33, 34, 35] ++ [36, 37, 38, 39] ++ [40, 41, 42, 43] ++
      [44, 45, 46, 47] ++ [48, 49, 50, 51] ++ [52, 53, 54, 55] ++ [56, 57, 58, 59] ++
      [60, 61, 62, 63] := rfl
  have h₁ : [0, 1, 2, 3].foldl (operation words) ⟨a, b, c, d⟩ = ⟨a₁, b₁, c₁, d₁⟩ := rfl
  have h₂ : [4, 5, 6, 7].foldl (operation words) ⟨a₁, b₁, c₁, d₁⟩ = ⟨a₂, b₂, c₂, d₂⟩ := rfl
  have h₃ : [8, 9, 10, 11].foldl (operation words) ⟨a₂, b₂, c₂, d₂⟩ = ⟨a₃, b₃, c₃, d₃⟩ := rfl
  have h₄ : [12, 13, 14, 15].foldl (operation words) ⟨a₃, b₃, c₃, d₃⟩ = ⟨a₄, b₄, c₄, d₄⟩ := rfl
  have h₅ : [16, 17, 18, 19].foldl (operation words) ⟨a₄, b₄, c₄, d₄⟩ = ⟨a₅, b₅, c₅, d₅⟩ := rfl
  have h₆ : [20, 21, 22, 23].foldl (operation words) ⟨a₅, b₅, c₅, d₅⟩ = ⟨a₆, b₆, c₆, d₆⟩ := rfl
  have h₇ : [24, 25, 26, 27].foldl (operation words) ⟨a₆, b₆, c₆, d₆⟩ = ⟨a₇, b₇, c₇, d₇⟩ := rfl
  have h₈ : [28, 29, 30, 31].foldl (operation words) ⟨a₇, b₇, c₇, d₇⟩ = ⟨a₈, b₈, c₈, d₈⟩ := rfl
  have h₉ : [32, 33, 34, 35].foldl (operation words) ⟨a₈, b₈, c₈, d₈⟩ = ⟨a₉, b₉, c₉, d₉⟩ := rfl
  have h₁₀ : [36, 37, 38, 39].foldl (operation words) ⟨a₉, b₉, c₉, d₉⟩ = ⟨a₁₀, b₁₀, c₁₀, d₁₀⟩ := rfl
  have h₁₁ : [40, 41, 42, 43].foldl (operation words) ⟨a₁₀, b₁₀, c₁₀, d₁₀⟩ =
      ⟨a₁₁, b₁₁, c₁₁, d₁₁⟩ := rfl
  have h₁₂ : [44, 45, 46, 47].foldl (operation words) ⟨a₁₁, b₁₁, c₁₁, d₁₁⟩ =
      ⟨a₁₂, b₁₂, c₁₂, d₁₂⟩ := rfl
  have h₁₃ : [48, 49, 50, 51].foldl (operation words) ⟨a₁₂, b₁₂, c₁₂, d₁₂⟩ =
      ⟨a₁₃, b₁₃, c₁₃, d₁₃⟩ := rfl
  have h₁₄ : [52, 53, 54, 55].foldl (operation words) ⟨a₁₃, b₁₃, c₁₃, d₁₃⟩ =
      ⟨a₁₄, b₁₄, c₁₄, d₁₄⟩ := rfl
  have h₁₅ : [56, 57, 58, 59].foldl (operation words) ⟨a₁₄, b₁₄, c₁₄, d₁₄⟩ =
      ⟨a₁₅, b₁₅, c₁₅, d₁₅⟩ := rfl
  have h₁₆ : [60, 61, 62, 63].foldl (operation words) ⟨a₁₅, b₁₅, c₁₅, d₁₅⟩ =
      ⟨a₁₆, b₁₆, c₁₆, d₁₆⟩ := rfl
  have hstate : state = ⟨a, b, c, d⟩ := rfl
  rw [compress, hrange]
  simp only [List.foldl_append]
  rw [hstate, h₁, h₂, h₃, h₄, h₅, h₆, h₇, h₈, h₉, h₁₀, h₁₁, h₁₂, h₁₃, h₁₄, h₁₅, h₁₆]

end MD5

/-! ## The object -/

/-- The members of the class.  The buffer holds 64 bytes, the digest 16. -/
structure MD5 where
  finalized : Bool
  buffer : List UInt8
  /-- `count[0]`. -/
  countLow : UInt32
  /-- `count[1]`. -/
  countHigh : UInt32
  state : MD5.State
  digest : List UInt8
  deriving DecidableEq, Repr

namespace MD5

/-- `MD5()`, with what is in the memory of the two arrays. -/
def new (buffer digest : List UInt8) : MD5 where
  finalized := false
  buffer := buffer
  countLow := 0
  countHigh := 0
  state := State.init
  digest := digest

/-- The loop over the blocks of the input: where it ends, and the state there.  Each iteration
moves on by a block of the input, so that the fuel of `update` is never used up. -/
def chunks (input : List UInt8) : ℕ → UInt32 → State → Option (UInt32 × State)
  | 0, _, _ => none
  | fuel + 1, i, state =>
      if i + blocksize ≤ UInt32.ofNat input.length then
        if i.toNat + 64 ≤ input.length then
          chunks input fuel (i + blocksize) (transform state (Buffer.window input i.toNat 64))
        else none
      else some (i, state)

/-- `update`, with the bytes `input[0]` to `input[length - 1]`. -/
def update (m : MD5) (input : List UInt8) : Option MD5 :=
  let length := UInt32.ofNat input.length
  let index := m.countLow / 8 % blocksize
  let countLow := m.countLow + (length <<< 3)
  let countHigh := if countLow < length <<< 3 then m.countHigh + 1 else m.countHigh
  let countHigh := countHigh + (length >>> 29)
  let firstpart := 64 - index
  if firstpart ≤ length then
    let buffer := Buffer.blit m.buffer index.toNat (input.take firstpart.toNat)
    (chunks input (input.length + 1) firstpart (transform m.state buffer)).map fun behind =>
      { m with
        buffer := Buffer.blit buffer 0
          (Buffer.window input behind.1.toNat (length - behind.1).toNat)
        countLow := countLow
        countHigh := countHigh
        state := behind.2 }
  else
    some
      { m with
        buffer := Buffer.blit m.buffer index.toNat (Buffer.window input 0 length.toNat)
        countLow := countLow
        countHigh := countHigh }

/-- `update` for signed characters. -/
def updateChars (m : MD5) (input : List CChar) : Option MD5 :=
  m.update (input.map Int8.toUInt8)

/-- The 64 bytes that `finalize` takes its padding from. -/
def padding : List UInt8 := 0x80 :: List.replicate 63 0

/-- The padding, the length and the digest; nothing if it was done before. -/
def finalize (m : MD5) : Option MD5 :=
  if m.finalized then some m
  else
    let bits := encode [m.countLow, m.countHigh]
    let index := m.countLow / 8 % 64
    let padLen := if index < 56 then 56 - index else 120 - index
    (m.update (padding.take padLen.toNat)).bind fun m =>
      (m.update bits).map fun m =>
        { m with
          digest := encode [m.state.a, m.state.b, m.state.c, m.state.d]
          buffer := List.replicate 64 0
          countLow := 0
          countHigh := 0
          finalized := true }

/-- `MD5(text)`; the length of the text is cut to an `unsigned int`. -/
def ofText (buffer digest : List UInt8) (text : List CChar) : Option MD5 :=
  ((new buffer digest).updateChars (text.take (text.length % 2 ^ 32))).bind finalize

/-- A digit of `"%02x"`. -/
def hexDigit (n : ℕ) : Char := "0123456789abcdef".toList.getD n '0'

/-- What `sprintf` writes for `%02x`. -/
def hexByte (byte : UInt8) : List Char :=
  [hexDigit (byte.toNat / 16), hexDigit (byte.toNat % 16)]

/-- The digest in hexadecimal digits, and nothing before `finalize`. -/
def hexdigest (m : MD5) : List Char :=
  if m.finalized then (m.digest.take 16).flatMap hexByte else []

/-- `md5(str)`, with what is in the memory of the object it creates. -/
def md5 (buffer digest : List UInt8) (str : List CChar) : Option (List Char) :=
  (ofText buffer digest str).map hexdigest

example : md5 (List.replicate 64 7) [] [97, 98, 99] =
    some "900150983cd24fb0d6963f7d28e17f72".toList := by decide +kernel

end MD5

end NewCPP
