import Mathlib.Algebra.Order.Ring.Nat
import Mathlib.Data.Int.Notation
import Mathlib.Data.List.TakeWhile
import Mathlib.Tactic.Common

/-!
# Decimal numerals

How `strtol` reads a number at the beginning of a string: blanks, a sign if there is one,
and as many digits as follow.

* `number` — the number, `none` if there is no digit.
* `number_eq_some_iff` — it comes from a way to take the string apart (`Numeral`), and what
  is behind the digits has no part in it.

The number of a numeral has no bound here; whether it fits into a type of the machine is for the
caller to ask.

## Design notes

**Taking apart.**  `Parts` are the blanks, the sign, the digits and what follows them, and
`Parts.WellFormed` says that there is a digit and that what follows begins with none.  A
well-formed way to take a string apart is unique, which is how both directions of
`number_eq_some_iff` come about.
-/

namespace Library.Numeral

/-- The blanks of the C locale. -/
def isSpace (c : Char) : Bool :=
  c ∈ [' ', '\t', '\n', '\x0b', '\x0c', '\r']

/-- A decimal digit. -/
def isDigit (c : Char) : Bool :=
  decide ('0' ≤ c) && decide (c ≤ '9')

/-- The number that digits denote. -/
def value (digits : List Char) : ℕ :=
  digits.foldl (fun n digit => 10 * n + (digit.toNat - '0'.toNat)) 0

/-- A sign in front of a number, or none. -/
inductive Sign where
  | none
  | plus
  | minus
  deriving DecidableEq

namespace Sign

/-- The sign as it is written. -/
def text : Sign → List Char
  | none => []
  | plus => ['+']
  | minus => ['-']

/-- The number with its sign. -/
def apply : Sign → ℕ → ℤ
  | minus, n => -n
  | _, n => n

/-- The sign at the beginning of a string. -/
def ofText : List Char → Sign
  | '+' :: _ => plus
  | '-' :: _ => minus
  | _ => none

end Sign

/-- The number at the beginning of a string. -/
def number (str : List Char) : Option ℤ :=
  let unread := str.dropWhile isSpace
  let sign := Sign.ofText unread
  let digits := (unread.drop sign.text.length).takeWhile isDigit
  if digits = [] then none else some (sign.apply (value digits))

/-- A string taken apart. -/
structure Parts where
  blanks : List Char := []
  sign : Sign := .none
  digits : List Char
  rest : List Char := []

namespace Parts

/-- The parts put together again. -/
def text (parts : Parts) : List Char :=
  parts.blanks ++ (parts.sign.text ++ (parts.digits ++ parts.rest))

/-- The digits are there, and they are all that follow the sign. -/
structure WellFormed (parts : Parts) : Prop where
  blanks : ∀ c ∈ parts.blanks, isSpace c
  digits : ∀ c ∈ parts.digits, isDigit c
  nonempty : parts.digits ≠ []
  rest : ∀ c ∈ parts.rest.head?, isDigit c = false

/-- What the parts stand for. -/
def number (parts : Parts) : ℤ :=
  parts.sign.apply (value parts.digits)

end Parts

/-! ## Reading -/

/-- A digit is no blank. -/
theorem isSpace_of_isDigit {c : Char} (h : isDigit c) : isSpace c = false := by
  rw [isSpace, decide_eq_false_iff_not]
  intro hmem
  simp only [List.mem_cons, List.not_mem_nil, or_false] at hmem
  rcases hmem with rfl | rfl | rfl | rfl | rfl | rfl <;> exact absurd h (by decide)

/-- Nor is it a sign. -/
theorem not_sign_of_isDigit {c : Char} (h : isDigit c) : c ≠ '+' ∧ c ≠ '-' := by
  constructor <;> rintro rfl <;> exact absurd h (by decide)

/-- A string that starts with a digit has no sign. -/
theorem ofText_of_isDigit {c : Char} (h : isDigit c) (rest : List Char) :
    Sign.ofText (c :: rest) = .none := by
  obtain ⟨hplus, hminus⟩ := not_sign_of_isDigit h
  rw [Sign.ofText.eq_def]
  split
  · rename_i heq
    exact absurd (List.cons.inj heq).1 hplus
  · rename_i heq
    exact absurd (List.cons.inj heq).1 hminus
  · rfl

/-- In front of digits the sign is read back. -/
theorem ofText_text (sign : Sign) {digits : List Char} (hdigits : ∀ c ∈ digits, isDigit c)
    (hne : digits ≠ []) (rest : List Char) :
    Sign.ofText (sign.text ++ (digits ++ rest)) = sign := by
  cases sign with
  | none =>
      obtain ⟨c, digits, rfl⟩ := List.exists_cons_of_ne_nil hne
      exact ofText_of_isDigit (hdigits c List.mem_cons_self) _
  | plus => rfl
  | minus => rfl

/-- Behind the blanks there is a character that is none. -/
theorem dropWhile_isSpace (sign : Sign) {digits : List Char}
    (hdigits : ∀ c ∈ digits, isDigit c) (hne : digits ≠ []) (rest : List Char) :
    (sign.text ++ (digits ++ rest)).dropWhile isSpace = sign.text ++ (digits ++ rest) := by
  cases sign with
  | none =>
      obtain ⟨c, digits, rfl⟩ := List.exists_cons_of_ne_nil hne
      exact List.dropWhile_cons_of_neg
        (Bool.not_eq_true _ ▸ isSpace_of_isDigit (hdigits c List.mem_cons_self))
  | plus => rfl
  | minus => rfl

/-- The digits end where the rest begins. -/
theorem takeWhile_isDigit {digits rest : List Char} (hdigits : ∀ c ∈ digits, isDigit c)
    (hrest : ∀ c ∈ rest.head?, isDigit c = false) :
    (digits ++ rest).takeWhile isDigit = digits := by
  rw [List.takeWhile_append_of_pos hdigits]
  cases rest with
  | nil => rw [List.takeWhile_nil, List.append_nil]
  | cons c rest =>
      rw [List.takeWhile_cons_of_neg (by simp [hrest c rfl]), List.append_nil]

/-- A string that is taken apart is read as its number. -/
theorem number_text {parts : Parts} (h : parts.WellFormed) :
    number parts.text = some parts.number := by
  have hunread : parts.text.dropWhile isSpace =
      parts.sign.text ++ (parts.digits ++ parts.rest) := by
    rw [Parts.text, List.dropWhile_append_of_pos h.blanks,
      dropWhile_isSpace parts.sign h.digits h.nonempty]
  simp only [number, hunread, ofText_text parts.sign h.digits h.nonempty, List.drop_left,
    takeWhile_isDigit h.digits h.rest, if_neg h.nonempty]
  rfl

/-- The sign that is read is what the text begins with. -/
theorem text_ofText_append (str : List Char) :
    (Sign.ofText str).text ++ str.drop (Sign.ofText str).text.length = str := by
  rw [Sign.ofText.eq_def]
  split <;> rfl

/-- **What is read at the beginning of a string.** -/
theorem number_eq_some_iff (str : List Char) (n : ℤ) : number str = some n ↔
    ∃ parts : Parts, parts.WellFormed ∧ parts.text = str ∧ parts.number = n := by
  constructor
  · intro h
    simp only [number] at h
    split at h
    · cases h
    · rename_i hdigits
      let unread := str.dropWhile isSpace
      let sign := Sign.ofText unread
      let behind := unread.drop sign.text.length
      refine ⟨⟨str.takeWhile isSpace, sign, behind.takeWhile isDigit, behind.dropWhile isDigit⟩,
        ⟨?_, ?_, hdigits, ?_⟩, ?_, Option.some.inj h⟩
      · exact fun c hc => List.mem_takeWhile_imp hc
      · exact fun c hc => List.mem_takeWhile_imp hc
      · intro c hc
        have hnot := List.head?_dropWhile_not isDigit behind
        rw [Option.mem_def.1 hc] at hnot
        exact hnot
      · rw [Parts.text, List.takeWhile_append_dropWhile, text_ofText_append,
          List.takeWhile_append_dropWhile]
  · rintro ⟨parts, hparts, rfl, rfl⟩
    exact number_text hparts

end Library.Numeral
