import Mathlib.Data.Int.Order.Basic
import NewCPP.Library.Numeral
import NewCPP.Network.NaiveURIParser

/-!
# The TCP endpoint

`IpcSocketWindows` takes host and port from its URI.  `std::stoi` reads the number at the
beginning of the port, and a cast makes an `unsigned short` of it.

* `port_kept_iff` — for which URIs the port is the one that is written: those whose port, if
  it starts with a number of type `int`, is the numeral of a number below 65536.

## Design notes

**Exceptions.**  A constructor that throws returns the exception, with its text where the
source gives one.

**Integers.**  `std::stoi` throws where the number is not an `int`; what fits into an `int` and
not into an `unsigned short` is cut to its low sixteen bits without a word.

**What the URI says.**  `Denotes` is the statement of purpose: the endpoint that a reader of the
URI expects.  `PortKept` compares the constructed object with it, and `IsPort` is the condition
on the piece of text that the parser hands over as the port.
-/

namespace NewCPP.Network

open Library

/-- An exception with its type. -/
inductive Thrown where
  | runtimeError (what : List Char)
  | invalidArgument
  | outOfRange
  deriving DecidableEq

/-- The number is a value of `int`. -/
def IsInt (value : ℤ) : Prop :=
  -2 ^ 31 ≤ value ∧ value < 2 ^ 31

instance (value : ℤ) : Decidable (IsInt value) :=
  inferInstanceAs (Decidable (_ ∧ _))

/-- `std::stoi`. -/
def stoi (str : List Char) : Except Thrown ℤ :=
  match Numeral.number str with
  | none => .error .invalidArgument
  | some value => if IsInt value then .ok value else .error .outOfRange

/-- `static_cast<unsigned short>`. -/
def toUnsignedShort (value : ℤ) : ℕ :=
  (value % 2 ^ 16).toNat

/-- The members of the class. -/
structure IpcSocketWindows where
  socketUri : List Char
  socketName : List Char
  port : ℕ := 0
  host : List Char := []
  deriving DecidableEq

namespace IpcSocketWindows

/-- The constructor. -/
def new (uri name : List Char) : Except Thrown IpcSocketWindows :=
  let parsedUri := NaiveURIParser.parse uri
  if !parsedUri.valid then .error (.runtimeError ("Malformed Endpoint Uri=".toList ++ uri))
  else if parsedUri.protocol ≠ "tcp".toList then
    .error (.runtimeError "Only TCP is supported as IPC".toList)
  else if parsedUri.host = [] then
    .error (.runtimeError "'Host' part of URI is expected".toList)
  else if parsedUri.port = [] then
    .error (.runtimeError "'Port' part of URI is expected".toList)
  else
    match stoi parsedUri.port with
    | .error thrown => .error thrown
    | .ok value =>
        .ok
          { socketUri := uri
            socketName := name
            port := toUnsignedShort value
            host := parsedUri.host }

/-- The URI names a TCP endpoint, and something stands where its port is expected. -/
structure Endpoint (uri : List Char) : Prop where
  valid : (NaiveURIParser.parse uri).valid = true
  protocol : (NaiveURIParser.parse uri).protocol = "tcp".toList
  host : (NaiveURIParser.parse uri).host ≠ []
  port : (NaiveURIParser.parse uri).port ≠ []

/-- Digits, and nothing else, that denote a number. -/
def Denotes (text : List Char) (n : ℕ) : Prop :=
  text ≠ [] ∧ (∀ c ∈ text, Numeral.isDigit c) ∧ Numeral.value text = n

/-- The port of an endpoint that is constructed is the one that the URI names. -/
def PortKept (uri name : List Char) : Prop :=
  ∀ socket, new uri name = .ok socket →
    ∃ n ≤ 65535, Denotes (NaiveURIParser.parse uri).port n ∧ socket.port = n

/-! ## What is constructed -/

/-- `std::stoi` returns the number at the beginning if it is an `int`. -/
theorem stoi_eq_ok_iff (str : List Char) (value : ℤ) :
    stoi str = .ok value ↔ Numeral.number str = some value ∧ IsInt value := by
  rw [stoi]
  cases hnumber : Numeral.number str with
  | none => exact iff_of_false (by rintro ⟨⟩) fun h => (by cases h.1)
  | some number =>
      dsimp only
      split
      · rename_i hint
        simp only [Except.ok.injEq, Option.some.injEq, iff_self_and]
        rintro rfl
        exact hint
      · rename_i hint
        refine iff_of_false (by rintro ⟨⟩) ?_
        rintro ⟨hsome, hvalue⟩
        exact hint (Option.some.inj hsome ▸ hvalue)

/-- **What the constructor accepts**, and what it makes of it. -/
theorem new_eq_ok_iff (uri name : List Char) (socket : IpcSocketWindows) :
    new uri name = .ok socket ↔
      Endpoint uri ∧ ∃ value, stoi (NaiveURIParser.parse uri).port = .ok value ∧
        socket =
          { socketUri := uri
            socketName := name
            port := toUnsignedShort value
            host := (NaiveURIParser.parse uri).host } := by
  rw [new]
  split
  · rename_i hvalid
    refine iff_of_false (by rintro ⟨⟩) fun h => ?_
    simp [h.1.valid] at hvalid
  · rename_i hvalid
    split
    · rename_i hprotocol
      exact iff_of_false (by rintro ⟨⟩) fun h => hprotocol h.1.protocol
    · rename_i hprotocol
      split
      · rename_i hhost
        exact iff_of_false (by rintro ⟨⟩) fun h => h.1.host hhost
      · rename_i hhost
        split
        · rename_i hport
          exact iff_of_false (by rintro ⟨⟩) fun h => h.1.port hport
        · rename_i hport
          have hendpoint : Endpoint uri :=
            ⟨by simpa using hvalid, not_not.1 hprotocol, hhost, hport⟩
          rw [and_iff_right hendpoint]
          split
          · rename_i thrown hstoi
            refine iff_of_false (by rintro ⟨⟩) ?_
            rintro ⟨value, hvalue, -⟩
            cases hstoi.symm.trans hvalue
          · rename_i value hstoi
            simp only [hstoi, Except.ok.injEq, exists_eq_left']
            exact eq_comm

/-! ## Which ports are kept -/

/-- The numeral of a number below 65536, without blanks, sign and anything behind it. -/
structure IsPort (parts : Numeral.Parts) : Prop where
  blanks : parts.blanks = []
  sign : parts.sign = .none
  rest : parts.rest = []
  le : Numeral.value parts.digits ≤ 65535

/-- A number that fits is kept. -/
theorem toUnsignedShort_of_le {n : ℕ} (h : n ≤ 65535) : toUnsignedShort n = n := by
  rw [toUnsignedShort]
  omega

/-- A string of digits is taken apart in one way only. -/
theorem isPort_of_digits {parts : Numeral.Parts} (h : parts.WellFormed)
    (hdigits : ∀ c ∈ parts.text, Numeral.isDigit c)
    (hle : Numeral.value parts.text ≤ 65535) : IsPort parts := by
  obtain ⟨blanks, sign, digits, rest⟩ := parts
  have hblanks : blanks = [] := by
    cases blanks with
    | nil => rfl
    | cons c blanks =>
        have hspace := Numeral.isSpace_of_isDigit (hdigits c List.mem_cons_self)
        rw [h.blanks c List.mem_cons_self] at hspace
        cases hspace
  subst hblanks
  have hsign : sign = .none := by
    cases sign with
    | none => rfl
    | plus => exact absurd (hdigits '+' List.mem_cons_self) (by decide)
    | minus => exact absurd (hdigits '-' List.mem_cons_self) (by decide)
  subst hsign
  have hrest : rest = [] := by
    cases rest with
    | nil => rfl
    | cons c rest =>
        have hdigit := hdigits c (List.mem_append_right digits List.mem_cons_self)
        rw [h.rest c rfl] at hdigit
        cases hdigit
  subst hrest
  refine ⟨rfl, rfl, rfl, ?_⟩
  rwa [Numeral.Parts.text, List.append_nil] at hle

/-- **Which URIs name the port that is used.**  The constructor throws, or the port starts
with a number of type `int` — then it has to be the numeral of a number below 65536, which
is neither signed nor preceded or followed by anything. -/
theorem port_kept_iff (uri name : List Char) : PortKept uri name ↔
    (Endpoint uri → ∀ parts : Numeral.Parts, parts.WellFormed →
      parts.text = (NaiveURIParser.parse uri).port → IsInt parts.number → IsPort parts) := by
  constructor
  · intro h hendpoint parts hparts htext hint
    have hstoi : stoi (NaiveURIParser.parse uri).port = .ok parts.number :=
      (stoi_eq_ok_iff _ _).2 ⟨htext ▸ Numeral.number_text hparts, hint⟩
    obtain ⟨n, hle, ⟨-, hdigits, hvalue⟩, -⟩ :=
      h _ ((new_eq_ok_iff uri name _).2 ⟨hendpoint, _, hstoi, rfl⟩)
    rw [← htext] at hdigits hvalue
    exact isPort_of_digits hparts hdigits (hvalue ▸ hle)
  · intro h socket hsocket
    obtain ⟨hendpoint, value, hstoi, rfl⟩ := (new_eq_ok_iff uri name socket).1 hsocket
    obtain ⟨hnumber, hint⟩ := (stoi_eq_ok_iff _ _).1 hstoi
    obtain ⟨parts, hparts, htext, rfl⟩ := (Numeral.number_eq_some_iff _ _).1 hnumber
    obtain ⟨hblanks, hsign, hrest, hle⟩ := h hendpoint parts hparts htext hint
    obtain ⟨blanks, sign, digits, rest⟩ := parts
    subst hblanks hsign hrest
    rw [Numeral.Parts.text, List.append_nil] at htext
    refine ⟨Numeral.value digits, hle, ?_, toUnsignedShort_of_le hle⟩
    rw [← htext]
    exact ⟨hparts.nonempty, hparts.digits, rfl⟩

/-- The number 65616 comes out as 80. -/
theorem not_port_kept_narrowed : ¬∀ uri name, PortKept uri name := by
  intro h
  obtain ⟨n, hle, ⟨-, -, hvalue⟩, -⟩ := h "tcp://localhost:65616".toList "camera".toList
    { socketUri := "tcp://localhost:65616".toList
      socketName := "camera".toList
      port := 80
      host := "localhost".toList } (by decide)
  have hnumber : Numeral.value (NaiveURIParser.parse "tcp://localhost:65616".toList).port =
      65616 := by
    decide
  omega

end IpcSocketWindows

end NewCPP.Network
