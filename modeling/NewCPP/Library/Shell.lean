import Mathlib.Algebra.Order.Ring.Nat
import Mathlib.Data.List.Basic
import Mathlib.Tactic.Common

/-!
# Words of a shell command

How the POSIX shell recognises the tokens of a line and removes the quotes: blanks and
operators end a word; single quotes keep every character up to the next one; double quotes
keep all but `$`, the backquote and the backslash; a backslash keeps the character that
follows.

* `tokens` — the tokens of a line, `none` if a quote is not closed.
* `Reader.read_quoted` — text in single quotes is read as it is, if it holds none.
* `tokens_line`, `tokens_andList` — words written bare or in single quotes are read back,
  and so are lines joined by `&&`; `run_andList` — such lines are run one after the other.
* `Reader.size_finish_le` — a line that ends in a single quote gives at most its characters
  without those that separate and quote.

## Design notes

**Expansions.**  What an unquoted `$`, backquote, `*`, `?`, `[` or `~` stands for depends
on the environment, so that it stays in its word as an expansion.  What follows it is read
as ordinary text; a word with an expansion is no plain text in any case.

**Operators.**  Each operator character is a token of its own, the end of a line as well.
`run` takes two `&` in a row for `&&`, whether there is a blank between them or not.
-/

namespace Library.Shell

universe u

/-- A character of a word after the removal of the quotes. -/
inductive Piece where
  | literal (c : Char)
  | expansion (c : Char)
  deriving DecidableEq

/-- A word, in its pieces, or a control operator. -/
inductive Token where
  | word (pieces : List Piece)
  | operator (c : Char)
  deriving DecidableEq

/-- A word that is plain text. -/
def plain (text : List Char) : Token :=
  .word (text.map Piece.literal)

/-- What the next character belongs to. -/
inductive Mode where
  | blank
  | word
  /-- Behind a backslash, which may be the first character of a word. -/
  | escaped (inWord : Bool)
  | single
  | double
  | doubleEscaped
  | comment
  deriving DecidableEq

/-- The tokens so far, and the pieces of the word that is being read. -/
structure Reader where
  mode : Mode := .blank
  pieces : List Piece := []
  tokens : List Token := []
  deriving DecidableEq

/-- A character between words. -/
def isBlank (c : Char) : Bool :=
  c = ' ' || c = '\t'

/-- A character of a control operator; a newline is one as well. -/
def isOperator (c : Char) : Bool :=
  c ∈ ['\n', ';', '&', '|', '<', '>', '(', ')']

/-- The characters that double quotes do not keep: `$` and the backquote. -/
def isSubstitution (c : Char) : Bool :=
  c = '$' || c = '\x60'

/-- A character that the shell would expand. -/
def isExpansion (c : Char) : Bool :=
  isSubstitution c || c ∈ ['*', '?', '[', '~']

namespace Reader

/-- The next piece of a word. -/
def add (reader : Reader) (mode : Mode) (piece : Piece) : Reader :=
  { reader with mode := mode, pieces := reader.pieces ++ [piece] }

/-- The word that is being read, if any, is complete. -/
def endWord (reader : Reader) : Reader :=
  if reader.mode = .word then
    { mode := .blank, pieces := [], tokens := reader.tokens ++ [.word reader.pieces] }
  else reader

/-- A control operator becomes a token; a word in front of it is one already. -/
def endLine (reader : Reader) (c : Char) : Reader :=
  { mode := .blank, pieces := [], tokens := reader.tokens ++ [.operator c] }

/-- A character outside quotes. -/
def unquoted (reader : Reader) (c : Char) : Reader :=
  if isBlank c then reader.endWord
  else if isOperator c then reader.endWord.endLine c
  else if c = '\'' then { reader with mode := .single }
  else if c = '"' then { reader with mode := .double }
  else if c = '\\' then { reader with mode := .escaped (reader.mode = .word) }
  else if isExpansion c then reader.add .word (.expansion c)
  else reader.add .word (.literal c)

/-- The next character of the line. -/
def step (reader : Reader) (c : Char) : Reader :=
  match reader.mode with
  | .blank => if c = '#' then { reader with mode := .comment } else reader.unquoted c
  | .word => reader.unquoted c
  | .escaped inWord =>
      if c = '\n' then { reader with mode := if inWord then .word else .blank }
      else reader.add .word (.literal c)
  | .single =>
      if c = '\'' then { reader with mode := .word } else reader.add .single (.literal c)
  | .double =>
      if c = '"' then { reader with mode := .word }
      else if c = '\\' then { reader with mode := .doubleEscaped }
      else if isSubstitution c then reader.add .double (.expansion c)
      else reader.add .double (.literal c)
  | .doubleEscaped =>
      if c = '\n' then { reader with mode := .double }
      else if c = '"' || c = '\\' || isSubstitution c then reader.add .double (.literal c)
      else (reader.add .double (.literal '\\')).add .double (.literal c)
  | .comment => if c = '\n' then reader.endLine c else reader

/-- A whole line, character by character. -/
def read (reader : Reader) (line : List Char) : Reader :=
  line.foldl step reader

/-- The end of the input; a backslash there stands for itself. -/
def finish (reader : Reader) : Option (List Token) :=
  match reader.mode with
  | .blank | .comment => some reader.tokens
  | .word => some (reader.tokens ++ [.word reader.pieces])
  | .escaped _ => some (reader.tokens ++ [.word (reader.pieces ++ [.literal '\\'])])
  | .single | .double | .doubleEscaped => none

end Reader

/-- The tokens of a line. -/
def tokens (line : List Char) : Option (List Token) :=
  (Reader.read {} line).finish

/-! ## Reading -/

namespace Reader

@[simp] theorem read_nil (reader : Reader) : reader.read [] = reader := rfl

@[simp] theorem read_cons (reader : Reader) (c : Char) (line : List Char) :
    reader.read (c :: line) = (reader.step c).read line := rfl

/-- A line may be read in two parts. -/
@[simp] theorem read_append (reader : Reader) (front rest : List Char) :
    reader.read (front ++ rest) = (reader.read front).read rest :=
  List.foldl_append

/-- Inside single quotes all characters but the quote are text. -/
theorem read_single {reader : Reader} (hmode : reader.mode = .single) {text : List Char}
    (h : '\'' ∉ text) :
    reader.read text = { reader with pieces := reader.pieces ++ text.map .literal } := by
  induction text generalizing reader with
  | nil => simp
  | cons c text ih =>
      rw [List.mem_cons, not_or] at h
      have hstep : reader.step c = reader.add .single (.literal c) := by
        simp [step, hmode, Ne.symm h.1]
      rw [read_cons, hstep, ih rfl h.2]
      simp [add, hmode]

/-- Text in single quotes, at the start of a word or within one. -/
theorem read_quoted {reader : Reader} (hmode : reader.mode = .blank ∨ reader.mode = .word)
    {text : List Char} (h : '\'' ∉ text) :
    reader.read ('\'' :: (text ++ ['\''])) =
      { reader with mode := .word, pieces := reader.pieces ++ text.map .literal } := by
  have hopen : reader.step '\'' = { reader with mode := .single } := by
    rcases hmode with hmode | hmode <;> simp [step, hmode, unquoted, isBlank, isOperator]
  rw [read_cons, hopen, read_append, read_single rfl h]
  rfl

/-- A blank ends the word. -/
theorem step_blank {reader : Reader} (hmode : reader.mode = .word) :
    reader.step ' ' =
      { mode := .blank, pieces := [], tokens := reader.tokens ++ [.word reader.pieces] } := by
  simp [step, hmode, unquoted, isBlank, endWord]

end Reader

/-! ## Writing a line -/

namespace Reader

/-- The reader has read these tokens, the last of them perhaps not ended yet. -/
def HasRead (reader : Reader) (tokens : List Token) : Prop :=
  (reader.mode = .blank ∨ reader.mode = .word) ∧ reader.endWord = { tokens := tokens }

/-- Between two words there is nothing left over. -/
theorem hasRead_tokens (tokens : List Token) : HasRead { tokens := tokens } tokens :=
  ⟨Or.inl rfl, rfl⟩

/-- At the end of the line the tokens are complete. -/
theorem finish_of_hasRead {reader : Reader} {tokens : List Token}
    (h : reader.HasRead tokens) : reader.finish = some tokens := by
  obtain ⟨hmode | hmode, hend⟩ := h <;> simp only [endWord, hmode] at hend
  · rw [finish, hmode]
    exact congrArg (fun reader : Reader => some reader.tokens) hend
  · rw [finish, hmode]
    exact congrArg (fun reader : Reader => some reader.tokens) hend

/-- A blank ends the word. -/
theorem step_blank_of_hasRead {reader : Reader} {tokens : List Token}
    (h : reader.HasRead tokens) : reader.step ' ' = { tokens := tokens } := by
  rw [← h.2]
  rcases h.1 with hmode | hmode <;> simp [step, hmode, unquoted, isBlank]

/-- So does an operator, which becomes a token. -/
theorem step_operator_of_hasRead {reader : Reader} {tokens : List Token}
    (h : reader.HasRead tokens) {c : Char} (hoperator : isOperator c) :
    reader.step c = { tokens := tokens ++ [.operator c] } := by
  have hblank : isBlank c = false := by
    rw [isBlank, Bool.or_eq_false_iff, decide_eq_false_iff_not, decide_eq_false_iff_not]
    constructor <;> rintro rfl <;> exact absurd hoperator (by decide)
  have hcomment : c ≠ '#' := by
    rintro rfl
    exact absurd hoperator (by decide)
  have hstep : reader.step c = reader.endWord.endLine c := by
    rcases h.1 with hmode | hmode <;> simp [step, hmode, unquoted, hblank, hoperator, hcomment]
  rw [hstep, h.2]
  rfl

end Reader

/-- A character that stands for itself wherever it is in a word. -/
def isOrdinary (c : Char) : Bool :=
  !isBlank c && !isOperator c && !isExpansion c && c ∉ ['\'', '"', '\\', '#']

/-- How a word is written in a line. -/
inductive Written where
  | bare (text : List Char)
  | quoted (text : List Char)

namespace Written

/-- What the word is meant to say. -/
def text : Written → List Char
  | bare text => text
  | quoted text => text

/-- How it is written in the line. -/
def render : Written → List Char
  | bare text => text
  | quoted text => '\'' :: (text ++ ['\''])

/-- What is written is read as its text. -/
def Readable : Written → Prop
  | bare text => text ≠ [] ∧ ∀ c ∈ text, isOrdinary c
  | quoted text => '\'' ∉ text

end Written

/-- Words with a blank between each two. -/
def line : List Written → List Char
  | [] => []
  | word :: words => word.render ++ words.flatMap fun word => ' ' :: word.render

/-- Lines that are run one after the other as long as they succeed. -/
def andList : List (List Char) → List Char
  | [] => []
  | front :: lines => front ++ lines.flatMap fun next => ' ' :: '&' :: '&' :: ' ' :: next

/-- The tokens of lines with those of `&&` between each two. -/
def andTokens : List (List Token) → List Token
  | [] => []
  | front :: lines => front ++ lines.flatMap fun next => .operator '&' :: .operator '&' :: next

namespace Reader

/-- An ordinary character goes into the word. -/
theorem step_ordinary {reader : Reader} (hmode : reader.mode = .blank ∨ reader.mode = .word)
    {c : Char} (h : isOrdinary c) : reader.step c = reader.add .word (.literal c) := by
  simp only [isOrdinary, List.mem_cons, List.not_mem_nil, or_false, not_or, Bool.and_eq_true,
    Bool.not_eq_true', decide_eq_true_iff] at h
  obtain ⟨⟨⟨hblank, hoperator⟩, hexpansion⟩, hquote, hdouble, hescape, hcomment⟩ := h
  rcases hmode with hmode | hmode <;>
    simp [step, hmode, unquoted, hblank, hoperator, hexpansion, hquote, hdouble, hescape,
      hcomment]

/-- So do several. -/
theorem read_ordinary {reader : Reader} (hmode : reader.mode = .blank ∨ reader.mode = .word)
    {text : List Char} (hne : text ≠ []) (h : ∀ c ∈ text, isOrdinary c) :
    reader.read text =
      { reader with mode := .word, pieces := reader.pieces ++ text.map .literal } := by
  induction text generalizing reader with
  | nil => exact absurd rfl hne
  | cons c text ih =>
      rw [List.forall_mem_cons] at h
      rw [read_cons, step_ordinary hmode h.1]
      by_cases htext : text = []
      · subst htext
        rfl
      · rw [ih (Or.inr rfl) htext h.2]
        simp [add]

/-- A word at the start or behind a blank. -/
theorem hasRead_render {word : Written} (h : word.Readable) (tokens : List Token) :
    HasRead (Reader.read { tokens := tokens } word.render) (tokens ++ [plain word.text]) := by
  have hread : Reader.read { tokens := tokens } word.render =
      { mode := .word, pieces := word.text.map .literal, tokens := tokens } := by
    cases word with
    | bare text => exact read_ordinary (Or.inl rfl) h.1 h.2
    | quoted text => exact read_quoted (Or.inl rfl) h
  rw [hread]
  exact ⟨Or.inr rfl, rfl⟩

/-- Further words, each behind a blank. -/
theorem hasRead_words {words : List Written} (h : ∀ word ∈ words, word.Readable)
    {reader : Reader} {tokens : List Token} (hread : reader.HasRead tokens) :
    (reader.read (words.flatMap fun word => ' ' :: word.render)).HasRead
      (tokens ++ words.map fun word => plain word.text) := by
  induction words generalizing reader tokens with
  | nil => simpa using hread
  | cons word words ih =>
      rw [List.forall_mem_cons] at h
      rw [List.flatMap_cons, List.cons_append, read_cons, step_blank_of_hasRead hread,
        read_append, List.map_cons, List.append_cons]
      exact ih h.2 (hasRead_render h.1 tokens)

/-- A line of readable words is read as these words. -/
theorem hasRead_line {words : List Written} (h : ∀ word ∈ words, word.Readable)
    (tokens : List Token) :
    HasRead (Reader.read { tokens := tokens } (line words))
      (tokens ++ words.map fun word => plain word.text) := by
  cases words with
  | nil =>
      rw [List.map_nil, List.append_nil]
      exact hasRead_tokens tokens
  | cons word words =>
      rw [List.forall_mem_cons] at h
      rw [line, read_append, List.map_cons, List.append_cons]
      exact hasRead_words h.2 (hasRead_render h.1 tokens)

/-- Further lines, each behind `&&`. -/
theorem hasRead_andList {lines : List (List Written)}
    (h : ∀ words ∈ lines, ∀ word ∈ words, word.Readable) {reader : Reader}
    {tokens : List Token} (hread : reader.HasRead tokens) :
    (reader.read ((lines.map line).flatMap fun next => ' ' :: '&' :: '&' :: ' ' :: next)).HasRead
      (tokens ++ (lines.map fun words => words.map fun word => plain word.text).flatMap
        fun next => .operator '&' :: .operator '&' :: next) := by
  induction lines generalizing reader tokens with
  | nil => simpa using hread
  | cons words lines ih =>
      rw [List.forall_mem_cons] at h
      have hfront : ∀ tokens : List Token,
          Reader.read { tokens := tokens } ['&', '&', ' '] =
            { tokens := tokens ++ [.operator '&', .operator '&'] } := by
        intro tokens
        rw [read_cons, step_operator_of_hasRead (hasRead_tokens _) (by decide), read_cons,
          step_operator_of_hasRead (hasRead_tokens _) (by decide), read_cons,
          step_blank_of_hasRead (hasRead_tokens _), List.append_assoc]
        rfl
      have hnext := hasRead_line h.1 (tokens ++ [.operator '&', .operator '&'])
      have hsplit : ∀ next rest : List Char, ' ' :: '&' :: '&' :: ' ' :: next ++ rest =
          ' ' :: (['&', '&', ' '] ++ (next ++ rest)) := fun _ _ => rfl
      rw [List.map_cons, List.flatMap_cons, hsplit, read_cons, step_blank_of_hasRead hread,
        read_append, hfront, read_append]
      have hrest := ih h.2 hnext
      simpa using hrest

end Reader

/-- A line that is written is read as the texts of its words. -/
theorem tokens_line {words : List Written} (h : ∀ word ∈ words, word.Readable) :
    tokens (line words) = some (words.map fun word => plain word.text) :=
  Reader.finish_of_hasRead (Reader.hasRead_line h [])

/-- A list of commands is read as these commands. -/
theorem tokens_andList {lines : List (List Written)}
    (h : ∀ words ∈ lines, ∀ word ∈ words, word.Readable) :
    tokens (andList (lines.map line)) =
      some (andTokens (lines.map fun words => words.map fun word => plain word.text)) := by
  cases lines with
  | nil => rfl
  | cons words lines =>
      rw [List.forall_mem_cons] at h
      rw [tokens, List.map_cons, andList, Reader.read_append]
      exact Reader.finish_of_hasRead
        (Reader.hasRead_andList h.2 (Reader.hasRead_line h.1 []))

/-! ## Running a line -/

/-- The text of a word without expansions. -/
def plainText : List Piece → Option (List Char)
  | [] => some []
  | .literal c :: pieces => (plainText pieces).map (c :: ·)
  | .expansion _ :: _ => none

/-- The words of the commands that `&&` joins; `none` if there is anything else. -/
def andCommands : List Token → Option (List (List (List Char)))
  | [] => some [[]]
  | .word pieces :: tokens =>
      match plainText pieces, andCommands tokens with
      | some text, some (words :: commands) => some ((text :: words) :: commands)
      | _, _ => none
  | .operator '&' :: .operator '&' :: tokens => (andCommands tokens).map ([] :: ·)
  | .operator _ :: _ => none

section

variable {σ : Type u} (exec : List (List Char) → σ → Bool × σ)

/-- The commands one after the other, as long as they succeed. -/
def runAnd : List (List (List Char)) → σ → Bool × σ
  | [], state => (true, state)
  | words :: commands, state =>
      match exec words state with
      | (true, next) => runAnd commands next
      | (false, next) => (false, next)

/-- Whether the line succeeds, and the state after it; `none` for a line of another form. -/
def run (line : List Char) (state : σ) : Option (Bool × σ) :=
  ((tokens line).bind andCommands).map fun commands => runAnd exec commands state

end

/-- Literal pieces are plain text. -/
theorem plainText_map_literal (text : List Char) : plainText (text.map .literal) = some text := by
  induction text with
  | nil => rfl
  | cons c text ih =>
      rw [List.map_cons, plainText, ih]
      rfl

theorem andCommands_plain_cons {text : List Char} {tokens : List Token}
    {words : List (List Char)} {commands : List (List (List Char))}
    (h : andCommands tokens = some (words :: commands)) :
    andCommands (plain text :: tokens) = some ((text :: words) :: commands) := by
  rw [plain, andCommands, plainText_map_literal, h]

/-- The commands are those of which the tokens were made. -/
theorem andCommands_append (words : List (List Char)) (commands : List (List (List Char))) :
    andCommands (words.map plain ++ (commands.map fun words => words.map plain).flatMap
        fun next => .operator '&' :: .operator '&' :: next) = some (words :: commands) := by
  induction commands generalizing words with
  | nil =>
      rw [List.map_nil, List.flatMap_nil, List.append_nil]
      induction words with
      | nil => rfl
      | cons text words ih => exact andCommands_plain_cons ih
  | cons next commands ihc =>
      induction words with
      | nil =>
          rw [List.map_cons, List.flatMap_cons, List.map_nil, List.nil_append,
            List.cons_append, List.cons_append, andCommands, ihc next]
          rfl
      | cons text words ih => exact andCommands_plain_cons ih

/-- **Lines joined by `&&`** are run with the texts of their words. -/
theorem run_andList {σ : Type u} (exec : List (List Char) → σ → Bool × σ)
    {lines : List (List Written)} (hne : lines ≠ [])
    (h : ∀ words ∈ lines, ∀ word ∈ words, word.Readable) (state : σ) :
    run exec (andList (lines.map line)) state =
      some (runAnd exec (lines.map fun words => words.map (·.text)) state) := by
  obtain ⟨words, lines, rfl⟩ := List.exists_cons_of_ne_nil hne
  have hcommands := andCommands_append (words.map (·.text))
    (lines.map fun words => words.map (·.text))
  simp only [List.map_map, Function.comp_def] at hcommands
  rw [run, tokens_andList h, Option.bind_some, List.map_cons, andTokens, hcommands]
  rfl

/-! ## Characters and pieces -/

/-- The characters that a token takes at least: its pieces, and what ends a word. -/
def Token.size : Token → ℕ
  | .word pieces => pieces.length + 1
  | .operator _ => 0

/-- The pieces of all tokens, and one more for each word. -/
def size (tokens : List Token) : ℕ :=
  (tokens.map Token.size).sum

@[simp] theorem size_append (front rest : List Token) :
    size (front ++ rest) = size front + size rest := by
  simp [size]

@[simp] theorem size_singleton_word (pieces : List Piece) :
    size [.word pieces] = pieces.length + 1 := rfl

@[simp] theorem size_singleton_operator (c : Char) : size [.operator c] = 0 := rfl

namespace Reader

/-- The same for what a reader has made so far. -/
def size (reader : Reader) : ℕ :=
  reader.pieces.length + Shell.size reader.tokens

@[simp] theorem size_setMode (reader : Reader) (mode : Mode) :
    ({ reader with mode := mode } : Reader).size = reader.size := rfl

@[simp] theorem mode_add (reader : Reader) (mode : Mode) (piece : Piece) :
    (reader.add mode piece).mode = mode := rfl

@[simp] theorem size_add (reader : Reader) (mode : Mode) (piece : Piece) :
    (reader.add mode piece).size = reader.size + 1 := by
  simp [size, add]
  omega

/-- Ending a word counts one more at most. -/
theorem size_endWord (reader : Reader) : reader.endWord.size ≤ reader.size + 1 := by
  rw [endWord]
  split
  · simp [size]
    omega
  · exact Nat.le_succ _

/-- Ending a command counts nothing more. -/
theorem size_endLine (reader : Reader) (c : Char) :
    (reader.endLine c).size ≤ reader.size := by
  simp [size, endLine]

/-- The characters of a line, some of them single quotes, that have given no piece. -/
def unspent (mode : Mode) (quotes : ℕ) : ℕ :=
  match mode with
  | .escaped _ => min quotes 2 + 1
  | .double => 1
  | .doubleEscaped => 2
  | _ => min quotes 2

theorem count_quote_of_ne {c : Char} (h : c ≠ '\'') : [c].count '\'' = 0 := by
  simp [h]

/-- Outside quotes a character is a piece, ends a word, or starts what keeps others. -/
theorem size_unquoted_le {reader : Reader} (hmode : reader.mode = .blank ∨ reader.mode = .word)
    (c : Char) (quotes : ℕ) :
    (reader.unquoted c).size +
        unspent (reader.unquoted c).mode (quotes + [c].count '\'') ≤
      reader.size + unspent reader.mode quotes + 1 := by
  have hnow : unspent reader.mode quotes = min quotes 2 := by
    rcases hmode with hmode | hmode <;> rw [hmode] <;> rfl
  have hend : reader.endWord.mode = .blank := by
    rcases hmode with hmode | hmode <;> simp [endWord, hmode]
  have hword := reader.size_endWord
  rw [hnow]
  by_cases hquote : c = '\''
  · subst hquote
    have hopen : reader.unquoted '\'' = { reader with mode := .single } := by
      simp [unquoted, isBlank, isOperator]
    rw [hopen]
    simp [unspent]
    omega
  · rw [count_quote_of_ne hquote, unquoted]
    split_ifs
    · rw [hend]
      simp [unspent]
      omega
    · have hline := reader.endWord.size_endLine c
      simp only [endLine, unspent] at hline ⊢
      omega
    · simp [unspent]
    · simp [unspent, ← Nat.add_assoc]
    · simp [unspent, Nat.add_right_comm]
    · simp [unspent, Nat.add_right_comm]

/-- Each character adds one at most, with those counted that have given no piece yet. -/
theorem size_step_le (reader : Reader) (c : Char) (quotes : ℕ) :
    (reader.step c).size + unspent (reader.step c).mode (quotes + [c].count '\'') ≤
      reader.size + unspent reader.mode quotes + 1 := by
  have hcount : [c].count '\'' ≤ 1 := List.count_le_length
  cases hmode : reader.mode with
  | blank =>
      have hunquoted := size_unquoted_le (Or.inl hmode) c quotes
      by_cases hcomment : c = '#'
      · subst hcomment
        simp [step, hmode, unspent]
      · simpa only [step, hmode, if_neg hcomment] using hunquoted
  | word =>
      have hunquoted := size_unquoted_le (Or.inr hmode) c quotes
      simpa only [step, hmode] using hunquoted
  | escaped inWord =>
      by_cases hline : c = '\n'
      · subst hline
        cases inWord <;> simp [step, hmode, unspent] <;> omega
      · simp only [step, hmode, if_neg hline, size_add, mode_add, unspent]
        omega
  | single =>
      simp only [step, hmode]
      split_ifs with hquote
      · subst hquote
        simp [unspent]
        omega
      · simp [unspent, count_quote_of_ne hquote, Nat.add_right_comm]
  | double =>
      simp only [step, hmode]
      split_ifs <;> simp [unspent]
      omega
  | doubleEscaped =>
      simp only [step, hmode]
      split_ifs <;> simp [unspent]
  | comment =>
      simp only [step, hmode]
      split_ifs with hline
      · subst hline
        have hline := reader.size_endLine '\n'
        simp only [endLine, unspent] at hline ⊢
        simp
        omega
      · simp only [hmode, unspent]
        omega

/-- What a line gives and what is unspent of it are no more than its characters. -/
theorem size_read_le (reader : Reader) (line : List Char) (quotes : ℕ) :
    (reader.read line).size +
        unspent (reader.read line).mode (quotes + line.count '\'') ≤
      reader.size + unspent reader.mode quotes + line.length := by
  induction line generalizing reader quotes with
  | nil => simp
  | cons c line ih =>
      have hstep := reader.size_step_le c quotes
      have hrest := ih (reader.step c) (quotes + [c].count '\'')
      have hcount : (c :: line).count '\'' = [c].count '\'' + line.count '\'' := by
        rw [← List.count_append, List.singleton_append]
      rw [read_cons, hcount, List.length_cons, ← Nat.add_assoc]
      omega

/-- A line that ends in a single quote within or behind a word: the quote itself, and two
of those in front of it if there are as many, give no piece. -/
theorem size_finish_le {reader : Reader} (hmode : reader.mode = .word) {line : List Char}
    {tokens : List Token} (h : (reader.read (line ++ ['\''])).finish = some tokens) :
    Shell.size tokens + min (line.count '\'') 2 ≤ reader.size + line.length + 1 := by
  have hread := reader.size_read_le line 0
  rw [hmode, Nat.zero_add] at hread
  rw [read_append, read_cons, read_nil] at h
  generalize reader.read line = last at h hread
  cases hlast : last.mode with
  | blank => simp [step, hlast, unquoted, isBlank, isOperator, finish] at h
  | word => simp [step, hlast, unquoted, isBlank, isOperator, finish] at h
  | escaped inWord =>
      simp only [hlast, unspent, size] at hread
      simp only [step, hlast, finish, add] at h
      cases h
      simp [size] at hread ⊢
      omega
  | single =>
      simp only [hlast, unspent, size] at hread
      simp only [step, hlast, finish, if_true] at h
      cases h
      simp [size] at hread ⊢
      omega
  | double => simp [step, hlast, finish, add, isSubstitution] at h
  | doubleEscaped => simp [step, hlast, finish, add, isSubstitution] at h
  | comment =>
      simp only [hlast, unspent, size] at hread
      simp [step, hlast, finish] at h
      subst h
      simp only [size] at hread ⊢
      omega

end Reader

end Library.Shell
