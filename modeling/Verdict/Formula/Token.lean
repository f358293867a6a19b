import Verdict.Formula.Basic
import Verdict.Text.Blank
import Verdict.Text.Decimal

/-!
# The tokens of a formula's text

A token is a longest run of digits, `&`, `|` or `||`, a parenthesis, or any other character that
is not blank. Blank characters separate tokens and are dropped. Every token is kept with the
position of its first character, counted in characters from the start of the text.

The text is read one character at a time. A run of digits and a single bar are the only tokens
that a later character can extend, so a scan holds at most one token back.
-/

namespace Verdict

/-- A token of a formula's text. -/
inductive Token where
  | number (value : Nat)
  | opening
  | closing
  | connective (c : Connective)
  | unknown (c : Char)
  deriving DecidableEq, Repr

/-- The largest value that a number in a text is given; larger ones count as this one. -/
def Token.ceiling : Nat := UInt64.size - 1

/-- The token of a character that is a token by itself. -/
def Token.ofChar : Char → Token
  | '(' => opening
  | ')' => closing
  | '&' => connective .and
  | c => unknown c

/-- The form of a token in a formula's text, with spaces around a connective. -/
def Token.spelling : Token → String
  | number value => toString value
  | opening => "("
  | closing => ")"
  | connective .and => " & "
  | connective .or => " | "
  | unknown c => String.singleton c

/-- A token and the position of its first character. -/
structure Lexeme where
  token : Token
  position : Nat
  deriving DecidableEq, Repr

/-- A token that the next character may still extend, with its position. -/
inductive Unfinished where
  | nothing
  | number (start value : Nat)
  | bar (start : Nat)
  deriving DecidableEq, Repr

/-- A text read up to a position. -/
structure Scan where
  position : Nat := 0
  unfinished : Unfinished := .nothing
  /-- The finished lexemes, latest first. -/
  finished : List Lexeme := []
  deriving DecidableEq, Repr

namespace Scan

/-- The lexemes read so far, latest first, if no character follows. -/
def all (s : Scan) : List Lexeme :=
  match s.unfinished with
  | .nothing => s.finished
  | .number start value => ⟨.number value, start⟩ :: s.finished
  | .bar start => ⟨.connective .or, start⟩ :: s.finished

/-- Read a character that does not extend the token before it. -/
def begin (s : Scan) (c : Char) : Scan :=
  let position := s.position + 1
  if c.isDigit then
    ⟨position, .number s.position (Text.Decimal.push Token.ceiling 0 c), s.all⟩
  else if c = '|' then
    ⟨position, .bar s.position, s.all⟩
  else if Text.isBlank c then
    ⟨position, .nothing, s.all⟩
  else
    ⟨position, .nothing, ⟨.ofChar c, s.position⟩ :: s.all⟩

/-- Read a character. -/
def next (s : Scan) (c : Char) : Scan :=
  match s.unfinished with
  | .nothing => s.begin c
  | .number start value =>
      if c.isDigit then
        ⟨s.position + 1, .number start (Text.Decimal.push Token.ceiling value c), s.finished⟩
      else s.begin c
  | .bar start =>
      if c = '|' then
        ⟨s.position + 1, .nothing, ⟨.connective .or, start⟩ :: s.finished⟩
      else s.begin c

/-- A text read to its end. -/
def ofChars (text : List Char) : Scan := text.foldl next {}

theorem position_next (s : Scan) (c : Char) : (s.next c).position = s.position + 1 := by
  unfold next begin
  repeat' split
  all_goals rfl

theorem position_ofChars (text : List Char) : (ofChars text).position = text.length := by
  have h (s : Scan) : (text.foldl next s).position = s.position + text.length := by
    induction text generalizing s with
    | nil => rfl
    | cons c rest ih =>
        rw [List.foldl_cons, ih, position_next, List.length_cons]
        omega
  simpa [ofChars] using h {}

end Scan

/-- The lexemes of a text. -/
def lexemes (text : List Char) : List Lexeme := (Scan.ofChars text).all.reverse

end Verdict
