import Verdict.Json.Text

/-!
# The tokens of a JSON document

A document is read one character at a time. A scan holds the tokens that are finished and, between
two of them, what has been read of the next one. Numbers are kept as they are written, so they may
be of any size; blanks are the four characters that JSON allows between tokens.
-/

namespace Verdict.Json

/-- A token of a JSON document. -/
inductive Token where
  | openArray
  | closeArray
  | openObject
  | closeObject
  | colon
  | comma
  | null
  | bool (b : Bool)
  | number (literal : String)
  | string (content : Option String)
  deriving DecidableEq, Repr

/-- How far a number has been read. -/
inductive NumberPart where
  /-- A minus sign, and no digit yet. -/
  | sign
  /-- A zero that is the whole integer part. -/
  | zero
  /-- An integer part that more digits may extend. -/
  | integer
  /-- A decimal point, and no digit after it yet. -/
  | point
  | fraction
  /-- The mark of an exponent, and neither sign nor digit after it yet. -/
  | mark
  /-- The sign of an exponent, and no digit after it yet. -/
  | markSign
  | exponent
  deriving DecidableEq, Repr

namespace NumberPart

/-- The part that a first character begins. -/
def start? (c : Char) : Option NumberPart :=
  if c = '-' then some sign
  else if c = '0' then some zero
  else if c.isDigit then some integer
  else none

/-- The part of a number after one more character, if the character belongs to the number. -/
def next? : NumberPart → Char → Option NumberPart
  | sign, c => if c = '0' then some zero else if c.isDigit then some integer else none
  | zero, c => if c = '.' then some point else if c = 'e' ∨ c = 'E' then some mark else none
  | integer, c =>
      if c.isDigit then some integer
      else if c = '.' then some point
      else if c = 'e' ∨ c = 'E' then some mark
      else none
  | point, c => if c.isDigit then some fraction else none
  | fraction, c =>
      if c.isDigit then some fraction else if c = 'e' ∨ c = 'E' then some mark else none
  | mark, c =>
      if c = '+' ∨ c = '-' then some markSign else if c.isDigit then some exponent else none
  | markSign, c => if c.isDigit then some exponent else none
  | exponent, c => if c.isDigit then some exponent else none

/-- Whether a number may end here. -/
def complete : NumberPart → Bool
  | zero | integer | fraction | exponent => true
  | sign | point | mark | markSign => false

end NumberPart

/-- What has been read of a token that is not finished. Characters and units are held latest
first. -/
inductive Partial where
  /-- Nothing: the next character is a blank or begins a token. -/
  | nothing
  /-- The beginning of a word, with the characters that have to follow. -/
  | word (rest : List Char) (token : Token)
  | number (part : NumberPart) (read : List Char)
  | string (units : List TextUnit)
  /-- A string up to a backslash. -/
  | escape (units : List TextUnit)
  /-- A string up to an escape by number, with the number of digits that have to follow. -/
  | code (units : List TextUnit) (missing value : Nat)
  deriving DecidableEq, Repr

/-- A document read up to some character. -/
structure Scan where
  reading : Partial := .nothing
  /-- The finished tokens, latest first. -/
  finished : List Token := []
  deriving DecidableEq, Repr

/-- Whether a character may stand between tokens. -/
def isBlank (c : Char) : Bool := c = ' ' || c = '\t' || c = '\n' || c = '\r'

/-- The value of a hexadecimal digit. -/
def hexDigit? (c : Char) : Option Nat :=
  if c.isDigit then some (c.toNat - '0'.toNat)
  else if 'a' ≤ c ∧ c ≤ 'f' then some (c.toNat - 'a'.toNat + 10)
  else if 'A' ≤ c ∧ c ≤ 'F' then some (c.toNat - 'A'.toNat + 10)
  else none

/-- The character that an escape by letter stands for. -/
def escapeLetter? : Char → Option Char
  | '"' => some '"'
  | '\\' => some '\\'
  | '/' => some '/'
  | 'b' => some '\x08'
  | 'f' => some '\x0c'
  | 'n' => some '\n'
  | 'r' => some '\r'
  | 't' => some '\t'
  | _ => none

namespace Scan

/-- Add a finished token. -/
def emit (finished : List Token) (token : Token) : Scan := ⟨.nothing, token :: finished⟩

/-- Read a character that stands between tokens or begins one. -/
def begin (finished : List Token) (c : Char) : Option Scan :=
  match c with
  | '[' => some (emit finished .openArray)
  | ']' => some (emit finished .closeArray)
  | '\x7b' => some (emit finished .openObject)
  | '\x7d' => some (emit finished .closeObject)
  | ':' => some (emit finished .colon)
  | ',' => some (emit finished .comma)
  | '"' => some ⟨.string [], finished⟩
  | 'n' => some ⟨.word ['u', 'l', 'l'] .null, finished⟩
  | 't' => some ⟨.word ['r', 'u', 'e'] (.bool true), finished⟩
  | 'f' => some ⟨.word ['a', 'l', 's', 'e'] (.bool false), finished⟩
  | c =>
      if isBlank c then some ⟨.nothing, finished⟩
      else (NumberPart.start? c).map fun part => ⟨.number part [c], finished⟩

/-- The token of a number from its characters, latest first. -/
def numberToken (read : List Char) : Token := .number (String.ofList read.reverse)

/-- Read a character. -/
def next (s : Scan) (c : Char) : Option Scan :=
  match s.reading with
  | .nothing => begin s.finished c
  | .word [] token => begin (token :: s.finished) c
  | .word (d :: rest) token => if c = d then some { s with reading := .word rest token } else none
  | .number part read =>
      match part.next? c with
      | some part => some { s with reading := .number part (c :: read) }
      | none => if part.complete then begin (numberToken read :: s.finished) c else none
  | .string units =>
      if c = '"' then some (emit s.finished (.string (TextUnit.text? units.reverse)))
      else if c = '\\' then some { s with reading := .escape units }
      else if c.toNat < 0x20 then none
      else some { s with reading := .string (.char c :: units) }
  | .escape units =>
      if c = 'u' then some { s with reading := .code units 4 0 }
      else (escapeLetter? c).map fun d => { s with reading := .string (.char d :: units) }
  | .code units missing value =>
      (hexDigit? c).map fun digit =>
        let value := 16 * value + digit
        if missing = 1 then { s with reading := .string (.ofCode value :: units) }
        else { s with reading := .code units (missing - 1) value }

/-- The tokens of a document that has been read to its end. -/
def all? (s : Scan) : Option (List Token) :=
  match s.reading with
  | .nothing => some s.finished.reverse
  | .word [] token => some (token :: s.finished).reverse
  | .number part read =>
      if part.complete then some (numberToken read :: s.finished).reverse else none
  | .word (_ :: _) _ | .string _ | .escape _ | .code _ _ _ => none

end Scan

/-- The tokens of a document, if it is made of tokens and blanks. -/
def tokens? (document : List Char) : Option (List Token) :=
  (document.foldlM Scan.next {}).bind Scan.all?

end Verdict.Json
