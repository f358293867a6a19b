/-!
# The content of a JSON string

Between its quotes a JSON string holds characters and escapes. An escape by number may name half
of a surrogate pair, so a string is first a list of units, each a character or such a half, and it
has a text only if every half stands beside its other half. A string without a text is still a
well-formed JSON string; `none` stands for its content.
-/

namespace Verdict.Json

/-- A character of a JSON string, or half of a surrogate pair. -/
inductive TextUnit where
  | char (c : Char)
  | surrogate (code : Nat)
  deriving DecidableEq, Repr

namespace TextUnit

/-- Whether a code is the first half of a surrogate pair. -/
def isHigh (code : Nat) : Bool := 0xD800 ≤ code && code < 0xDC00

/-- Whether a code is the second half of a surrogate pair. -/
def isLow (code : Nat) : Bool := 0xDC00 ≤ code && code < 0xE000

/-- The unit with a code of four hexadecimal digits. -/
def ofCode (code : Nat) : TextUnit :=
  if isHigh code || isLow code then surrogate code else char (Char.ofNat code)

/-- The character that a surrogate pair stands for. -/
def paired (high low : Nat) : Char :=
  Char.ofNat (0x10000 + (high - 0xD800) * 0x400 + (low - 0xDC00))

/-- The characters of a list of units after those found already, which are held latest first;
nothing if half of a pair stands alone. -/
def charsOnto (found : List Char) : List TextUnit → Option (List Char)
  | [] => some found.reverse
  | char c :: rest => charsOnto (c :: found) rest
  | surrogate high :: surrogate low :: rest =>
      if isHigh high && isLow low then charsOnto (paired high low :: found) rest else none
  | surrogate _ :: _ => none

/-- The text of a list of units, if no half of a pair stands alone. -/
def text? (units : List TextUnit) : Option String := (charsOnto [] units).map String.ofList

end TextUnit

/-- The two hexadecimal digits of a control character. -/
def controlDigits (c : Char) : List Char :=
  [Nat.digitChar (c.toNat / 16), Nat.digitChar (c.toNat % 16)]

/-- The form of a character in a JSON string. Quotes, backslashes and control characters are
escaped, by a letter where there is one; every other character stands for itself. -/
def escapedChar (c : Char) : List Char :=
  match c with
  | '"' => ['\\', '"']
  | '\\' => ['\\', '\\']
  | '\x08' => ['\\', 'b']
  | '\t' => ['\\', 't']
  | '\n' => ['\\', 'n']
  | '\x0c' => ['\\', 'f']
  | '\r' => ['\\', 'r']
  | c => if c.toNat < 0x20 then ['\\', 'u', '0', '0'] ++ controlDigits c else [c]

/-- The form of a string with a given content. One without a text is written as an unpaired half. -/
def writtenString : Option String → String
  | some text => String.ofList ('"' :: text.toList.flatMap escapedChar ++ ['"'])
  | none => "\"\\ud800\""

end Verdict.Json
