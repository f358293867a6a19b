import Verdict.Text.Blank

/-!
# Quoted text

Text between double quotes, on one line and without a character that a reader could overlook: a
quote and a backslash stand behind a backslash, and of the blank characters only the space stands
for itself.
-/

namespace Verdict.Text

/-- The form of a character between double quotes. -/
def quotedChar (c : Char) : List Char :=
  match c with
  | '\t' => ['\\', 't']
  | '\n' => ['\\', 'n']
  | '\r' => ['\\', 'r']
  | '"' => ['\\', '"']
  | '\\' => ['\\', '\\']
  | ' ' => [' ']
  | c =>
      if isBlank c then ['\\', 'u', '\x7b'] ++ Nat.toDigits 16 c.toNat ++ ['\x7d'] else [c]

/-- A text between double quotes. -/
def quoted (text : String) : String :=
  String.ofList (['"'] ++ text.toList.flatMap quotedChar ++ ['"'])

end Verdict.Text
