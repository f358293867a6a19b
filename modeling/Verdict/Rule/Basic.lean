/-!
# Rules

A rule is a named formula, still as text, with a number by which it is known. The order of the
rules of a list decides which of them is found first.
-/

namespace Verdict

/-- A rule. -/
structure Rule where
  id : UInt32
  name : String
  description : String := ""
  /-- The text of the rule's formula. -/
  expression : String
  deriving DecidableEq, Repr

end Verdict
