import Verdict.FactSet.Basic

/-!
# What is wrong with a text that is no formula

Positions count characters from the start of the text.
-/

namespace Verdict

/-- Why a text cannot be read as a formula. -/
inductive ParseError where
  /-- The text is blank. -/
  | empty
  /-- A character that no token begins with. -/
  | unexpectedCharacter (c : Char) (position : Nat)
  /-- A group that is never closed. -/
  | unclosedGroup (position : Nat)
  /-- A closing parenthesis with no group to close. -/
  | unmatchedClosing (position : Nat)
  /-- The text has tokens but no number among them. -/
  | noOperands
  /-- An operand should stand at or before this position. -/
  | missingOperand (position : Nat)
  /-- An operand begins at this position where a connective should stand. -/
  | missingOperator (position : Nat)
  /-- A number is no fact. -/
  | outOfRange (refusal : OutOfRange)
  deriving DecidableEq, Repr

/-- The wording of an error. -/
def ParseError.message : ParseError → String
  | empty => "Empty expression"
  | unexpectedCharacter c position =>
      "Unexpected character '" ++ String.singleton c ++ "' at position " ++ toString position
  | unclosedGroup position => "Unclosed '(' at position " ++ toString position
  | unmatchedClosing position => "Unmatched ')' at position " ++ toString position
  | noOperands => "Expression contains no operands"
  | missingOperand position => "Expected operand at position " ++ toString position
  | missingOperator position => "Expected operator at position " ++ toString position
  | outOfRange refusal => refusal.message

end Verdict
