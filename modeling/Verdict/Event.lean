import Verdict.Formula.ParseError
import Verdict.Formula.Rendering
import Verdict.Text.Quoted

/-!
# Events

What the library reports of its work while it runs: formulas that enter the store, and rules that
are compiled or rejected.
-/

namespace Verdict

/-- Something worth reporting. -/
inductive Event where
  /-- A formula entered the store under its text. -/
  | cached (source : String) (formula : Formula)
  /-- This many rules were compiled. -/
  | compiled (count : Nat)
  /-- A rule was rejected because of its text. -/
  | rejected (id : UInt32) (name : String) (cause : ParseError)

/-- How much attention an event calls for. -/
inductive Event.Level where
  | debug
  | warning
  deriving DecidableEq, Repr

namespace Event

/-- The level of an event. -/
def level : Event → Level
  | cached _ _ => .debug
  | compiled _ => .debug
  | rejected _ _ _ => .warning

/-- The wording of an event. -/
def message : Event → String
  | cached source formula =>
      "cached expression " ++ Text.quoted source ++ " as `" ++ formula.text ++ "`"
  | compiled count => "compiled rule set with " ++ toString count ++ " rules"
  | rejected id name cause =>
      "rule " ++ toString id.toNat ++ " (" ++ name ++ ") rejected: " ++ cause.message

end Event

end Verdict
