import Verdict.Json.Value
import Verdict.Rulebook.Basic

/-!
# Results in writing

Results of evaluations and matches have a compact JSON form, in which a fact set is the number of
its word. Facts and formulas have a form for diagnostics.
-/

namespace Verdict

/-- The JSON form of the result of an evaluation. -/
def Formula.evidenceValue (found : Option FactSet) : Json.Value :=
  .ofFields [("matched", .bool found.isSome), ("used_mask", .ofNat (usedFacts found).toNat)]

/-- The JSON form of a match. -/
def Match.toValue (m : Match) : Json.Value :=
  .ofFields
    [("id", .ofNat m.id.toNat), ("name", .ofString m.name), ("used_mask", .ofNat m.used.toNat)]

/-- How a formula is shown in a diagnostic. -/
def Formula.inspect (e : Formula) : String := "Expression(" ++ e.text ++ ")"

/-- How a fact is shown in a diagnostic, with the word of the set that holds just this fact. -/
def Fact.inspect (f : Fact) : String :=
  "Proposition \x7b id: " ++ toString f.val ++ ", mask: " ++
    toString ({f} : FactSet).toNat ++ " \x7d"

/-- The numbers that stand for a fact, for hashing: its own and the word of the set that holds
just this fact. -/
def Fact.code (f : Fact) : List Nat := [f.val, ({f} : FactSet).toNat]

end Verdict
