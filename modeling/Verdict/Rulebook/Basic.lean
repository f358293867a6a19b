import Std.Data.TreeMap
import Verdict.Formula.Evidence
import Verdict.Rule.Basic
import Verdict.Store

/-!
# Rulebooks

A rulebook holds rules together with their formulas, in the order in which they were declared, and
an index from the number of a rule to its place. It answers which rules hold for given facts, which
is the first of them, and which facts the rules that hold rest on.
-/

namespace Verdict

/-- A rule with its formula. -/
structure Clause where
  rule : Rule
  shared : Shared

namespace Clause

variable (held : FactSet) (clause : Clause)

/-- The evidence for a rule. -/
def evidence : Option FactSet := clause.shared.formula.findEvidence held

end Clause

/-- A rule that holds, and the facts it rests on. -/
structure Match where
  id : UInt32
  name : String
  used : FactSet
  deriving DecidableEq, Repr

/-- The rule's match, if the rule holds. -/
def Clause.match? (held : FactSet) (clause : Clause) : Option Match :=
  (clause.evidence held).map fun used => ⟨clause.rule.id, clause.rule.name, used⟩

/-- Rules with their formulas, in the order of declaration. -/
structure Rulebook where
  clauses : Array Clause := #[]
  /-- The place of every rule, by its number. -/
  index : Std.TreeMap UInt32 Nat := ∅

namespace Rulebook

variable (held : FactSet) (book : Rulebook)

/-- Add a rule at the end. -/
def add (clause : Clause) : Rulebook where
  clauses := book.clauses.push clause
  index := book.index.insert clause.rule.id book.clauses.size

/-- The number of rules. -/
def size : Nat := book.clauses.size

/-- The rules in the order of declaration. -/
def toList : List Clause := book.clauses.toList

/-- The rule with a given number. -/
def get? (id : UInt32) : Option Clause :=
  match book.index[id]? with
  | some place => book.clauses[place]?
  | none => none

/-- The rules that hold, in the order of declaration. -/
def allMatches : List Match := book.toList.filterMap (Clause.match? held)

/-- The first rule that holds. -/
def firstMatch? : Option Match := book.toList.findSome? (Clause.match? held)

/-- The facts that the rules rest on. -/
def justification : FactSet :=
  book.toList.foldl (fun used clause => used ∪ Formula.usedFacts (clause.evidence held)) ∅

end Rulebook

end Verdict
