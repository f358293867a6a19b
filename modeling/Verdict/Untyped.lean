import Verdict.Rulebook.Compile

/-!
# Calls with unchecked arguments

A front end for callers whose arguments have no types. An argument is converted to the type that
the call asks for before the call is carried out, the elements of a list from left to right, and
the first one that cannot be converted ends the call. What goes wrong in the call itself is a fault
with the wording of the error: a key fault where the number of a rule is given twice, a value fault
everywhere else.

## Implementation notes

Reading a text here leaves the store alone, since the texts of such callers are not a known set;
rule documents go through the store.
-/

namespace Verdict.Untyped

/-- An argument of a call. -/
inductive Argument where
  | integer (n : Int)
  | text (s : String)
  | list (items : List Argument)
  | other

/-- Why a call ended without a result. -/
inductive Fault where
  /-- An integer lies outside the range of its type. -/
  | overflow
  /-- An argument is of another type. -/
  | wrongType
  | value (message : String)
  | key (message : String)
  deriving DecidableEq, Repr

namespace Fault

/-- The fault of a text that is no formula. -/
def ofParseError (e : ParseError) : Fault := value e.message

/-- The fault of rules that make no rulebook. -/
def ofRulebookError : RulebookError → Fault
  | .duplicate id => key (RulebookError.duplicate id).message
  | e => value e.message

end Fault

namespace Argument

/-- The natural number below a bound that an argument is. -/
def natBelow (bound : Nat) : Argument → Except Fault Nat
  | integer n => if 0 ≤ n ∧ n < bound then .ok n.toNat else .error .overflow
  | text _ | list _ | other => .error .wrongType

/-- The fact set that an argument is, by the number of its word. -/
def facts (a : Argument) : Except Fault FactSet :=
  (a.natBelow UInt64.size).map fun n => ⟨BitVec.ofNat FactSet.width n⟩

/-- The list of numbers below `2 ^ 32` that an argument is. -/
def ids : Argument → Except Fault (List Nat)
  | list items => items.mapM (natBelow UInt32.size)
  | integer _ | text _ | other => .error .wrongType

/-- The text that an argument is. -/
def string : Argument → Except Fault String
  | text s => .ok s
  | integer _ | list _ | other => .error .wrongType

end Argument

/-- The formula that a text stands for. -/
def parse (a : Argument) : Except Fault Formula := do
  let source ← a.string
  (Formula.parse source).mapError Fault.ofParseError

/-- The set of the facts with given numbers. -/
def mask (a : Argument) : Except Fault FactSet := do
  let ids ← a.ids
  (FactSet.ofIds ids).mapError fun refusal => .ofParseError (.outOfRange refusal)

/-- The evidence for a formula. -/
def evaluate (e : Formula) (a : Argument) : Except Fault (Option FactSet) :=
  a.facts.map fun held => e.findEvidence held

/-- Whether a formula has evidence among the given facts. -/
def isMatched (e : Formula) (a : Argument) : Except Fault Bool :=
  a.facts.map fun held => e.isMatched held

/-- The rulebook of a rule document. -/
def loadRules (a : Argument) (store : Store) : Except Fault Rulebook × Store :=
  match a.string with
  | .ok document =>
      let (result, store) := Rulebook.ofDocument document store
      (result.mapError Fault.ofRulebookError, store)
  | .error fault => (.error fault, store)

/-- The rules that hold. -/
def allMatches (book : Rulebook) (a : Argument) : Except Fault (List Match) :=
  a.facts.map fun held => book.allMatches held

/-- The first rule that holds. -/
def firstMatch? (book : Rulebook) (a : Argument) : Except Fault (Option Match) :=
  a.facts.map fun held => book.firstMatch? held

/-- The facts that the rules rest on. -/
def justification (book : Rulebook) (a : Argument) : Except Fault FactSet :=
  a.facts.map fun held => book.justification held

/-- What a caller can ask for. -/
inductive Call where
  /-- The formula of a text. -/
  | parse (source : Argument)
  /-- The set of the facts with given numbers. -/
  | mask (ids : Argument)
  /-- The evidence for a formula, as the formula's own method. -/
  | evaluate (e : Formula) (held : Argument)
  /-- Whether a formula has evidence, as the formula's own method. -/
  | method (e : Formula) (held : Argument)
  /-- Whether a formula has evidence, as a function. -/
  | function (e : Formula) (held : Argument)
  /-- The rulebook of a rule document. -/
  | loadRules (document : Argument)
  | allMatches (book : Rulebook) (held : Argument)
  | firstMatch (book : Rulebook) (held : Argument)
  | justification (book : Rulebook) (held : Argument)
  /-- The number of rules. -/
  | size (book : Rulebook)
  /-- Clear the store. -/
  | clear

/-- What a caller gets. -/
inductive Outcome where
  | formula (e : Formula)
  | facts (s : FactSet)
  | evidence (found : Option FactSet)
  | truth (b : Bool)
  | book (book : Rulebook)
  | allMatches (found : List Match)
  | firstMatch (found : Option Match)
  | size (n : Nat)
  | done

/-- Carry out a call. -/
def perform (store : Store) : Call → Except Fault Outcome × Store
  | .parse source => ((parse source).map .formula, store)
  | .mask ids => ((mask ids).map .facts, store)
  | .evaluate e held => ((evaluate e held).map .evidence, store)
  | .method e held => ((isMatched e held).map .truth, store)
  | .function e held => ((isMatched e held).map .truth, store)
  | .loadRules document =>
      let (result, store) := loadRules document store
      (result.map .book, store)
  | .allMatches book held => ((allMatches book held).map .allMatches, store)
  | .firstMatch book held => ((firstMatch? book held).map .firstMatch, store)
  | .justification book held => ((justification book held).map .facts, store)
  | .size book => (.ok (.size book.size), store)
  | .clear => (.ok .done, store.clear)

/-- How a formula is shown to the caller. -/
def showFormula (e : Formula) : String := "Expression('" ++ e.text ++ "')"

/-- How the result of an evaluation is shown to the caller, with the facts in hexadecimal. -/
def showEvidence (found : Option FactSet) : String :=
  "EvaluatedResult(matched=" ++ (if found.isSome then "True" else "False") ++ ", used_mask=0x" ++
    String.ofList (Nat.toDigits 16 (Formula.usedFacts found).toNat) ++ ")"

end Verdict.Untyped
