import Verdict.Formula.Walk

/-!
# Evidence for a formula

Given the facts that hold, a formula that is true has evidence: facts among them that make it
true. A true fact is its own evidence, `and` needs the evidence of both operands, and `or` is
content with that of the left operand and looks at the right one only when the left one is false.
`evidence` says so by recursion; `findEvidence` is what runs, a walk that leaves the right operand
alone as soon as the left one settles the matter, and `findEvidence_eq_evidence` joins the two.
-/

namespace Verdict.Formula

variable (held : FactSet)

/-- The evidence for a formula, by recursion on its operands. -/
def evidence : Formula → Option FactSet
  | .fact f => if f ∈ held then some {f} else none
  | .join .and left right => do
      let used ← evidence left
      let more ← evidence right
      return used ∪ more
  | .join .or left right => evidence left <|> evidence right

/-- When the evidence found for the left operand settles a joined formula, and how. -/
def settled : Connective → Option FactSet → Option (Option FactSet)
  | .and, none => some none
  | .and, some _ => none
  | .or, none => none
  | .or, some used => some (some used)

/-- The evidence for a joined formula whose right operand had to be visited. -/
def combined : Connective → Option FactSet → Option FactSet → Option FactSet
  | .and, some used, some more => some (used ∪ more)
  | .and, _, _ => none
  | .or, _, right => right

/-- The walk that finds the evidence for a formula. -/
def evidenceWalk : Walk (Option FactSet) where
  leaf := fun f => if f ∈ held then some {f} else none
  shortcut := settled
  join := combined

/-- The evidence for a formula. -/
def findEvidence (e : Formula) : Option FactSet := (evidenceWalk held).run e

theorem findEvidence_eq_evidence (e : Formula) : findEvidence held e = evidence held e := by
  rw [findEvidence, Walk.run_eq_recurse]
  induction e with
  | fact f => rfl
  | join c left right ihl ihr =>
      simp only [Walk.recurse, evidenceWalk] at ihl ihr ⊢
      simp only [ihl, ihr]
      cases c <;> cases hl : evidence held left <;> cases hr : evidence held right <;>
        simp [settled, combined, evidence, hl, hr]

/-- The facts that a result rests on; none if nothing was found. -/
def usedFacts (found : Option FactSet) : FactSet := found.getD ∅

/-- Whether a formula has evidence and all of it lies among the facts that hold. -/
def isMatched (e : Formula) : Bool :=
  match findEvidence held e with
  | some used => decide (used ⊆ held)
  | none => false

end Verdict.Formula
