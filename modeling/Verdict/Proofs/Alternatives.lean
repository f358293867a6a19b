import Verdict.Proofs.EvidenceStability
import Verdict.Proofs.ShortCircuit

/-!
# The alternatives of a formula

A formula is true when all facts of one of its alternatives hold. The alternatives stand in an
order: those of an `or` are the ones of its left operand and then those of the right one, and those
of an `and` join each alternative of the left operand with each of the right one, all pairs with
the first left alternative before those with the second. Evidence is looked for without this list,
which can be exponentially longer than the formula, but what is found is its first member that
holds.
-/

namespace Verdict.Formula

/-- The sets of facts that make a formula true, in the order in which evidence prefers them. -/
def alternatives : Formula → List FactSet
  | .fact f => [{f}]
  | .join .or left right => left.alternatives ++ right.alternatives
  | .join .and left right =>
      left.alternatives.flatMap fun used => right.alternatives.map fun more => used ∪ more

variable (held : FactSet)

/-- Joined to facts that hold, the first set that holds is the one that is first alone. -/
theorem find?_map_union (used : FactSet) (sets : List FactSet) :
    (sets.map fun more => used ∪ more).find? (fun s => s ⊆ held) =
      if used ⊆ held then (sets.find? fun s => s ⊆ held).map fun more => used ∪ more
      else none := by
  rw [List.find?_map]
  split
  · next hused =>
      congr 2
      funext more
      simp [FactSet.union_subset_iff, hused]
  · next hused =>
      have hnone : sets.find? ((fun s => decide (s ⊆ held)) ∘ fun more => used ∪ more) = none := by
        rw [List.find?_eq_none]
        intro more _
        simp [FactSet.union_subset_iff, hused]
      rw [hnone, Option.map_none]

/-- The first pair of sets that both hold is the pair of the first sets that hold. -/
theorem find?_unions (lefts rights : List FactSet) :
    (lefts.flatMap fun used => rights.map fun more => used ∪ more).find? (fun s => s ⊆ held) =
      (lefts.find? fun s => s ⊆ held).bind fun used =>
        (rights.find? fun s => s ⊆ held).map fun more => used ∪ more := by
  induction lefts with
  | nil => rfl
  | cons used rest ih =>
      rw [List.flatMap_cons, List.find?_append, find?_map_union, ih]
      by_cases hused : used ⊆ held
      · rw [if_pos hused, List.find?_cons_of_pos (by simpa using hused)]
        -- If no set on the right holds, no later set on the left helps.
        cases rights.find? fun s => s ⊆ held with
        | none => simp
        | some more => rfl
      · rw [if_neg hused, List.find?_cons_of_neg (by simpa using hused), Option.none_or]

theorem evidence_eq_find? (e : Formula) :
    evidence held e = e.alternatives.find? fun s => s ⊆ held := by
  induction e with
  | fact f =>
      rw [evidence, alternatives, List.find?_singleton]
      simp [FactSet.singleton_subset_iff]
  | join c left right ihl ihr =>
      cases c with
      | and =>
          rw [alternatives, find?_unions, evidence, ihl, ihr]
          cases left.alternatives.find? fun s => s ⊆ held with
          | none => rfl
          | some used => cases right.alternatives.find? fun s => s ⊆ held <;> rfl
      | or =>
          rw [alternatives, List.find?_append, evidence, ihl, ihr]
          exact Option.orElse_eq_or

/-- The evidence for a formula is the first of its alternatives that lies among the facts that hold,
and a formula without such an alternative is false. -/
theorem findEvidence_first_alternative (e : Formula) :
    findEvidence held e = e.alternatives.find? (fun s => s ⊆ held) ∧
      verdict (findEvidence held e) =
        match e.alternatives.find? fun s => s ⊆ held with
        | some used => (true, used.toNat)
        | none => (false, 0) := by
  have hfind : findEvidence held e = e.alternatives.find? fun s => s ⊆ held := calc
    findEvidence held e = evidence held e := findEvidence_eq_evidence held e
    _ = e.alternatives.find? fun s => s ⊆ held := evidence_eq_find? held e
  refine ⟨hfind, ?_⟩
  rw [hfind]
  cases e.alternatives.find? fun s => s ⊆ held with
  | none => rfl
  | some used => rfl

/-- In `(1 | 2) & (3 | 4)` the right operand changes before the left one does. -/
example :
    (join .and (.join .or (.fact 1) (.fact 2)) (.join .or (.fact 3) (.fact 4))).alternatives =
      [{1, 3}, {1, 4}, {2, 3}, {2, 4}] := rfl

end Verdict.Formula
