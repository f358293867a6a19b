import Mathlib.Data.List.Basic
import Verdict.Proofs.EvidenceStability
import Verdict.Rulebook.Basic

/-!
# The justification stands for the facts that hold

The justification of a rulebook is a set of facts that all hold, and it contains what each rule
that holds rests on. So no rule can tell it from the facts that hold: what one rule used is no more
than some further facts for every other rule, and facts that are not used change nothing.
-/

namespace Verdict.Rulebook

variable (held : FactSet) (book : Rulebook)

theorem mem_foldl_union {α : Type} (g : α → FactSet) (items : List α) (s : FactSet) (f : Fact) :
    f ∈ items.foldl (fun t x => t ∪ g x) s ↔ f ∈ s ∨ ∃ x ∈ items, f ∈ g x := by
  induction items generalizing s with
  | nil => simp
  | cons x rest ih =>
      rw [List.foldl_cons, ih, FactSet.mem_union, or_assoc]
      simp only [List.mem_cons, exists_eq_or_imp]

theorem mem_justification {f : Fact} :
    f ∈ book.justification held ↔
      ∃ clause ∈ book.toList, f ∈ Formula.usedFacts (clause.evidence held) := by
  rw [justification, mem_foldl_union]
  simp

theorem justification_subset : book.justification held ⊆ held := by
  rw [FactSet.subset_iff]
  intro f hf
  obtain ⟨clause, -, hused⟩ := (mem_justification held book).mp hf
  exact FactSet.subset_iff.mp (Formula.usedFacts_findEvidence_subset held _) f hused

/-- Every rule has the same evidence for the justification as for the facts that hold. -/
theorem evidence_justification {clause : Clause} (h : clause ∈ book.toList) :
    clause.evidence (book.justification held) = clause.evidence held := by
  apply Formula.findEvidence_eq_of_subset
  · rw [FactSet.subset_iff]
    intro f hf
    exact (mem_justification held book).mpr ⟨clause, h, hf⟩
  · exact justification_subset held book

theorem match?_justification {clause : Clause} (h : clause ∈ book.toList) :
    clause.match? (book.justification held) = clause.match? held := by
  rw [Clause.match?, Clause.match?, evidence_justification held book h]

theorem allMatches_justification :
    book.allMatches (book.justification held) = book.allMatches held :=
  List.filterMap_congr fun _ h => match?_justification held book h

/-- The first rule that holds is the first of those that hold. -/
theorem firstMatch?_eq_head? : book.firstMatch? held = (book.allMatches held).head? :=
  (List.head?_filterMap ..).symm

theorem justification_justification :
    book.justification (book.justification held) = book.justification held := by
  ext f
  rw [mem_justification, mem_justification]
  apply exists_congr
  intro clause
  apply and_congr_right
  intro h
  rw [evidence_justification held book h]

/-- The justification lies among the facts that hold, and a rulebook gives the same matches, the
same first match and the same justification for it. -/
theorem justification_replays :
    book.justification held ⊆ held ∧
      book.allMatches (book.justification held) = book.allMatches held ∧
      book.firstMatch? (book.justification held) = book.firstMatch? held ∧
      book.justification (book.justification held) = book.justification held := by
  refine ⟨justification_subset held book, allMatches_justification held book, ?_,
    justification_justification held book⟩
  rw [firstMatch?_eq_head?, firstMatch?_eq_head?, allMatches_justification]

end Verdict.Rulebook
