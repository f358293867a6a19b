import Verdict.Formula.Walk
import Verdict.Proofs.EvidenceStability

/-!
# The facts that occur in a formula

Only the facts at its leaves matter to a formula. Evidence is taken from them, it is never empty,
and two sets that have the same of them give the same evidence. `leaves` lists the facts that occur
with their repetitions, and `mem_facts` joins it to the set that a walk over the formula collects.
-/

namespace Verdict

namespace FactSet

variable {s t u r : FactSet}

theorem union_comm (s t : FactSet) : s ∪ t = t ∪ s := by
  ext f
  rw [mem_union, mem_union, or_comm]

theorem subset_inter_iff : s ⊆ t ∩ u ↔ s ⊆ t ∧ s ⊆ u := by
  simp only [subset_iff, mem_inter, imp_and, forall_and]

/-- What a part of a union shares with a set apart from the second operand lies in the first. -/
theorem inter_subset_of_subset_union (h : s ⊆ t ∪ u) (hapart : ∀ f ∈ r, f ∉ u) : s ∩ r ⊆ t := by
  rw [subset_iff] at h ⊢
  intro f hf
  obtain ⟨hs, hr⟩ := mem_inter.mp hf
  exact (mem_union.mp (h f hs)).resolve_right (hapart f hr)

/-- Two sets have the same in common with a third one when they agree on its members. -/
theorem inter_eq_inter_iff : s ∩ u = t ∩ u ↔ ∀ f ∈ u, (f ∈ s ↔ f ∈ t) := by
  constructor
  · intro h f hf
    have hmem : f ∈ s ∩ u ↔ f ∈ t ∩ u := by rw [h]
    simpa [hf] using hmem
  · intro h
    ext f
    rw [mem_inter, mem_inter]
    exact and_congr_left (h f)

theorem mem_of_subset {f : Fact} (h : s ⊆ t) (hf : f ∈ s) : f ∈ t := subset_iff.mp h f hf

theorem subset_trans (hst : s ⊆ t) (htu : t ⊆ u) : s ⊆ u := by
  rw [subset_iff] at hst htu ⊢
  exact fun f hf => htu f (hst f hf)

theorem subset_antisymm (hst : s ⊆ t) (hts : t ⊆ s) : s = t := by
  rw [subset_iff] at hst hts
  ext f
  exact ⟨hst f, hts f⟩

theorem ne_empty_of_mem {f : Fact} (h : f ∈ s) : s ≠ ∅ := by
  rintro rfl
  exact not_mem_empty f h

@[simp] theorem empty_subset (s : FactSet) : ∅ ⊆ s :=
  subset_iff.mpr fun f hf => absurd hf (not_mem_empty f)

end FactSet

namespace Formula

/-- The facts at the leaves of a formula from left to right, repetitions counted. -/
def leaves : Formula → List Fact
  | fact f => [f]
  | join _ left right => left.leaves ++ right.leaves

variable {held other used : FactSet} {f : Fact} {e : Formula}

@[simp] theorem facts_fact (f : Fact) : (fact f).facts = {f} := by
  rw [facts, Walk.run_eq_recurse]
  rfl

@[simp] theorem facts_join (c : Connective) (left right : Formula) :
    (join c left right).facts = left.facts ∪ right.facts := by
  simp only [facts, Walk.run_eq_recurse, Walk.recurse]

/-- The facts that occur in a formula are those at its leaves. -/
theorem mem_facts : f ∈ e.facts ↔ f ∈ e.leaves := by
  induction e with
  | fact g => rw [facts_fact, FactSet.mem_singleton, leaves, List.mem_singleton]
  | join c left right ihl ihr =>
      rw [facts_join, FactSet.mem_union, ihl, ihr, leaves, List.mem_append]

/-- The evidence for a formula depends on nothing but the facts that occur in it. -/
theorem evidence_congr (h : ∀ f ∈ e.facts, (f ∈ held ↔ f ∈ other)) :
    evidence held e = evidence other e := by
  induction e with
  | fact f =>
      have hf : f ∈ held ↔ f ∈ other := h f (by simp)
      simp only [evidence, hf]
  | join c left right ihl ihr =>
      have hleft : evidence held left = evidence other left :=
        ihl fun f hf => h f (by simp [hf])
      have hright : evidence held right = evidence other right :=
        ihr fun f hf => h f (by simp [hf])
      cases c <;> rw [evidence, evidence, hleft, hright]

/-- The facts that do not occur in a formula can be left out. -/
theorem evidence_inter_facts (held : FactSet) (e : Formula) :
    evidence (held ∩ e.facts) e = evidence held e := by
  apply evidence_congr
  intro f hf
  simp [hf]

/-- What a formula rests on occurs in it. -/
theorem evidence_subset_facts (h : evidence held e = some used) : used ⊆ e.facts := by
  rw [← evidence_inter_facts] at h
  exact (FactSet.subset_inter_iff.mp (evidence_subset h)).2

/-- No formula is true for nothing. -/
theorem exists_mem_of_evidence (h : evidence held e = some used) : ∃ f, f ∈ used := by
  induction e generalizing used with
  | fact f =>
      obtain ⟨-, rfl⟩ := evidence_fact_eq_some_iff.mp h
      exact ⟨f, FactSet.mem_singleton.mpr rfl⟩
  | join c left right ihl ihr =>
      cases c with
      | and =>
          obtain ⟨s, t, hs, -, rfl⟩ := evidence_and_eq_some_iff.mp h
          obtain ⟨f, hf⟩ := ihl hs
          exact ⟨f, FactSet.mem_union.mpr (.inl hf)⟩
      | or =>
          rcases evidence_or_eq_some_iff.mp h with hl | ⟨-, hr⟩
          · exact ihl hl
          · exact ihr hr

/-- Something is used exactly when the formula is true. -/
theorem isSome_evidence_iff (held : FactSet) (e : Formula) :
    (evidence held e).isSome ↔ usedFacts (evidence held e) ≠ ∅ := by
  cases h : evidence held e with
  | none => simp [usedFacts]
  | some used =>
      obtain ⟨f, hf⟩ := exists_mem_of_evidence h
      simpa [usedFacts] using FactSet.ne_empty_of_mem hf

/-- What is used occurs in the formula. -/
theorem usedFacts_evidence_subset_facts (held : FactSet) (e : Formula) :
    usedFacts (evidence held e) ⊆ e.facts := by
  cases h : evidence held e with
  | none => exact FactSet.empty_subset _
  | some used => exact evidence_subset_facts h

end Formula

end Verdict
