import Verdict.Proofs.OccurringFacts

/-!
# Evidence without a fact too many

If no fact stands at two leaves of a formula, the evidence for it is minimal: with any of its facts
taken away the formula is false. The operands of a connective then have no fact in common. So an
`and` takes the facts of each operand from that operand's own evidence, and an `or` that rests on
one operand cannot be true for the other one.

A repeated fact can make the evidence larger than it has to be, since an `or` looks at its left
operand first.
-/

namespace Verdict.Formula

variable {held few used more s t : FactSet} {c : Connective} {left right e other : Formula}
  {f : Fact}

/-- If no fact is repeated, no fact occurs in both operands. -/
theorem not_mem_facts_of_nodup (hdistinct : (join c left right).leaves.Nodup)
    (hleft : f ∈ left.facts) : f ∉ right.facts := by
  intro hright
  obtain ⟨-, -, hapart⟩ := List.nodup_append.mp hdistinct
  exact hapart f (mem_facts.mp hleft) f (mem_facts.mp hright) rfl

/-- The facts of one operand that come from the evidence for both come from its own evidence, if the
other operand has none of them. -/
theorem share_subset (hsub : few ⊆ s ∪ t) (ht : evidence held other = some t)
    (hapart : ∀ f ∈ e.facts, f ∉ other.facts) : few ∩ e.facts ⊆ s := by
  apply FactSet.inter_subset_of_subset_union hsub
  intro f hf hft
  exact hapart f hf (FactSet.mem_of_subset (evidence_subset_facts ht) hft)

/-- Facts of the evidence for a formula that make the formula true are all the facts of the
evidence. -/
theorem subset_of_evidence (hdistinct : e.leaves.Nodup) (h : evidence held e = some used)
    (hsub : few ⊆ used) (hfew : evidence few e = some more) : used ⊆ few := by
  induction e generalizing few used more with
  | fact f =>
      obtain ⟨-, rfl⟩ := evidence_fact_eq_some_iff.mp h
      obtain ⟨hf, -⟩ := evidence_fact_eq_some_iff.mp hfew
      exact FactSet.singleton_subset_iff.mpr hf
  | join c left right ihl ihr =>
      obtain ⟨hdleft, hdright, -⟩ := List.nodup_append.mp hdistinct
      cases c with
      | and =>
          obtain ⟨s, t, hs, ht, rfl⟩ := evidence_and_eq_some_iff.mp h
          obtain ⟨s', t', hs', ht', -⟩ := evidence_and_eq_some_iff.mp hfew
          rw [← evidence_inter_facts] at hs' ht'
          -- Each operand is true for its own share of the facts, which lies in its own evidence.
          have hsshare : few ∩ left.facts ⊆ s :=
            share_subset hsub ht fun f => not_mem_facts_of_nodup hdistinct
          have htshare : few ∩ right.facts ⊆ t := by
            rw [FactSet.union_comm] at hsub
            apply share_subset hsub hs
            intro f hright hleft
            exact not_mem_facts_of_nodup hdistinct hleft hright
          rw [FactSet.union_subset_iff]
          constructor
          · exact (FactSet.subset_inter_iff.mp (ihl hdleft hs hsshare hs')).1
          · exact (FactSet.subset_inter_iff.mp (ihr hdright ht htshare ht')).1
      | or =>
          rcases evidence_or_eq_some_iff.mp h with hl | ⟨hl, hr⟩
          · rcases evidence_or_eq_some_iff.mp hfew with hl' | ⟨-, hr'⟩
            · exact ihl hdleft hl hsub hl'
            · -- The right operand would be true for a fact of the left one.
              obtain ⟨f, hf⟩ := exists_mem_of_evidence hr'
              have hright := FactSet.mem_of_subset (evidence_subset_facts hr') hf
              have hmem := FactSet.mem_of_subset (evidence_subset hr') hf
              have hused := FactSet.mem_of_subset hsub hmem
              have hleft := FactSet.mem_of_subset (evidence_subset_facts hl) hused
              exact absurd hright (not_mem_facts_of_nodup hdistinct hleft)
          · -- An operand that was false stays false with fewer facts.
            have hheld : few ⊆ held := FactSet.subset_trans hsub (evidence_subset hr)
            rcases evidence_or_eq_some_iff.mp hfew with hl' | ⟨-, hr'⟩
            · rw [evidence_eq_none_of_subset hheld hl] at hl'
              contradiction
            · exact ihr hdright hr hsub hr'

/-- If no fact stands at two leaves, the evidence for a formula is minimal: the formula is false
whenever only some of the facts of its evidence hold. -/
theorem findEvidence_minimal (hdistinct : e.leaves.Nodup) (h : findEvidence held e = some used) :
    ∀ few, few ⊆ used → few ≠ used → findEvidence few e = none := by
  simp only [findEvidence_eq_evidence] at h ⊢
  intro few hsub hne
  cases hfew : evidence few e with
  | none => rfl
  | some more =>
      have hall : used ⊆ few := subset_of_evidence hdistinct h hsub hfew
      exact absurd (FactSet.subset_antisymm hsub hall) hne

/-- The evidence for `(1 | 2) & (3 | 4 & 5)` has three facts when fact 3 does not hold, and none of
them is enough without the others. -/
theorem findEvidence_minimal_three :
    let e : Formula := .join .and (.join .or (.fact 1) (.fact 2))
      (.join .or (.fact 3) (.join .and (.fact 4) (.fact 5)))
    e.leaves.Nodup ∧ findEvidence {2, 4, 5, 6} e = some {2, 4, 5} ∧
      findEvidence {4, 5} e = none ∧ findEvidence {2, 5} e = none ∧
      findEvidence {2, 4} e = none := by
  intro e
  have hdistinct : e.leaves.Nodup := by decide
  have h : findEvidence {2, 4, 5, 6} e = some {2, 4, 5} := by
    rw [findEvidence_eq_evidence]
    decide
  have hfalse := findEvidence_minimal hdistinct h
  refine ⟨hdistinct, h, ?_, ?_, ?_⟩
  · exact hfalse {4, 5} (by decide) (by decide)
  · exact hfalse {2, 5} (by decide) (by decide)
  · exact hfalse {2, 4} (by decide) (by decide)

/-- In `(1 | 2) & 2` a fact is repeated, and fact 1 is used although fact 2 would do. -/
example :
    let e : Formula := .join .and (.join .or (.fact 1) (.fact 2)) (.fact 2)
    evidence {1, 2} e = some {1, 2} ∧ evidence {2} e = some {2} := by decide

end Verdict.Formula
