import Verdict.Formula.Evidence

/-!
# Evidence does not depend on facts it does not use

The evidence for a formula lies among the facts that hold, more facts never make a true formula
false, and facts that were not used can be taken away without any change. The last is more than the
first two: with fewer facts an earlier operand of an `or` might have become true, but an operand
that was passed over as false stays false.
-/

namespace Verdict

namespace FactSet

variable {s t u : FactSet}

theorem singleton_subset_iff {f : Fact} : {f} ⊆ t ↔ f ∈ t := by
  simp [subset_iff]

theorem union_subset_iff : s ∪ t ⊆ u ↔ s ⊆ u ∧ t ⊆ u := by
  simp only [subset_iff, mem_union, or_imp, forall_and]

end FactSet

namespace Formula

variable {held few many used : FactSet} {f : Fact} {left right e : Formula}

theorem evidence_fact_eq_some_iff :
    evidence held (.fact f) = some used ↔ f ∈ held ∧ used = {f} := by
  rw [evidence]
  split
  · next hf => simp [hf, eq_comm]
  · next hf => simp [hf]

theorem evidence_and_eq_some_iff :
    evidence held (.join .and left right) = some used ↔
      ∃ s t, evidence held left = some s ∧ evidence held right = some t ∧ used = s ∪ t := by
  rw [evidence]
  cases evidence held left with
  | none => simp
  | some s =>
      cases evidence held right with
      | none => simp
      | some t => simp [eq_comm]

theorem evidence_or_eq_some_iff :
    evidence held (.join .or left right) = some used ↔
      evidence held left = some used ∨
        evidence held left = none ∧ evidence held right = some used := by
  rw [evidence]
  cases evidence held left with
  | none => simp
  | some s => simp

/-- What a formula rests on holds. -/
theorem evidence_subset (h : evidence held e = some used) : used ⊆ held := by
  induction e generalizing used with
  | fact f =>
      obtain ⟨hf, rfl⟩ := evidence_fact_eq_some_iff.mp h
      exact FactSet.singleton_subset_iff.mpr hf
  | join c left right ihl ihr =>
      cases c with
      | and =>
          obtain ⟨s, t, hs, ht, rfl⟩ := evidence_and_eq_some_iff.mp h
          exact FactSet.union_subset_iff.mpr ⟨ihl hs, ihr ht⟩
      | or =>
          rcases evidence_or_eq_some_iff.mp h with hl | ⟨-, hr⟩
          · exact ihl hl
          · exact ihr hr

/-- A formula that is true stays true with more facts. -/
theorem exists_evidence_of_subset (hsub : few ⊆ many) (h : evidence few e = some used) :
    ∃ more, evidence many e = some more := by
  induction e generalizing used with
  | fact f =>
      obtain ⟨hf, -⟩ := evidence_fact_eq_some_iff.mp h
      exact ⟨{f}, evidence_fact_eq_some_iff.mpr ⟨FactSet.subset_iff.mp hsub f hf, rfl⟩⟩
  | join c left right ihl ihr =>
      cases c with
      | and =>
          obtain ⟨s, t, hs, ht, -⟩ := evidence_and_eq_some_iff.mp h
          obtain ⟨s', hs'⟩ := ihl hs
          obtain ⟨t', ht'⟩ := ihr ht
          exact ⟨s' ∪ t', evidence_and_eq_some_iff.mpr ⟨s', t', hs', ht', rfl⟩⟩
      | or =>
          cases hleft : evidence many left with
          | some s => exact ⟨s, evidence_or_eq_some_iff.mpr (.inl hleft)⟩
          | none =>
              rcases evidence_or_eq_some_iff.mp h with hl | ⟨-, hr⟩
              · obtain ⟨s, hs⟩ := ihl hl
                exact absurd (hs.symm.trans hleft) (by simp)
              · obtain ⟨t, ht⟩ := ihr hr
                exact ⟨t, evidence_or_eq_some_iff.mpr (.inr ⟨hleft, ht⟩)⟩

/-- A formula that is false stays false with fewer facts. -/
theorem evidence_eq_none_of_subset (hsub : few ⊆ many) (h : evidence many e = none) :
    evidence few e = none := by
  cases hfew : evidence few e with
  | none => rfl
  | some used =>
      obtain ⟨more, hmore⟩ := exists_evidence_of_subset hsub hfew
      exact absurd (hmore.symm.trans h) (by simp)

/-- As long as the facts that were used remain, the evidence stays the same. -/
theorem evidence_eq_some_of_subset (h : evidence held e = some used) (hlow : used ⊆ few)
    (hhigh : few ⊆ held) : evidence few e = some used := by
  induction e generalizing used with
  | fact f =>
      obtain ⟨-, rfl⟩ := evidence_fact_eq_some_iff.mp h
      exact evidence_fact_eq_some_iff.mpr ⟨FactSet.singleton_subset_iff.mp hlow, rfl⟩
  | join c left right ihl ihr =>
      cases c with
      | and =>
          obtain ⟨s, t, hs, ht, rfl⟩ := evidence_and_eq_some_iff.mp h
          obtain ⟨hslow, htlow⟩ := FactSet.union_subset_iff.mp hlow
          exact evidence_and_eq_some_iff.mpr ⟨s, t, ihl hs hslow, ihr ht htlow, rfl⟩
      | or =>
          rcases evidence_or_eq_some_iff.mp h with hl | ⟨hl, hr⟩
          · exact evidence_or_eq_some_iff.mpr (.inl (ihl hl hlow))
          · have hnone := evidence_eq_none_of_subset hhigh hl
            exact evidence_or_eq_some_iff.mpr (.inr ⟨hnone, ihr hr hlow⟩)

/-- Taking away facts that were not used changes nothing, whether the formula is true or false. -/
theorem findEvidence_eq_of_subset (hlow : usedFacts (findEvidence held e) ⊆ few)
    (hhigh : few ⊆ held) : findEvidence few e = findEvidence held e := by
  simp only [findEvidence_eq_evidence] at hlow ⊢
  cases h : evidence held e with
  | none => exact evidence_eq_none_of_subset hhigh h
  | some used =>
      rw [h] at hlow
      exact evidence_eq_some_of_subset h hlow hhigh

theorem usedFacts_findEvidence_subset (held : FactSet) (e : Formula) :
    usedFacts (findEvidence held e) ⊆ held := by
  rw [findEvidence_eq_evidence]
  cases h : evidence held e with
  | none => exact FactSet.subset_iff.mpr fun f hf => absurd hf (FactSet.not_mem_empty f)
  | some used => exact evidence_subset h

/-- Two evaluations of one formula. As long as the facts that were used remain among those that
hold, the second one finds the same; so the used facts alone are found again. And with more facts
than before, a formula that was true is still true, so with fewer a false one is still false. -/
theorem findEvidence_of_subset (e : Formula) (held other : FactSet) :
    (∀ used, findEvidence held e = some used → used ⊆ other → other ⊆ held →
      findEvidence other e = findEvidence held e) ∧
    (∀ used, findEvidence held e = some used → findEvidence used e = findEvidence held e) ∧
    (held ⊆ other → (findEvidence held e).isSome → (findEvidence other e).isSome) ∧
    (held ⊆ other → findEvidence other e = none → findEvidence held e = none) := by
  have hstable : ∀ used few, findEvidence held e = some used → used ⊆ few → few ⊆ held →
      findEvidence few e = findEvidence held e := by
    intro used few h hlow hhigh
    apply findEvidence_eq_of_subset
    · rw [h]
      exact hlow
    · exact hhigh
  refine ⟨fun used => hstable used other, ?_, ?_, ?_⟩
  · intro used h
    have hheld : used ⊆ held := by
      rw [findEvidence_eq_evidence] at h
      exact evidence_subset h
    exact hstable used used h (FactSet.subset_iff.mpr fun _ hf => hf) hheld
  · simp only [findEvidence_eq_evidence, Option.isSome_iff_exists]
    rintro hsub ⟨used, h⟩
    exact exists_evidence_of_subset hsub h
  · simp only [findEvidence_eq_evidence]
    exact evidence_eq_none_of_subset

/-- In `1 & 2 | 3` the left operand is passed over while fact 2 does not hold, and what was found
for the right one is found again without the other facts. With fact 2 the formula is still true,
and without fact 3 it is false, with fact 1 or without. -/
theorem findEvidence_passed_over :
    let e : Formula := .join .or (.join .and (.fact 1) (.fact 2)) (.fact 3)
    findEvidence {1, 3, 4} e = some {3} ∧ findEvidence {3, 4} e = findEvidence {1, 3, 4} e ∧
      findEvidence {3} e = findEvidence {1, 3, 4} e ∧ (findEvidence {1, 2, 3, 4} e).isSome ∧
      findEvidence {1, 4} e = none ∧ findEvidence {4} e = none := by
  intro e
  have htrue : findEvidence {1, 3, 4} e = some {3} := by
    rw [findEvidence_eq_evidence]
    decide
  have hfalse : findEvidence {1, 4} e = none := by
    rw [findEvidence_eq_evidence]
    decide
  obtain ⟨hstable, halone, -, -⟩ := findEvidence_of_subset e {1, 3, 4} {3, 4}
  obtain ⟨-, -, hmore, -⟩ := findEvidence_of_subset e {1, 3, 4} {1, 2, 3, 4}
  obtain ⟨-, -, -, hfewer⟩ := findEvidence_of_subset e {4} {1, 4}
  refine ⟨htrue, hstable {3} htrue (by decide) (by decide), halone {3} htrue, ?_, hfalse, ?_⟩
  · exact hmore (by decide) (by rw [htrue]; rfl)
  · exact hfewer (by decide) hfalse

end Formula

end Verdict
