import Mathlib.Algebra.Ring.Nat
import Verdict.Formula.Evidence
import Verdict.Proofs.WalkSteps

/-!
# Short-circuit evaluation

`shortCircuit` evaluates a formula against a word by recursion: a flag, and the word of the facts
that were used. The evidence that is found by a walk gives the same flag and the same word, the
flag is the truth value of the formula, and the walk takes at most three steps for each part.
-/

namespace Verdict

namespace FactSet

theorem testBit_toNat (s : FactSet) (f : Fact) : s.toNat.testBit f.val = decide (f ∈ s) := by
  rw [toNat, BitVec.testBit_toNat, Bool.eq_iff_iff, decide_eq_true_iff]
  exact Iff.rfl

@[simp] theorem toNat_empty : (∅ : FactSet).toNat = 0 := rfl

@[simp] theorem toNat_singleton (f : Fact) : ({f} : FactSet).toNat = 2 ^ f.val := by
  rw [toNat, bits_singleton, BitVec.toNat_twoPow, Nat.mod_eq_of_lt]
  exact Nat.pow_lt_pow_right (by decide) f.isLt

@[simp] theorem toNat_union (s t : FactSet) : (s ∪ t).toNat = s.toNat ||| t.toNat :=
  BitVec.toNat_or ..

end FactSet

namespace Formula

/-- The truth value of a formula when the facts with a bit in the word hold. -/
def truth (word : Nat) : Formula → Bool
  | .fact f => word.testBit f.val
  | .join .and left right => truth word left && truth word right
  | .join .or left right => truth word left || truth word right

/-- The short-circuit evaluation of a formula against a word: whether it matches, and the word of
the facts that were used. -/
def shortCircuit (word : Nat) : Formula → Bool × Nat
  | .fact f => if word.testBit f.val then (true, 2 ^ f.val) else (false, 0)
  | .join .and left right =>
      match shortCircuit word left with
      | (false, _) => (false, 0)
      | (true, leftUsed) =>
          match shortCircuit word right with
          | (false, _) => (false, 0)
          | (true, rightUsed) => (true, leftUsed ||| rightUsed)
  | .join .or left right =>
      match shortCircuit word left with
      | (true, used) => (true, used)
      | (false, _) => shortCircuit word right

/-- What was found, as a flag and a word. -/
def verdict (found : Option FactSet) : Bool × Nat := (found.isSome, (usedFacts found).toNat)

variable (held : FactSet)

theorem verdict_evidence (e : Formula) : verdict (evidence held e) = e.shortCircuit held.toNat := by
  induction e with
  | fact f =>
      rw [evidence, shortCircuit, FactSet.testBit_toNat]
      by_cases hf : f ∈ held
      · simp [hf, verdict, usedFacts]
      · simp [hf, verdict, usedFacts]
  | join c left right ihl ihr =>
      cases c with
      | and =>
          rw [shortCircuit, ← ihl, ← ihr, evidence]
          cases evidence held left with
          | none => rfl
          | some used =>
              cases evidence held right with
              | none => rfl
              | some more => simp [verdict, usedFacts]
      | or =>
          rw [shortCircuit, ← ihl, ← ihr, evidence]
          cases evidence held left with
          | none => rfl
          | some used => rfl

/-- The flag of a short-circuit evaluation is the truth value. -/
theorem fst_shortCircuit (word : Nat) (e : Formula) :
    (e.shortCircuit word).1 = e.truth word := by
  induction e with
  | fact f =>
      rw [shortCircuit, truth]
      cases word.testBit f.val with
      | true => rfl
      | false => rfl
  | join c left right ihl ihr =>
      cases c with
      | and =>
          rw [shortCircuit, truth, ← ihl, ← ihr]
          obtain ⟨matched, used⟩ := shortCircuit word left
          obtain ⟨matched', used'⟩ := shortCircuit word right
          cases matched <;> cases matched' <;> rfl
      | or =>
          rw [shortCircuit, truth, ← ihl, ← ihr]
          obtain ⟨matched, used⟩ := shortCircuit word left
          cases matched <;> rfl

/-- The walk that looks for evidence comes to rest within three steps for each part of the
formula. What it rests with is the short-circuit evaluation, and its flag is the truth value. -/
theorem findEvidence_eq_shortCircuit (held : FactSet) (e : Formula) :
    (∃ n ≤ 3 * e.size,
        (evidenceWalk held).step^[n] (.visit e []) = .hand (findEvidence held e) []) ∧
      verdict (findEvidence held e) = e.shortCircuit held.toNat ∧
      (findEvidence held e).isSome = e.truth held.toNat := by
  have hverdict : verdict (findEvidence held e) = e.shortCircuit held.toNat := by
    rw [findEvidence_eq_evidence, verdict_evidence]
  refine ⟨(evidenceWalk held).exists_iterate_step_run e, hverdict, ?_⟩
  calc
    (findEvidence held e).isSome = (verdict (findEvidence held e)).1 := rfl
    _ = (e.shortCircuit held.toNat).1 := by rw [hverdict]
    _ = e.truth held.toNat := fst_shortCircuit ..

end Formula

end Verdict
