import Verdict.FactSet.Basic

/-!
# The members of a fact set in ascending order

The least member is the number of zeros below the lowest set bit, and subtracting one from the
word turns exactly that bit and the zeros below it over, so meeting the word with its predecessor
erases the least member and no other. Taking the least member until the word is zero lists the
members in ascending order, in as many steps as there are members.
-/

namespace Verdict.FactSet

variable {s : FactSet}

private theorem bits_ne_zero (h : s ≠ ∅) : s.bits ≠ BitVec.ofNat width 0 :=
  fun hz => h (congrArg FactSet.mk hz)

/-- The least member of a set that has one. -/
def least (s : FactSet) (h : s ≠ ∅) : Fact :=
  ⟨s.bits.ctz.toNat, BitVec.lt_def.mp (BitVec.ctz_lt_iff_ne_zero.mpr (bits_ne_zero h))⟩

/-- The set without its least member. -/
def eraseLeast (s : FactSet) : FactSet := ⟨s.bits &&& (s.bits - BitVec.ofNat width 1)⟩

theorem toNat_eraseLeast_lt (h : s ≠ ∅) : s.eraseLeast.toNat < s.toNat := by
  have hpos : 0 < s.bits.toNat :=
    Nat.pos_of_ne_zero fun hz => bits_ne_zero h (BitVec.eq_of_toNat_eq hz)
  have hpred : (s.bits - BitVec.ofNat width 1).toNat = s.bits.toNat - 1 :=
    BitVec.toNat_sub_of_le (BitVec.le_def.mpr hpos)
  calc
    s.eraseLeast.toNat ≤ (s.bits - BitVec.ofNat width 1).toNat := by
      simp only [eraseLeast, toNat, BitVec.toNat_and]
      exact Nat.and_le_right
    _ < s.toNat := by
      rw [hpred]
      exact Nat.sub_lt hpos Nat.one_pos

theorem least_mem (h : s ≠ ∅) : s.least h ∈ s :=
  BitVec.getLsbD_true_ctz_of_ne_zero (bits_ne_zero h)

theorem least_le (h : s ≠ ∅) {f : Fact} (hf : f ∈ s) : s.least h ≤ f := by
  refine Nat.le_of_not_lt fun hlt => ?_
  have hclear : s.bits.getLsbD f.val = false := BitVec.getLsbD_false_of_lt_ctz hlt
  rw [mem_def, hclear] at hf
  exact Bool.false_ne_true hf

/-- The members in ascending order. -/
def members (s : FactSet) : List Fact :=
  if h : s = ∅ then [] else s.least h :: s.eraseLeast.members
termination_by s.toNat
decreasing_by exact toNat_eraseLeast_lt h

end Verdict.FactSet
