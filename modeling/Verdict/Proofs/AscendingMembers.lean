import Mathlib.Data.Fintype.Card
import Mathlib.Data.List.Sort
import Verdict.FactSet.Members
import Verdict.Proofs.ShortCircuit
import Verdict.Proofs.WrittenNumbers

/-!
# Facts in a list and facts in a set

The members of a set are found by taking the least one off until nothing is left. `mem_eraseLeast`
says that a step takes off this member and no other, for what a word and its predecessor have in
common are the bits above the lowest one that is set. So the members are listed in ascending order,
and they are the positions of the bits that are set.

In the other direction a list of numbers makes a set, unless one of them is too large. The set knows
nothing of the order of the list or of numbers that occur twice, so listing its members sorts the
numbers and drops the repetitions.
-/

namespace Verdict.FactSet

variable {s t : FactSet} {f : Fact}

/-! ### Taking off the least member -/

/-- A word is split at its lowest bit. -/
theorem exists_eq_of_lowest_bit {x k : Nat} (hk : x.testBit k = true)
    (hlow : ∀ i < k, x.testBit i = false) : ∃ q, x = 2 ^ (k + 1) * q + 2 ^ k := by
  have hrest : x % 2 ^ (k + 1) = 2 ^ k := by
    apply Nat.eq_of_testBit_eq
    intro i
    rw [Nat.testBit_mod_two_pow, Nat.testBit_two_pow]
    rcases Nat.lt_trichotomy i k with hi | rfl | hi
    · simp [hlow i hi, hi.ne']
    · simp [hk]
    · simp [hi.ne, show ¬ i < k + 1 by omega]
  refine ⟨x / 2 ^ (k + 1), ?_⟩
  rw [← hrest]
  exact (Nat.div_add_mod x _).symm

/-- The bits that a word and its predecessor have in common are all its bits but the lowest. -/
theorem testBit_and_pred {x k : Nat} (hk : x.testBit k = true)
    (hlow : ∀ i < k, x.testBit i = false) (i : Nat) :
    (x &&& (x - 1)).testBit i = (x.testBit i && decide (i ≠ k)) := by
  obtain ⟨q, hx⟩ := exists_eq_of_lowest_bit hk hlow
  have hpos : 0 < 2 ^ k := Nat.two_pow_pos k
  have hpow : 2 ^ k < 2 ^ (k + 1) := Nat.pow_lt_pow_right (by decide) (Nat.lt_succ_self k)
  have hpred : x - 1 = 2 ^ (k + 1) * q + (2 ^ k - 1) := by omega
  have hpredBit : (x - 1).testBit i =
      if i < k + 1 then decide (i < k) else q.testBit (i - (k + 1)) := by
    rw [hpred, Nat.testBit_two_pow_mul_add _ (by omega), Nat.testBit_two_pow_sub_one]
  rw [Nat.testBit_and, hpredBit]
  rcases Nat.lt_trichotomy i k with hi | rfl | hi
  · rw [hlow i hi, Bool.false_and, Bool.false_and]
  · simp
  · have habove : ¬ i < k + 1 := by omega
    rw [hx, Nat.testBit_two_pow_mul_add _ hpow, if_neg habove, if_neg habove, Bool.and_self]
    simp [hi.ne']

theorem toNat_eraseLeast (h : s ≠ ∅) : s.eraseLeast.toNat = s.toNat &&& (s.toNat - 1) := by
  have hpos : BitVec.ofNat width 1 ≤ s.bits := by
    rw [BitVec.le_def]
    exact Nat.lt_of_le_of_lt (Nat.zero_le _) (toNat_eraseLeast_lt h)
  rw [eraseLeast, toNat, BitVec.toNat_and, BitVec.toNat_sub_of_le hpos]
  rfl

/-- A step takes off the least member and no other. -/
theorem mem_eraseLeast (h : s ≠ ∅) : f ∈ s.eraseLeast ↔ f ∈ s ∧ f ≠ s.least h := by
  have hleast : s.toNat.testBit (s.least h).val = true := by
    rw [testBit_toNat]
    exact decide_eq_true (least_mem h)
  have hlow : ∀ i < (s.least h).val, s.toNat.testBit i = false := by
    intro i hi
    have hi' : i < width := hi.trans (s.least h).isLt
    rw [show i = (⟨i, hi'⟩ : Fact).val from rfl, testBit_toNat, decide_eq_false_iff_not]
    intro hmem
    exact Nat.not_le_of_lt hi (least_le h hmem)
  have hbit := testBit_and_pred hleast hlow f.val
  rw [← toNat_eraseLeast h, testBit_toNat, testBit_toNat, ← Bool.decide_and,
    decide_eq_decide] at hbit
  rw [hbit, ne_eq, ne_eq, Fin.ext_iff]

/-! ### The members -/

@[simp] theorem members_empty : (∅ : FactSet).members = [] := by
  rw [members, dif_pos rfl]

@[simp] theorem mem_members : f ∈ s.members ↔ f ∈ s := by
  fun_induction members s with
  | case1 => simp
  | case2 s h ih =>
      rw [List.mem_cons, ih, mem_eraseLeast h]
      constructor
      · rintro (rfl | hf)
        · exact least_mem h
        · exact hf.1
      · intro hf
        exact (eq_or_ne f (s.least h)).imp_right fun hne => ⟨hf, hne⟩

/-- The members are strictly ascending. -/
theorem pairwise_members (s : FactSet) : s.members.Pairwise (· < ·) := by
  fun_induction members s with
  | case1 => exact .nil
  | case2 s h ih =>
      refine .cons ?_ ih
      intro f hf
      obtain ⟨hmem, hne⟩ := (mem_eraseLeast h).mp (mem_members.mp hf)
      exact lt_of_le_of_ne (least_le h hmem) hne.symm

/-- The members are the positions of the bits that are set. -/
theorem mem_map_val_members {i : Nat} :
    i ∈ s.members.map Fin.val ↔ s.toNat.testBit i = true := by
  rw [List.mem_map]
  constructor
  · rintro ⟨f, hf, rfl⟩
    rw [testBit_toNat]
    exact decide_eq_true (mem_members.mp hf)
  · intro hi
    have hlt : i < width := by
      by_contra hwidth
      have hsmall : s.toNat < 2 ^ i :=
        s.bits.isLt.trans_le (Nat.pow_le_pow_right Nat.two_pos (Nat.le_of_not_lt hwidth))
      rw [Nat.testBit_lt_two_pow hsmall] at hi
      contradiction
    rw [show i = (⟨i, hlt⟩ : Fact).val from rfl, testBit_toNat] at hi
    exact ⟨⟨i, hlt⟩, mem_members.mpr (of_decide_eq_true hi), rfl⟩

theorem length_members_le (s : FactSet) : s.members.length ≤ width := by
  calc
    s.members.length ≤ Fintype.card Fact := (pairwise_members s).nodup.length_le_card
    _ = width := Fintype.card_fin _

/-- Nothing is left after as many steps as there are members. -/
theorem iterate_eraseLeast (s : FactSet) : eraseLeast^[s.members.length] s = ∅ := by
  fun_induction members s with
  | case1 => rfl
  | case2 s h ih => rw [List.length_cons, Function.iterate_succ_apply, ih]

/-! ### Sets from lists of numbers -/

theorem insertIds_append (s : FactSet) (ids more : List Nat) :
    s.insertIds (ids ++ more) = (s.insertIds ids).bind (insertIds · more) :=
  List.foldlM_append ..

/-- Numbers in range make the set of the facts that they are. -/
theorem exists_ofIds {ids : List Nat} (h : ∀ id ∈ ids, id < width) :
    ∃ t, ofIds ids = .ok t ∧ ∀ f : Fact, f ∈ t ↔ f.val ∈ ids := by
  obtain ⟨facts, rfl⟩ : ∃ facts : List Fact, facts.map Fin.val = ids := by
    refine ⟨ids.pmap Fin.mk h, ?_⟩
    rw [List.map_pmap]
    exact List.pmap_eq_self.mpr fun _ _ => rfl
  obtain ⟨t, ht, hmem⟩ := exists_insertIds ∅ facts
  refine ⟨t, ht, ?_⟩
  intro f
  rw [hmem, List.mem_map_of_injective Fin.val_injective]
  simp

/-- Lists of the same numbers make the same set. -/
theorem ofIds_eq_of_mem_iff {ids others : List Nat} (hids : ∀ id ∈ ids, id < width)
    (hothers : ∀ id, id ∈ others ↔ id ∈ ids) : ofIds others = ofIds ids := by
  obtain ⟨t, ht, hmem⟩ := exists_ofIds hids
  obtain ⟨u, hu, hmem'⟩ := exists_ofIds fun id hid => hids id ((hothers id).mp hid)
  have htu : u = t := by
    ext f
    rw [hmem, hmem', hothers]
  rw [hu, ht, htu]

/-- Numbers are refused for the first one that is out of range. -/
theorem ofIds_append_cons {before after : List Nat} {id : Nat} (h : ∀ i ∈ before, i < width)
    (hid : width ≤ id) : ofIds (before ++ id :: after) = .error ⟨id⟩ := by
  obtain ⟨t, ht, -⟩ := exists_ofIds h
  rw [ofIds, insertIds_append, ← ofIds, ht, Except.bind, insertIds_cons,
    Fact.ofId_eq_error_iff.mpr ⟨hid, rfl⟩]

theorem exists_first_large {ids : List Nat} (h : ∃ id ∈ ids, width ≤ id) :
    ∃ before id after, ids = before ++ id :: after ∧ (∀ i ∈ before, i < width) ∧ width ≤ id := by
  obtain ⟨id, hid, hlarge⟩ := h
  obtain ⟨first, hfirst⟩ : ∃ first, ids.find? (width ≤ ·) = some first :=
    Option.isSome_iff_exists.mp (List.find?_isSome.mpr ⟨id, hid, decide_eq_true hlarge⟩)
  obtain ⟨hwidth, before, after, hsplit, hbefore⟩ := List.find?_eq_some_iff_append.mp hfirst
  exact ⟨before, first, after, hsplit, by simpa using hbefore, of_decide_eq_true hwidth⟩

/-- The numbers of the members make the set again. -/
theorem ofIds_members (s : FactSet) : ofIds (s.members.map Fin.val) = .ok s := by
  obtain ⟨t, ht, hmem⟩ := exists_insertIds ∅ s.members
  have hts : t = s := by
    ext f
    rw [hmem]
    simp
  rw [ofIds, ht, hts]

/-- Listing the members of the set that a list makes sorts the list and drops repetitions. -/
theorem map_val_members_eq {ids : List Nat} (hmem : ∀ f : Fact, f ∈ t ↔ f.val ∈ ids)
    (hids : ∀ id ∈ ids, id < width) : t.members.map Fin.val = ids.dedup.insertionSort (· ≤ ·) := by
  have hmembers : (t.members.map Fin.val).SortedLT :=
    ((pairwise_members t).map Fin.val fun _ _ hlt => hlt).sortedLT
  have hsorted : (ids.dedup.insertionSort (· ≤ ·)).SortedLT := by
    apply List.SortedLE.sortedLT_of_nodup
    · exact (List.pairwise_insertionSort (· ≤ ·) _).sortedLE
    · exact (List.perm_insertionSort _ _).nodup_iff.mpr (List.nodup_dedup ids)
  apply hmembers.eq_of_mem_iff hsorted
  intro id
  rw [List.mem_insertionSort, List.mem_dedup, List.mem_map]
  constructor
  · rintro ⟨f, hf, rfl⟩
    exact (hmem f).mp (mem_members.mp hf)
  · intro hid
    exact ⟨⟨id, hids id hid⟩, mem_members.mpr ((hmem _).mpr hid), rfl⟩

/-- The members of a set are found in as many steps as there are, and no more than there are facts.
They are strictly ascending, they are the positions of the bits that are set, and they make the set
again. A list of numbers in range makes a set whose members are the numbers in ascending order, each
of them once, so any list of the same numbers makes the same set; every other list is refused for
the first number that is out of range. -/
theorem members_exact (s : FactSet) (ids : List Nat) :
    (s.members.length ≤ width ∧ eraseLeast^[s.members.length] s = ∅ ∧
      (s.members.map Fin.val).Pairwise (· < ·) ∧
      (∀ i, i ∈ s.members.map Fin.val ↔ s.toNat.testBit i = true) ∧
      ofIds (s.members.map Fin.val) = .ok s) ∧
    ((∀ id ∈ ids, id < width) →
      (∃ t, ofIds ids = .ok t ∧ t.members.map Fin.val = ids.dedup.insertionSort (· ≤ ·)) ∧
      ∀ others : List Nat, (∀ id, id ∈ others ↔ id ∈ ids) → ofIds others = ofIds ids) ∧
    ((∃ id ∈ ids, width ≤ id) →
      ∃ before id after, ids = before ++ id :: after ∧ (∀ i ∈ before, i < width) ∧ width ≤ id ∧
        ofIds ids = .error ⟨id⟩) := by
  refine ⟨⟨length_members_le s, iterate_eraseLeast s, ?_, ?_, ofIds_members s⟩, ?_, ?_⟩
  · exact (pairwise_members s).map Fin.val fun _ _ hlt => hlt
  · exact fun i => mem_map_val_members
  · intro hids
    obtain ⟨t, ht, hmem⟩ := exists_ofIds hids
    exact ⟨⟨t, ht, map_val_members_eq hmem hids⟩, fun _ => ofIds_eq_of_mem_iff hids⟩
  · intro hlarge
    obtain ⟨before, id, after, rfl, hbefore, hid⟩ := exists_first_large hlarge
    exact ⟨before, id, after, rfl, hbefore, hid, ofIds_append_cons hbefore hid⟩

/-- Numbers out of order and twice, with the first and the last fact among them, and numbers of
which the second is out of range. -/
theorem members_exact_unsorted :
    let ids := [42, 0, 63, 42]
    let large := [1, 64, 0, 99]
    (∀ id ∈ ids, id < width) ∧ (∃ id ∈ large, width ≤ id) ∧
      (∃ t, ofIds ids = .ok t ∧ t.members.map Fin.val = [0, 42, 63]) ∧
      ofIds [63, 0, 42] = ofIds ids ∧
      ∃ before after, large = before ++ 64 :: after ∧ ofIds large = .error ⟨64⟩ := by
  intro ids large
  have hids : ∀ id ∈ ids, id < width := by decide
  have hlarge : ∃ id ∈ large, width ≤ id := by decide
  obtain ⟨hset, hothers⟩ := (members_exact ∅ ids).2.1 hids
  obtain ⟨before, id, after, hsplit, -, -, herror⟩ := (members_exact ∅ large).2.2 hlarge
  have hid : ofIds large = .error ⟨64⟩ := rfl
  rw [hid, Except.error.injEq, OutOfRange.mk.injEq] at herror
  refine ⟨hids, hlarge, hset, hothers _ ?_, before, after, ?_, hid⟩
  · intro i
    simp only [ids, List.mem_cons, List.not_mem_nil, or_false]
    omega
  · rw [herror]
    exact hsplit

end Verdict.FactSet
