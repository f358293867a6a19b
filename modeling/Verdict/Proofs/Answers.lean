import Verdict.Proofs.Compilation
import Verdict.Proofs.Justification
import Verdict.Proofs.ShortCircuit

/-!
# What a rulebook answers

A compiled rulebook answers as its rules do when their texts are read anew: `Rule.match?` is the
match of a rule by itself, and the matches of the rulebook are those of its rules in their order
(`Rulebook.Holds.allMatches_eq`). The first match is the first of them, the justification is made of
the facts they rest on, since a rule that does not hold adds none, and with more facts no rule is
lost from them.
-/

namespace Verdict

namespace Rule

variable (held : FactSet) (rule : Rule)

/-- The rule's match when its text is read anew, if the rule holds. -/
def match? : Option Match :=
  match Formula.parse rule.expression with
  | .ok e => (e.findEvidence held).map fun used => ⟨rule.id, rule.name, used⟩
  | .error _ => none

variable {held rule} {more : FactSet} {found : Match}

theorem match?_eq_some_iff :
    rule.match? held = some found ↔
      ∃ e used, Formula.parse rule.expression = .ok e ∧ e.evidence held = some used ∧
        ⟨rule.id, rule.name, used⟩ = found := by
  unfold match?
  split
  · next e hparse => simp [hparse, Formula.findEvidence_eq_evidence]
  · next cause hparse => simp [hparse]

/-- A rule that holds still holds with more facts. -/
theorem isSome_match?_of_subset (hsub : held ⊆ more) (h : (rule.match? held).isSome) :
    (rule.match? more).isSome := by
  rw [Option.isSome_iff_exists] at h ⊢
  obtain ⟨found, hfound⟩ := h
  obtain ⟨e, used, hparse, hused, -⟩ := match?_eq_some_iff.mp hfound
  obtain ⟨used', hused'⟩ := Formula.exists_evidence_of_subset hsub hused
  exact ⟨_, match?_eq_some_iff.mpr ⟨e, used', hparse, hused', rfl⟩⟩

/-- The numbers in the matches of rules are those of the rules that hold. -/
theorem map_id_filterMap_match? (held : FactSet) (rules : List Rule) :
    (rules.filterMap (Rule.match? held)).map Match.id =
      (rules.filter fun rule => (rule.match? held).isSome).map Rule.id := by
  induction rules with
  | nil => rfl
  | cons rule rest ih =>
      cases hmatch : rule.match? held with
      | none => rw [List.filterMap_cons_none hmatch, ih, List.filter_cons_of_neg (by simp [hmatch])]
      | some found =>
          obtain ⟨_, _, _, _, rfl⟩ := match?_eq_some_iff.mp hmatch
          rw [List.filterMap_cons_some hmatch, List.map_cons, ih,
            List.filter_cons_of_pos (by simp [hmatch]), List.map_cons]

end Rule

namespace Rulebook

variable {store : Store} {book : Rulebook} {rules : List Rule} {held more : FactSet}

/-- The matches of a rulebook are those of its rules by themselves. -/
theorem Holds.allMatches_eq (h : book.Holds rules) (held : FactSet) :
    book.allMatches held = rules.filterMap (Rule.match? held) := by
  rw [← h.rules_eq, List.filterMap_map]
  apply List.filterMap_congr
  intro clause hclause
  simp only [Function.comp_apply, Rule.match?, h.formulas clause hclause]
  rfl

theorem Holds.map_id_allMatches (h : book.Holds rules) (held : FactSet) :
    (book.allMatches held).map Match.id =
      (rules.filter fun rule => (rule.match? held).isSome).map Rule.id := by
  rw [h.allMatches_eq, Rule.map_id_filterMap_match?]

theorem Holds.nodup_map_id_allMatches (h : book.Holds rules) (held : FactSet) :
    ((book.allMatches held).map Match.id).Nodup := by
  rw [h.map_id_allMatches]
  exact h.nodup.sublist (List.filter_sublist.map _)

/-- With more facts the matches are of the same rules and maybe of others between them. -/
theorem Holds.map_id_allMatches_sublist (h : book.Holds rules) (hsub : held ⊆ more) :
    ((book.allMatches held).map Match.id).Sublist ((book.allMatches more).map Match.id) := by
  rw [h.map_id_allMatches, h.map_id_allMatches]
  apply List.Sublist.map
  apply List.monotone_filter_right
  intro rule
  exact Rule.isSome_match?_of_subset hsub

/-- The justification is made of the matches: a rule that does not hold rests on no facts. -/
theorem justification_eq_foldl_allMatches (held : FactSet) (book : Rulebook) :
    book.justification held =
      (book.allMatches held).foldl (fun used found => used ∪ found.used) ∅ := by
  rw [justification, allMatches, List.foldl_filterMap]
  congr
  funext used clause
  cases hevidence : clause.evidence held with
  | none =>
      ext f
      simp [Clause.match?, hevidence, Formula.usedFacts]
  | some more => simp [Clause.match?, hevidence, Formula.usedFacts]

theorem toNat_justification (held : FactSet) (book : Rulebook) :
    (book.justification held).toNat =
      ((book.allMatches held).map fun found => found.used.toNat).foldl (· ||| ·) 0 := by
  rw [justification_eq_foldl_allMatches, List.foldl_map, ← FactSet.toNat_empty]
  symm
  apply List.foldl_hom FactSet.toNat
  intro used found
  exact (FactSet.toNat_union ..).symm

/-- Whatever was fetched before rules were compiled, and whatever facts hold: the matches of the
rulebook are those of the rules whose texts hold when they are read anew, in the order of
declaration and each with its own evidence. No two of them have the same number. The first match is
the first of them, the word of the justification is made of theirs by `or`, and with more facts they
are found again, in the same order, among the matches. -/
theorem allMatches_exact (hstore : store.Reachable)
    (hbook : (compile rules store).1 = .ok book) (held : FactSet) :
    book.allMatches held = rules.filterMap (Rule.match? held) ∧
    ((book.allMatches held).map Match.id).Nodup ∧
    book.firstMatch? held = (book.allMatches held).head? ∧
    (book.justification held).toNat =
      ((book.allMatches held).map fun found => found.used.toNat).foldl (· ||| ·) 0 ∧
    ∀ more, held ⊆ more →
      ((book.allMatches held).map Match.id).Sublist ((book.allMatches more).map Match.id) := by
  have hholds : book.Holds rules := holds_of_compile hstore.sound hbook
  refine ⟨hholds.allMatches_eq held, hholds.nodup_map_id_allMatches held,
    firstMatch?_eq_head? held book, toNat_justification held book, fun more hsub => ?_⟩
  exact hholds.map_id_allMatches_sublist hsub

/-- Of three rules the first and the last one hold, both by fact 2. With fact 4 the second one holds
too, and its match is between theirs. -/
theorem allMatches_exact_between :
    let rules : List Rule := [⟨7, "a", "", "1 | 2"⟩, ⟨3, "b", "", "2 & 4"⟩, ⟨5, "c", "", "2"⟩]
    let store := (Session.after {} [.fetch "1 | 2"]).store
    ∃ book, (compile rules store).1 = .ok book ∧
      book.allMatches {2, 3} = [⟨7, "a", {2}⟩, ⟨5, "c", {2}⟩] ∧
      book.firstMatch? {2, 3} = some ⟨7, "a", {2}⟩ ∧
      (book.justification {2, 3}).toNat = 4 ∧
      (book.allMatches {2, 3, 4}).map Match.id = [7, 3, 5] ∧
      ((book.allMatches {2, 3}).map Match.id).Sublist
        ((book.allMatches {2, 3, 4}).map Match.id) := by
  intro rules store
  have hstore : store.Reachable := ⟨_, rfl⟩
  obtain ⟨book, hbook⟩ : ∃ book, (compile rules store).1 = .ok book := ⟨_, rfl⟩
  obtain ⟨hall, -, hfirst, hused, hmore⟩ := allMatches_exact hstore hbook {2, 3}
  obtain ⟨hall', -⟩ := allMatches_exact hstore hbook {2, 3, 4}
  -- The walk does not compute in a proof, the evidence by recursion does.
  simp only [rules, List.filterMap_cons, Rule.match?, Formula.findEvidence_eq_evidence]
    at hall hall'
  have hmatches : book.allMatches {2, 3} = [⟨7, "a", {2}⟩, ⟨5, "c", {2}⟩] := hall
  refine ⟨book, hbook, hmatches, ?_, ?_, ?_, hmore {2, 3, 4} (by decide)⟩
  · rw [hfirst, hmatches]
    rfl
  · rw [hused, hmatches]
    rfl
  · rw [hall']
    rfl

end Rulebook

end Verdict
