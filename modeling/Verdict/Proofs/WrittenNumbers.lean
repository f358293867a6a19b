import Verdict.Proofs.EmptyGroups
import Verdict.Proofs.OccurringFacts

/-!
# The numbers that are written in a text

The facts that occur in a formula are those whose numbers are written in any text for it.
`numbersIn` finds the longest runs of digits by splitting a text at all other characters, without
regard to its tokens. `Lexed.numbersIn_eq` says that these are the number tokens, and
`Derives.numbers_eq` that the number tokens of a phrase are the leaves of its formula, in order.
-/

namespace Verdict

/-- The values of the longest runs of digits in a text, from left to right. -/
def numbersIn (text : List Char) : List Nat :=
  ((text.splitOnP fun c => !c.isDigit).filter (· ≠ [])).map numeral

/-- The value of a number. -/
def Token.number? : Token → Option Nat
  | number value => some value
  | opening | closing | connective _ | unknown _ => none

/-- The values of the numbers among some tokens. -/
def numbers (tokens : List Token) : List Nat := tokens.filterMap Token.number?

section Characters

variable {c : Char} {digits text rest : List Char}

@[simp] theorem numbersIn_nil : numbersIn [] = [] := by
  simp [numbersIn]

/-- No run of digits goes on over another character. -/
theorem numbersIn_append_cons (hc : c.isDigit = false) (text rest : List Char) :
    numbersIn (text ++ c :: rest) = numbersIn text ++ numbersIn rest := by
  have hsep : (!c.isDigit) = true := by rw [hc]; rfl
  rw [numbersIn, List.splitOnP_append_cons text rest hsep, List.filter_append, List.map_append]
  rfl

theorem numbersIn_cons (hc : c.isDigit = false) (text : List Char) :
    numbersIn (c :: text) = numbersIn text := by
  simpa using numbersIn_append_cons hc [] text

theorem numbersIn_digits (hne : digits ≠ []) (hdigits : ∀ c ∈ digits, c.isDigit = true) :
    numbersIn digits = [numeral digits] := by
  have hnone : ∀ c ∈ digits, (!c.isDigit) = false := by
    intro c hc
    rw [hdigits c hc]
    rfl
  rw [numbersIn, List.splitOnP_eq_singleton hnone]
  simp [hne]

/-- A run of digits that no further digit follows is a number. -/
theorem numbersIn_digits_append (hne : digits ≠ []) (hdigits : ∀ c ∈ digits, c.isDigit = true)
    (hrest : ∀ c ∈ rest.head?, c.isDigit = false) :
    numbersIn (digits ++ rest) = numeral digits :: numbersIn rest := by
  cases rest with
  | nil => rw [List.append_nil, numbersIn_digits hne hdigits, numbersIn_nil]
  | cons c rest =>
      have hc : c.isDigit = false := hrest c rfl
      rw [numbersIn_append_cons hc, numbersIn_digits hne hdigits, numbersIn_cons hc,
        List.singleton_append]

theorem Token.Single.number?_eq_none {t : Token} (h : Single c t) : t.number? = none := by
  cases h <;> rfl

/-- The longest runs of digits are the number tokens. -/
theorem Lexed.numbersIn_eq {start : Nat} {found : List Lexeme} (h : Lexed start text found) :
    numbersIn text = numbers (found.map Lexeme.token) := by
  induction h with
  | done => rw [numbersIn_nil, List.map_nil, numbers, List.filterMap_nil]
  | blank hc _ ih => rw [numbersIn_cons (isDigit_eq_false_of_isBlank hc), ih]
  | number hne hdigits hrest _ ih =>
      rw [numbersIn_digits_append hne hdigits hrest, ih]
      rfl
  | bar _ _ ih =>
      rw [numbersIn_cons (by decide), ih]
      rfl
  | bars _ ih =>
      rw [numbersIn_cons (by decide), numbersIn_cons (by decide), ih]
      rfl
  | single hc _ ih =>
      rw [numbersIn_cons hc.notDigit, ih, numbers, numbers, List.map_cons,
        List.filterMap_cons_none hc.number?_eq_none]

end Characters

/-- The numbers of a phrase are those of the leaves of its formula, in order. -/
theorem Derives.numbers_eq {a : Category} {tokens : List Token} {e : Formula}
    (h : Derives a tokens e) : numbers tokens = e.leaves.map Fin.val := by
  unfold numbers
  induction h using Derives.byRows with
  | number f => rfl
  | group _ ih =>
      rw [List.cons_append, List.filterMap_cons_none rfl, List.filterMap_append, ih]
      exact List.append_nil _
  | weaken _ _ ih => exact ih
  | join _ _ ihl ihr =>
      rw [List.filterMap_append, List.filterMap_cons_none rfl, ihl, ihr, Formula.leaves,
        List.map_append]

/-- The numbers of facts make a set of just these facts and those that were there. -/
theorem FactSet.exists_insertIds (s : FactSet) (facts : List Fact) :
    ∃ t : FactSet, s.insertIds (facts.map Fin.val) = .ok t ∧
      ∀ f : Fact, f ∈ t ↔ f ∈ s ∨ f ∈ facts := by
  induction facts generalizing s with
  | nil => exact ⟨s, rfl, by simp⟩
  | cons g rest ih =>
      obtain ⟨t, ht, hmem⟩ := ih (insert g s)
      refine ⟨t, ?_, fun f => ?_⟩
      · rw [List.map_cons, insertIds_cons, Fact.ofId_val]
        exact ht
      · rw [hmem, mem_insert, List.mem_cons, or_comm (a := f = g), or_assoc]

namespace Formula

/-- The numbers of the leaves make the set of the facts that occur. -/
theorem ofIds_leaves (e : Formula) : FactSet.ofIds (e.leaves.map Fin.val) = .ok e.facts := by
  obtain ⟨t, ht, hmem⟩ := FactSet.exists_insertIds ∅ e.leaves
  have hfacts : t = e.facts := by
    ext f
    rw [hmem, mem_facts]
    simp
  rw [FactSet.ofIds, ht, hfacts]

/-- The numbers in a text for a formula make the set of the facts that occur in it. -/
theorem ofIds_numbersIn {text : String} {e : Formula} (h : parse text = .ok e) :
    FactSet.ofIds (numbersIn text.toList) = .ok e.facts := by
  obtain ⟨found, hlexed, hderives⟩ := denotes_of_parse h
  rw [hlexed.numbersIn_eq, hderives.numbers_eq]
  exact ofIds_leaves e

theorem isMatched_eq_isSome (held : FactSet) (e : Formula) :
    isMatched held e = (findEvidence held e).isSome := by
  have hsub := usedFacts_findEvidence_subset held e
  unfold isMatched
  cases h : findEvidence held e with
  | none => rfl
  | some used =>
      rw [h] at hsub
      exact decide_eq_true hsub

/-- A formula rests on the facts that occur in it. Only they matter to its evidence; what is used
is among them and holds, and something is used exactly when the formula is true, which is also when
it is matched; and the numbers in any text for the formula are theirs. -/
theorem findEvidence_rests_on_facts (e : Formula) :
    (∀ held other : FactSet, held ∩ e.facts = other ∩ e.facts →
      findEvidence held e = findEvidence other e) ∧
    (∀ held : FactSet,
      ((findEvidence held e).isSome ↔ usedFacts (findEvidence held e) ≠ ∅) ∧
      usedFacts (findEvidence held e) ⊆ held ∧ usedFacts (findEvidence held e) ⊆ e.facts ∧
      isMatched held e = (findEvidence held e).isSome) ∧
    ∀ text, parse text = .ok e → FactSet.ofIds (numbersIn text.toList) = .ok e.facts := by
  refine ⟨?_, ?_, fun _ => ofIds_numbersIn⟩
  · intro held other h
    simp only [findEvidence_eq_evidence]
    exact evidence_congr (FactSet.inter_eq_inter_iff.mp h)
  · intro held
    have hused := isSome_evidence_iff held e
    have hfacts := usedFacts_evidence_subset_facts held e
    rw [← findEvidence_eq_evidence] at hused hfacts
    exact ⟨hused, usedFacts_findEvidence_subset held e, hfacts, isMatched_eq_isSome held e⟩

/-- Fact 9 does not matter to `1 & (02 | 3)`, and a text for this formula may write a number with a
leading zero. -/
theorem findEvidence_rests_on_facts_three :
    let e : Formula := .join .and (.fact 1) (.join .or (.fact 2) (.fact 3))
    e.facts = {1, 2, 3} ∧ ({1, 3, 9} ∩ e.facts : FactSet) = {1, 3} ∩ e.facts ∧
      findEvidence {1, 3, 9} e = findEvidence {1, 3} e ∧
      parse "1 & (02 | 3)" = .ok e ∧
      FactSet.ofIds (numbersIn "1 & (02 | 3)".toList) = .ok e.facts := by
  intro e
  have hfacts : e.facts = {1, 2, 3} := by
    simp only [e, facts_join, facts_fact]
    decide
  have hagree : ({1, 3, 9} ∩ e.facts : FactSet) = {1, 3} ∩ e.facts := by
    rw [hfacts]
    decide
  have hparse : parse "1 & (02 | 3)" = .ok e := rfl
  obtain ⟨hsame, -, hnumbers⟩ := findEvidence_rests_on_facts e
  exact ⟨hfacts, hagree, hsame _ _ hagree, hparse, hnumbers _ hparse⟩

end Formula

end Verdict
