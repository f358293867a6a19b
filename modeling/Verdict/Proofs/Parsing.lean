import Verdict.Proofs.Completeness
import Verdict.Proofs.StackInvariant

/-!
# Reading finds what the grammar says

`parse` gives a formula exactly when the text stands for it by the grammar. One direction follows a
derivation through the reading, the other follows the reading and keeps the cut of its stacks.
-/

namespace Verdict

theorem min_ceiling_eq {value : Nat} (h : min Token.ceiling value < FactSet.width) :
    min Token.ceiling value = value := by
  have hwidth : FactSet.width ≤ Token.ceiling := by decide
  omega

/-- Tokens whose numbers are in range are not changed by the ceiling of the scan. -/
theorem Lexeme.map_capped {found : List Lexeme}
    (h : ∀ l ∈ found, ∀ value, l.token = .number value → min Token.ceiling value < FactSet.width) :
    found.map capped = found := by
  have heach : ∀ l ∈ found, l.capped = id l := by
    intro l hl
    obtain ⟨t, position⟩ := l
    cases t with
    | number value =>
        have hlt := h _ hl value rfl
        simp only [capped, Token.capped, min_ceiling_eq hlt, id_eq]
    | opening => rfl
    | closing => rfl
    | connective c => rfl
    | unknown c => rfl
  rw [List.map_congr_left heach, List.map_id]

theorem Derives.map_capped {a : Category} {found : List Lexeme} {e : Formula}
    (h : Derives a (found.map Lexeme.token) e) : found.map Lexeme.capped = found := by
  apply Lexeme.map_capped
  intro l hl value ht
  have hlt : value < FactSet.width := by
    apply h.number_lt
    rw [← ht]
    exact List.mem_map_of_mem hl
  exact Nat.lt_of_le_of_lt (Nat.min_le_right _ _) hlt

theorem Derives.map_capped_of_capped {a : Category} {found : List Lexeme} {e : Formula}
    (h : Derives a ((found.map Lexeme.capped).map Lexeme.token) e) :
    found.map Lexeme.capped = found := by
  apply Lexeme.map_capped
  intro l hl value ht
  apply h.number_lt
  have hmem : l.capped.token ∈ (found.map Lexeme.capped).map Lexeme.token :=
    List.mem_map_of_mem (List.mem_map_of_mem hl)
  simpa only [Lexeme.capped, ht, Token.capped] using hmem

namespace Formula

variable {found : List Lexeme} {length : Nat} {e : Formula}

/-- The lexemes of a phrase are read as its formula, and the reductions made are its connectives,
each after those of its operands. -/
theorem exists_placed_readLexemes (h : Derives .orExpr (found.map Lexeme.token) e)
    (length : Nat) :
    ∃ p : Placed, p.formula = e ∧ p.inorder = connectives found ∧
      readLexemes found length = .ok (e, p.postorder.reverse) := by
  obtain ⟨p, hformula, hinorder, hyields⟩ := Reading.exists_yields h rfl
  obtain ⟨r, hread, hadds⟩ := hyields {} rfl trivial
  refine ⟨p, hformula, hinorder, ?_⟩
  have hfinish : r.finish length = .ok (e, p.postorder.reverse) := by
    have hunwound := hadds.unwound
    rw [Category.due_orExpr] at hunwound
    simp [Reading.finish, hadds.seen, hadds.awaiting, hunwound]
  have hne : found ≠ [] := by
    rintro rfl
    obtain ⟨value, hv⟩ := h.exists_number
    exact List.not_mem_nil hv
  unfold readLexemes
  split
  · exact absurd rfl hne
  · rw [hread]
    exact hfinish

theorem exists_readLexemes (h : Derives .orExpr (found.map Lexeme.token) e) (length : Nat) :
    ∃ made, readLexemes found length = .ok (e, made) := by
  obtain ⟨p, -, -, hread⟩ := exists_placed_readLexemes h length
  exact ⟨_, hread⟩

/-- Lexemes that are read as a formula are a phrase for it. -/
theorem derives_of_readLexemes {made : List Reduction}
    (h : readLexemes found length = .ok (e, made)) :
    Derives .orExpr (found.map Lexeme.token) e := by
  unfold readLexemes at h
  split at h
  · contradiction
  · split at h
    · next r hread =>
        obtain ⟨slots, hstands⟩ := Reading.HasRead.start.takeAll hread
        exact hstands.finish h
    · contradiction

theorem parse_eq_ok_iff_readLexemes {text : String} :
    parse text = .ok e ↔
      ∃ made, readLexemes (lexemes text.toList) text.length = .ok (e, made) := by
  unfold parse transcribe
  cases readLexemes (lexemes text.toList) text.length with
  | ok read =>
      obtain ⟨e', made⟩ := read
      simp [Transcript.ofReading]
  | error refusal => simp [Transcript.ofReading]

theorem parse_of_denotes {text : String} (h : Denotes text e) : parse text = .ok e := by
  obtain ⟨found, hlexed, hderives⟩ := h
  rw [parse_eq_ok_iff_readLexemes, lexemes_eq hlexed, hderives.map_capped]
  exact exists_readLexemes hderives _

theorem denotes_of_parse {text : String} (h : parse text = .ok e) : Denotes text e := by
  obtain ⟨made, hread⟩ := parse_eq_ok_iff_readLexemes.mp h
  obtain ⟨found, hlexed, -⟩ := existsUnique_lexed 0 text.toList
  rw [lexemes_eq hlexed] at hread
  have hderives := derives_of_readLexemes hread
  refine ⟨found, hlexed, ?_⟩
  rw [← hderives.map_capped_of_capped]
  exact hderives

/-- The grammar is unambiguous: a text stands for at most one formula. -/
theorem eq_of_denotes {text : String} {e' : Formula} (h : Denotes text e)
    (h' : Denotes text e') : e = e' := by
  have hread := parse_of_denotes h
  rw [parse_of_denotes h'] at hread
  exact (Except.ok.inj hread).symm

/-- Reading accepts exactly the sentences of the grammar whose numbers are facts, and gives the
formula of the derivation. -/
theorem parse_eq_ok_iff_denotes (text : String) (e : Formula) :
    parse text = .ok e ↔ Denotes text e := by
  constructor
  · exact denotes_of_parse
  · exact parse_of_denotes

/-- The largest number that stands for a fact is 63: `(063)` is read as this fact, and `64` and `99`
stand for nothing. -/
theorem parse_eq_ok_iff_denotes_largest :
    Denotes "(063)" (fact 63) ∧ parse "(063)" = .ok (fact 63) ∧
      (∀ e, ¬ Denotes "64" e) ∧ ∀ e, ¬ Denotes "99" e := by
  have hlexed : Lexed 0 "(063)".toList [⟨.opening, 0⟩, ⟨.number 63, 1⟩, ⟨.closing, 4⟩] := by
    apply Lexed.single .opening
    apply @Lexed.number 1 ['0', '6', '3'] [')'] _ (by simp) (by simp) (by simp)
    exact .single .closing .done
  have hderives : Derives .orExpr [.opening, .number 63, .closing] (fact 63) :=
    (Derives.fact 63).operand.andExpr.group.operand.andExpr
  have hdenotes : Denotes "(063)" (fact 63) := ⟨_, hlexed, hderives⟩
  refine ⟨hdenotes, (parse_eq_ok_iff_denotes _ _).mpr hdenotes, ?_, ?_⟩
  · intro e hnone
    have hrefused : parse "64" = .error (.outOfRange ⟨64⟩) := rfl
    rw [← parse_eq_ok_iff_denotes, hrefused] at hnone
    contradiction
  · intro e hnone
    have hrefused : parse "99" = .error (.outOfRange ⟨99⟩) := rfl
    rw [← parse_eq_ok_iff_denotes, hrefused] at hnone
    contradiction

end Formula

end Verdict
