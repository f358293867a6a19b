import Verdict.Proofs.RoundTrip
import Verdict.Proofs.Words

/-!
# A formula's text has the fewest parentheses

Whatever text stands for a formula, it opens at least as many groups as the formula's own text. The
comparison follows the grammar: where an operand stands at a place of a tighter category than its
own, every derivation has to pass through a group there, and the formula's text has a group only at
such places. So no group of a formula's text can be left out.
-/

namespace Verdict

/-! ### Counting groups -/

theorem count_flatMap_parens (tokens : List Token) :
    (tokens.flatMap Token.parens).count '(' = tokens.count .opening := by
  induction tokens with
  | nil => rfl
  | cons t rest ih =>
      rw [List.flatMap_cons, List.count_append, ih, List.count_cons, Nat.add_comm]
      cases t <;> rfl

/-- The groups that a text opens are its opening tokens. -/
theorem Spelled.count_opening {tokens : List Token} {text : List Char} (h : Spelled tokens text) :
    text.count '(' = tokens.count .opening := by
  rw [← List.count_filter (p := isParen) (by decide), h.filter_isParen, count_flatMap_parens]

/-- The groups that a text opens are those of the phrase that it is cut into. -/
theorem Lexed.count_opening {start : Nat} {text : List Char} {found : List Lexeme} {a : Category}
    {e : Formula} (h : Lexed start text found) (hderives : Derives a (found.map Lexeme.token) e) :
    text.count '(' = (found.map Lexeme.token).count .opening := by
  have hspelled := h.spelled
  rw [hderives.map_capped] at hspelled
  rw [← hspelled.count_opening, visible, List.count_filter (by decide)]

namespace Formula

theorem count_operandTokens (grouped : Bool) (tokens : List Token) :
    (operandTokens grouped tokens).count .opening =
      tokens.count .opening + if grouped then 1 else 0 := by
  cases grouped <;> simp [operandTokens]

theorem count_text (e : Formula) : e.text.toList.count '(' = e.phrase.count .opening := by
  obtain ⟨found, hlexed, hfound⟩ := e.derives_phrase.separated.exists_lexed 0
  have hderives : Derives e.category (found.map Lexeme.token) e := hfound ▸ e.derives_phrase
  calc
    e.text.toList.count '(' = (spelling e.phrase).count '(' := by rw [toList_text]
    _ = (found.map Lexeme.token).count .opening := hlexed.count_opening hderives
    _ = e.phrase.count .opening := by rw [hfound]

theorem count_operandTokens_mono {m n : Nat} (h : m ≤ n) (e : Formula) :
    (operandTokens (e.precedence < m) e.phrase).count .opening ≤
      (operandTokens (e.precedence < n) e.phrase).count .opening := by
  simp only [count_operandTokens, decide_eq_true_eq]
  split_ifs <;> omega

theorem phrase_join (c : Connective) (left right : Formula) :
    (join c left right).phrase =
      operandTokens (left.precedence < c.row.rank) left.phrase ++
        .connective c :: operandTokens (right.precedence < c.item.rank) right.phrase := by
  simp only [Connective.rank_row, Connective.rank_item, Nat.lt_succ_iff]
  rfl

/-- At a place of some category every phrase for a formula opens at least the groups that the
formula's own phrase opens there. -/
theorem count_operandTokens_le {a : Category} {tokens : List Token} {e : Formula}
    (h : Derives a tokens e) :
    (operandTokens (e.precedence < a.rank) e.phrase).count .opening ≤ tokens.count .opening := by
  induction h using Derives.byRows with
  | number f => exact Nat.le_refl 0
  | @group tokens e _ ih =>
      -- The group of the derivation makes up for the one that the formula may need here.
      have hgroup : (Token.opening :: tokens ++ [Token.closing]).count Token.opening =
          tokens.count Token.opening + 1 := by simp
      rw [hgroup]
      rw [count_operandTokens] at ih ⊢
      split <;> omega
  | weaken _ hle ih => exact Nat.le_trans (count_operandTokens_mono hle _) ih
  | @join c tokens more left right _ _ ihl ihr =>
      -- A row has room for its own connective, so only the operands may need groups.
      have hplain : decide ((join c left right).precedence < c.row.rank) = false := by
        simp [precedence]
      rw [hplain, operandTokens, if_neg Bool.false_ne_true, phrase_join, List.count_append,
        List.count_append, List.count_cons_of_ne (by simp), List.count_cons_of_ne (by simp)]
      exact Nat.add_le_add ihl ihr

/-- Every text that stands for a formula opens at least as many groups as the text of the
formula. -/
theorem count_text_le {t : String} {e : Formula} (h : parse t = .ok e) :
    e.text.toList.count '(' ≤ t.toList.count '(' := by
  obtain ⟨found, hlexed, hderives⟩ := denotes_of_parse h
  have hle := count_operandTokens_le hderives
  rw [count_operandTokens] at hle
  rw [count_text, hlexed.count_opening hderives]
  omega

/-- The text of a formula has the fewest groups of all texts that stand for the formula. So if any
of its groups is left out, or an opening parenthesis together with any closing one after it, what
remains does not stand for the formula. -/
theorem text_fewest_groups (e : Formula) :
    (∀ t, parse t = .ok e → e.text.toList.count '(' ≤ t.toList.count '(') ∧
      ∀ before inner after, e.text.toList = before ++ '(' :: inner ++ ')' :: after →
        parse (String.ofList (before ++ inner ++ after)) ≠ .ok e := by
  refine ⟨fun t h => count_text_le h, ?_⟩
  intro before inner after htext hparse
  have hle := count_text_le hparse
  rw [htext, String.toList_ofList] at hle
  simp only [List.count_append, List.count_cons_self,
    List.count_cons_of_ne (show ')' ≠ '(' by decide)] at hle
  omega

/-- The text of `1 | (2 | 3)` has one group. A text with three groups stands for the same formula,
and the text without its group stands for another one. -/
theorem text_fewest_groups_nested_row :
    let e : Formula := .join .or (.fact 1) (.join .or (.fact 2) (.fact 3))
    e.text = "1 | (2 | 3)" ∧ parse "((1)||(2|3))" = .ok e ∧
      e.text.toList.count '(' ≤ "((1)||(2|3))".toList.count '(' ∧ parse "1 | 2 | 3" ≠ .ok e := by
  intro e
  have htext : e.text = "1 | (2 | 3)" := by
    rw [text, tokens_eq_phrase]
    rfl
  have hparse : parse "((1)||(2|3))" = .ok e := rfl
  obtain ⟨hfewest, hneeded⟩ := text_fewest_groups e
  refine ⟨htext, hparse, hfewest _ hparse, ?_⟩
  exact hneeded "1 | ".toList "2 | 3".toList [] (by rw [htext]; rfl)

end Formula

end Verdict
