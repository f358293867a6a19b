import Verdict.Proofs.OccurringFacts
import Verdict.Proofs.RoundTrip

/-!
# Formulas that can stand for each other

Two formulas with the same evidence can stand for each other anywhere in a larger formula. Some laws
of boolean algebra give such formulas: the connectives are associative, distributive, absorbing and
idempotent for the evidence too, and `and` commutes. `or` does not, since it is content with its
left operand, and so `(a & b) | c` and `(a | c) & (b | c)` differ. By associativity the groups
that the text of a formula has around right operands with the same connective can be left out: what
remains reads as another formula, but as one with the same evidence.
-/

namespace Verdict

namespace FactSet

theorem union_assoc (s t u : FactSet) : s ∪ t ∪ u = s ∪ (t ∪ u) := by
  ext f
  simp only [mem_union, or_assoc]

@[simp] theorem union_self (s : FactSet) : s ∪ s = s := by
  ext f
  rw [mem_union, or_self]

end FactSet

namespace Formula

/-! ### The evidence for a joined formula -/

/-- The evidence for a joined formula, from that of its operands. -/
def joined (c : Connective) (left right : Option FactSet) : Option FactSet :=
  (settled c left).getD (combined c left right)

theorem evidence_join (held : FactSet) (c : Connective) (left right : Formula) :
    evidence held (join c left right) = joined c (evidence held left) (evidence held right) := by
  cases c with
  | and =>
      rw [evidence]
      cases evidence held left with
      | none => rfl
      | some used => cases evidence held right <;> rfl
  | or =>
      rw [evidence]
      cases evidence held left <;> rfl

/-! The laws of `joined` are checked for operands that are true or false, in all combinations. -/

section Joined

variable (c : Connective) (x y z : Option FactSet)

theorem joined_assoc : joined c (joined c x y) z = joined c x (joined c y z) := by
  cases c <;> cases x <;> cases y <;> cases z <;>
    simp [joined, settled, combined, FactSet.union_assoc]

theorem joined_and_comm : joined .and x y = joined .and y x := by
  cases x <;> cases y <;> simp [joined, settled, combined, FactSet.union_comm]

theorem joined_and_or_left :
    joined .and x (joined .or y z) = joined .or (joined .and x y) (joined .and x z) := by
  cases x <;> cases y <;> cases z <;> simp [joined, settled, combined]

theorem joined_or_and_right :
    joined .and (joined .or x y) z = joined .or (joined .and x z) (joined .and y z) := by
  cases x <;> cases y <;> cases z <;> simp [joined, settled, combined]

theorem joined_or_and_left :
    joined .or x (joined .and y z) = joined .and (joined .or x y) (joined .or x z) := by
  cases x <;> cases y <;> cases z <;> simp [joined, settled, combined]

theorem joined_or_absorb : joined .or x (joined .and x y) = x := by
  cases x <;> cases y <;> simp [joined, settled, combined]

theorem joined_and_absorb : joined .and x (joined .or x y) = x := by
  cases x <;> cases y <;> simp [joined, settled, combined]

theorem joined_idem : joined c x x = x := by
  cases c <;> cases x <;> simp [joined, settled, combined]

end Joined

/-! ### Laws -/

/-- Laws that keep the evidence. -/
inductive Law : Formula → Formula → Prop where
  | assoc (c : Connective) (a b d : Formula) :
      Law (join c (join c a b) d) (join c a (join c b d))
  | and_comm (a b : Formula) : Law (join .and a b) (join .and b a)
  | and_or_left (a b d : Formula) :
      Law (join .and a (join .or b d)) (join .or (join .and a b) (join .and a d))
  | or_and_right (a b d : Formula) :
      Law (join .and (join .or a b) d) (join .or (join .and a d) (join .and b d))
  | or_and_left (a b d : Formula) :
      Law (join .or a (join .and b d)) (join .and (join .or a b) (join .or a d))
  | or_absorb (a b : Formula) : Law (join .or a (join .and a b)) a
  | and_absorb (a b : Formula) : Law (join .and a (join .or a b)) a
  | idem (c : Connective) (a : Formula) : Law (join c a a) a

variable {held : FactSet} {e e' : Formula}

theorem Law.evidence_eq (h : Law e e') (held : FactSet) : evidence held e = evidence held e' := by
  cases h with
  | assoc => simp only [evidence_join, joined_assoc]
  | and_comm a b => rw [evidence_join, evidence_join, joined_and_comm]
  | and_or_left => simp only [evidence_join, joined_and_or_left]
  | or_and_right => simp only [evidence_join, joined_or_and_right]
  | or_and_left => simp only [evidence_join, joined_or_and_left]
  | or_absorb => simp only [evidence_join, joined_or_absorb]
  | and_absorb => simp only [evidence_join, joined_and_absorb]
  | idem => simp only [evidence_join, joined_idem]

/-- No such laws: `or` does not commute, and does not distribute over an `and` on its left. -/
example :
    evidence {1, 2} (join .or (.fact 1) (.fact 2)) ≠
        evidence {1, 2} (join .or (.fact 2) (.fact 1)) ∧
      evidence {1, 3} (join .or (join .and (.fact 1) (.fact 2)) (.fact 3)) ≠
        evidence {1, 3}
          (join .and (join .or (.fact 1) (.fact 3)) (join .or (.fact 2) (.fact 3))) := by
  decide

/-! ### Places in a formula -/

/-- A formula with a hole in the place of one of its parts. -/
inductive Context where
  | hole
  | inLeft (c : Connective) (inner : Context) (right : Formula)
  | inRight (c : Connective) (left : Formula) (inner : Context)

/-- The formula with this part in the hole. -/
def Context.fill : Context → Formula → Formula
  | hole, e => e
  | inLeft c inner right, e => join c (inner.fill e) right
  | inRight c left inner, e => join c left (inner.fill e)

/-- Parts with the same evidence can stand for each other. -/
theorem evidence_fill (h : evidence held e = evidence held e') (context : Context) :
    evidence held (context.fill e) = evidence held (context.fill e') := by
  induction context with
  | hole => exact h
  | inLeft c inner right ih => rw [Context.fill, Context.fill, evidence_join, evidence_join, ih]
  | inRight c left inner ih => rw [Context.fill, Context.fill, evidence_join, evidence_join, ih]

/-! ### Groups that can be left out -/

/-- The tokens of a formula's text, maybe without some of the groups around right operands with the
same connective. -/
inductive Loosened : Formula → List Token → Prop where
  | fact (f : Fact) : Loosened (fact f) [.number f.val]
  | join {c : Connective} {left right : Formula} {tokens more : List Token}
      (hleft : Loosened left tokens) (hright : Loosened right more) :
      Loosened (join c left right)
        (operandTokens (left.precedence < c.precedence) tokens ++
          .connective c :: operandTokens (right.precedence ≤ c.precedence) more)
  | ungrouped {c : Connective} {left middle last : Formula} {tokens more : List Token}
      (hleft : Loosened left tokens) (hright : Loosened (join c middle last) more) :
      Loosened (join c left (join c middle last))
        (operandTokens (left.precedence < c.precedence) tokens ++ .connective c :: more)

variable {c : Connective} {left right : Formula} {tokens more : List Token}

/-- All groups may stay. -/
theorem loosened_tokens (e : Formula) : Loosened e e.tokens := by
  rw [tokens_eq_phrase]
  induction e with
  | fact f => exact .fact f
  | join c left right ihl ihr => exact ihl.join ihr

theorem eq_row_or_rank_item_le {a : Category} (h : c.row.rank ≤ a.rank) :
    c.row = a ∨ c.item.rank ≤ a.rank := by
  revert h
  cases c <;> cases a <;> decide

/-- A row may be continued by a row of the same connective. It is read from the left then, which
gives the evidence that the second row would give as one operand. -/
theorem exists_derives_of_rows (hleft : Derives c.row tokens left)
    (hright : Derives c.row more right) :
    ∃ e, Derives c.row (tokens ++ .connective c :: more) e ∧
      ∀ held, evidence held e = evidence held (join c left right) := by
  generalize hrow : c.row = a at hright
  induction hright using Derives.byRows with
  | number f => cases c <;> contradiction
  | group => cases c <;> contradiction
  | @weaken a b more right h hle ih =>
      subst hrow
      rcases eq_row_or_rank_item_le hle with hsame | hitem
      · exact hsame ▸ ih hsame
      · exact ⟨_, hleft.join c (h.weaken hitem), fun held => rfl⟩
  | @join d more rest middle last row item ihrow _ =>
      obtain rfl : c = d := by
        revert hrow
        cases c <;> cases d <;> decide
      obtain ⟨e, hderives, hevidence⟩ := ihrow rfl
      refine ⟨join c e last, ?_, fun held => ?_⟩
      · have hjoined := hderives.join c item
        rwa [List.append_assoc, List.cons_append] at hjoined
      · calc
          evidence held (join c e last) = evidence held (join c (join c left middle) last) := by
            rw [evidence_join, hevidence, ← evidence_join]
          _ = evidence held (join c left (join c middle last)) := (Law.assoc c ..).evidence_eq held

/-- Loosened tokens are a phrase, for a formula with the same evidence. -/
theorem Loosened.exists_derives (h : Loosened e tokens) :
    ∃ e', Derives e.category tokens e' ∧ ∀ held, evidence held e' = evidence held e := by
  induction h with
  | fact f => exact ⟨.fact f, .fact f, fun held => rfl⟩
  | @join c left right tokens more _ _ ihl ihr =>
      obtain ⟨left', hleft, hleftEvidence⟩ := ihl
      obtain ⟨right', hright, hrightEvidence⟩ := ihr
      refine ⟨.join c left' right', ?_, fun held => ?_⟩
      · exact (derives_leftOperand hleft).join c (derives_rightOperand hright)
      · rw [evidence_join, evidence_join, hleftEvidence, hrightEvidence]
  | @ungrouped c left middle last tokens more _ _ ihl ihr =>
      obtain ⟨left', hleft, hleftEvidence⟩ := ihl
      obtain ⟨right', hright, hrightEvidence⟩ := ihr
      obtain ⟨e', hderives, hevidence⟩ :=
        exists_derives_of_rows (derives_leftOperand hleft) hright
      refine ⟨e', hderives, fun held => ?_⟩
      rw [hevidence, evidence_join, evidence_join, hleftEvidence, hrightEvidence]

/-- What a law equates has the same evidence at every place of a formula, whatever facts hold. So
the groups around right operands with the same connective do not matter: the text of a formula can
be read with all of them, and without any of them, and what is read has the same evidence at every
place of a formula. -/
theorem findEvidence_interchange :
    (∀ e e', Law e e' → ∀ (context : Context) (held : FactSet),
      findEvidence held (context.fill e) = findEvidence held (context.fill e')) ∧
    (∀ e, Loosened e e.tokens) ∧
    ∀ e tokens, Loosened e tokens →
      ∃ e', parse (String.join (tokens.map Token.spelling)) = .ok e' ∧
        ∀ (context : Context) (held : FactSet),
          findEvidence held (context.fill e') = findEvidence held (context.fill e) := by
  simp only [findEvidence_eq_evidence]
  refine ⟨?_, loosened_tokens, ?_⟩
  · intro e e' hlaw context held
    exact evidence_fill (hlaw.evidence_eq held) context
  · intro e tokens hloosened
    obtain ⟨e', hderives, hevidence⟩ := hloosened.exists_derives
    refine ⟨e', parse_of_denotes (denotes_join_spelling hderives), fun context held => ?_⟩
    exact evidence_fill (hevidence held) context

/-- `1 | (2 | 3)` without its group reads as another formula with the same evidence, also where it
is an operand. A law applies to an operand just so. -/
theorem findEvidence_interchange_nested_row :
    let e : Formula := .join .or (.fact 1) (.join .or (.fact 2) (.fact 3))
    let e' : Formula := .join .or (.join .or (.fact 1) (.fact 2)) (.fact 3)
    e.text = "1 | (2 | 3)" ∧ parse "1 | 2 | 3" = .ok e' ∧
      (∀ held, findEvidence held (join .and (.fact 4) e') =
        findEvidence held (join .and (.fact 4) e)) ∧
      ∀ held, findEvidence held (join .and (join .and (.fact 1) (.fact 2)) (.fact 3)) =
        findEvidence held (join .and (join .and (.fact 2) (.fact 1)) (.fact 3)) := by
  intro e e'
  have htext : e.text = "1 | (2 | 3)" := by
    rw [text, tokens_eq_phrase]
    rfl
  have hparse : parse "1 | 2 | 3" = .ok e' := rfl
  have hloosened : Loosened e
      [.number 1, .connective .or, .number 2, .connective .or, .number 3] :=
    .ungrouped (.fact 1) (.join (.fact 2) (.fact 3))
  obtain ⟨hlaws, -, hgroups⟩ := findEvidence_interchange
  refine ⟨htext, hparse, ?_, ?_⟩
  · obtain ⟨read, hread, hevidence⟩ := hgroups e _ hloosened
    obtain rfl : e' = read := Except.ok.inj (hparse.symm.trans hread)
    exact hevidence (.inRight .and (.fact 4) .hole)
  · exact hlaws _ _ (.and_comm (.fact 1) (.fact 2)) (.inLeft .and .hole (.fact 3))

end Formula

end Verdict
