import Verdict.Proofs.Words

/-!
# Open and closed groups

How far the groups of a text are open is a matter of counting parentheses. A text is balanced when
it closes all the groups that it opens, and no beginning of it closes more. Phrases of the grammar
are balanced, and so are groups of nothing; so what a reading has between its open groups is
balanced. What stands between the parentheses does not count: `NeverOverclosed.of_filter` and
`Balanced.of_filter` pass from the parentheses of a text to the text.
-/

namespace Verdict

/-- The text closes more groups than it opens. -/
def Overclosed (text : List Char) : Prop := text.count '(' < text.count ')'

instance (text : List Char) : Decidable (Overclosed text) :=
  inferInstanceAs (Decidable (_ < _))

/-- No beginning of the text closes more groups than it opens. -/
def NeverOverclosed (text : List Char) : Prop := ∀ upto, upto <+: text → ¬ Overclosed upto

/-- The text closes all the groups that it opens, and no others. -/
structure Balanced (text : List Char) : Prop where
  never : NeverOverclosed text
  settled : text.count '(' = text.count ')'

variable {text left right : List Char}

theorem overclosed_filter : Overclosed (text.filter isParen) ↔ Overclosed text := by
  unfold Overclosed
  rw [List.count_filter (by decide), List.count_filter (by decide)]

theorem NeverOverclosed.of_filter (h : NeverOverclosed (text.filter isParen)) :
    NeverOverclosed text := by
  intro upto hupto hover
  exact h _ (hupto.filter isParen) (overclosed_filter.mpr hover)

theorem Balanced.of_filter (h : Balanced (text.filter isParen)) : Balanced text where
  never := h.never.of_filter
  settled := by
    have hsettled := h.settled
    rwa [List.count_filter (by decide), List.count_filter (by decide)] at hsettled

theorem NeverOverclosed.mono (h : NeverOverclosed text) (hle : left <+: text) :
    NeverOverclosed left := fun _ hupto => h _ (hupto.trans hle)

theorem neverOverclosed_nil : NeverOverclosed [] := by
  intro upto hupto
  rw [List.prefix_nil.mp hupto]
  decide

/-- A text may go on as long as it does not close more than it has opened. -/
theorem NeverOverclosed.concat (h : NeverOverclosed text) {c : Char}
    (hc : ¬ Overclosed (text ++ [c])) : NeverOverclosed (text ++ [c]) := by
  intro upto hupto
  rcases List.prefix_concat_iff.mp hupto with rfl | hupto
  · exact hc
  · exact h upto hupto

namespace Balanced

theorem nil : Balanced [] where
  never := neverOverclosed_nil
  settled := rfl

theorem append (hleft : Balanced left) (hright : Balanced right) : Balanced (left ++ right) where
  never upto hupto := by
    rcases List.prefix_or_prefix_of_prefix hupto (List.prefix_append left right) with h | h
    · exact hleft.never upto h
    · obtain ⟨more, rfl⟩ := h
      have hmore := hright.never more ((List.prefix_append_right_inj left).mp hupto)
      have hsettled := hleft.settled
      unfold Overclosed at hmore ⊢
      rw [List.count_append, List.count_append]
      omega
  settled := by
    rw [List.count_append, List.count_append, hleft.settled, hright.settled]

theorem group (h : Balanced text) : Balanced ('(' :: text ++ [')']) where
  never := by
    apply NeverOverclosed.concat
    · intro upto hupto hover
      rcases List.prefix_cons_iff.mp hupto with rfl | ⟨inner, rfl, hinner⟩
      · exact absurd hover (by decide)
      · have hnever := h.never inner hinner
        simp only [Overclosed, List.count_cons_self,
          List.count_cons_of_ne (show '(' ≠ ')' by decide)] at hnever hover
        omega
    · simp [Overclosed, h.settled]
  settled := by simp [h.settled]

/-- What is left of a balanced text after an opening parenthesis closes the group. -/
theorem overclosed_of_append (h : Balanced (left ++ '(' :: right)) : Overclosed right := by
  have hleft := h.never left (List.prefix_append _ _)
  have hsettled := h.settled
  unfold Overclosed at hleft ⊢
  simp only [List.count_append, List.count_cons_self,
    List.count_cons_of_ne (show '(' ≠ ')' by decide)] at hsettled
  omega

end Balanced

section Tokens

variable {a : Category} {tokens : List Token} {e : Formula}

/-- The parentheses of a phrase are balanced. -/
theorem Derives.balanced (h : Derives a tokens e) : Balanced (tokens.flatMap Token.parens) := by
  induction h using Derives.byRows with
  | number f => exact .nil
  | group _ ih => simpa [Token.parens] using ih.group
  | weaken _ _ ih => exact ih
  | join _ _ ihl ihr => simpa [Token.parens] using ihl.append ihr

theorem Hollow.balanced (h : Hollow tokens) : Balanced (tokens.flatMap Token.parens) := by
  induction h with
  | bare => exact Balanced.nil.group
  | group _ ih => simpa [Token.parens] using ih.group

theorem Fills.balanced {before piece : List Lexeme} {slot : Option Formula}
    (h : Fills a before piece slot) :
    Balanced ((piece.map Lexeme.token).flatMap Token.parens) := by
  cases h with
  | phrase hphrase => exact hphrase.balanced
  | hollow hhollow _ => exact hhollow.balanced

end Tokens

end Verdict
