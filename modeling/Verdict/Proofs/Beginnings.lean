import Mathlib.Data.List.Induction
import Verdict.Proofs.Lexing

/-!
# The lexemes of the beginning of a text

A text is cut at every lexeme: the characters before the lexeme have the lexemes before it, and
this remains so however the text goes on after the lexeme's first character. That character fixes
the token too, except for the value of a number. So two texts that agree up to and including the
first character of a lexeme have the same lexemes before it, and at its place the same lexeme or
two numbers.

`exists_cut` finds the cut, and `exists_alike` says how texts go on after it.
-/

namespace Verdict

namespace Scan

/-- Only a digit or a bar continues a token. -/
theorem before_of_ne {c : Char} (hdigit : c.isDigit = false) (hbar : c ≠ '|') (s : Scan)
    (rest : List Char) : s.Before (c :: rest) := by
  rintro d ⟨⟩
  unfold next
  split
  · rfl
  · rw [hdigit]
    rfl
  · rw [if_neg hbar]

theorem Before.of_head {s : Scan} {c : Char} (h : s.Before [c]) (rest : List Char) :
    s.Before (c :: rest) := by
  rintro d ⟨⟩
  exact h c rfl

end Scan

/-- The lexemes of a text that goes on with a token of its own. -/
theorem lexemes_append {front text : List Char} {more : List Lexeme}
    (hbefore : (Scan.ofChars front).Before text) (h : Lexed front.length text more) :
    lexemes (front ++ text) = lexemes front ++ more.map Lexeme.capped := by
  have hall := Scan.all_foldl_next h (Scan.position_ofChars front) hbefore
  rw [Scan.ofChars] at hall
  rw [lexemes, lexemes, Scan.ofChars, Scan.ofChars, List.foldl_append, hall, List.reverse_append,
    List.reverse_reverse]

/-- A text of one character is its own first piece. -/
theorem lexed_singleton (start : Nat) (c : Char) : Lexed start [c] (firstPiece start c []).found := by
  have hrest : (firstPiece start c []).rest = [] :=
    List.eq_nil_of_length_eq_zero (Nat.le_zero.mp (length_firstPiece_le start c []))
  have hdone : Lexed (firstPiece start c []).next (firstPiece start c []).rest [] := by
    rw [hrest]
    exact .done
  simpa using hdone.append_firstPiece

theorem found_firstPiece_of_isBlank {c : Char} (hc : Text.isBlank c = true) (start : Nat)
    (text : List Char) : (firstPiece start c text).found = [] := by
  simp [firstPiece, isDigit_eq_false_of_isBlank hc, ne_bar_of_isBlank hc, hc]

/-- The token that a character begins is a number, or it does not depend on what follows. -/
theorem found_firstPiece {c : Char} (hc : Text.isBlank c = false) (start : Nat) :
    (∀ text, ∃ value, (firstPiece start c text).found = [⟨.number value, start⟩]) ∨
      ∃ t, ∀ text, (firstPiece start c text).found = [⟨t, start⟩] := by
  by_cases hdigit : c.isDigit
  · left
    intro text
    exact ⟨_, by rw [firstPiece, if_pos hdigit]⟩
  · right
    by_cases hbar : c = '|'
    · refine ⟨.connective .or, fun text => ?_⟩
      rw [firstPiece, if_neg hdigit, if_pos hbar]
      split <;> rfl
    · exact ⟨.ofChar c, fun text => by simp [firstPiece, hdigit, hbar, hc]⟩

/-- One more character either begins a piece of its own or continues the last lexeme. -/
theorem lexemes_snoc (text : List Char) (c : Char) :
    (Scan.ofChars text).Before [c] ∧
        lexemes (text ++ [c]) =
          lexemes text ++ (firstPiece text.length c []).found.map Lexeme.capped ∨
      ∃ done t t' start, lexemes text = done ++ [⟨t, start⟩] ∧
        lexemes (text ++ [c]) = done ++ [⟨t', start⟩] := by
  by_cases hbefore : (Scan.ofChars text).Before [c]
  · exact .inl ⟨hbefore, lexemes_append hbefore (lexed_singleton _ c)⟩
  · right
    have hnext : lexemes (text ++ [c]) = ((Scan.ofChars text).next c).all.reverse := by
      rw [lexemes, Scan.ofChars, List.foldl_append]
      rfl
    rw [hnext, lexemes]
    generalize Scan.ofChars text = s at hbefore
    obtain ⟨position, unfinished, finished⟩ := s
    cases unfinished with
    | nothing => exact absurd (Scan.before_of_nothing rfl _) hbefore
    | number start value =>
        by_cases hc : c.isDigit
        · refine ⟨finished.reverse, .number value,
            .number (Text.Decimal.push Token.ceiling value c), start, List.reverse_cons, ?_⟩
          simp [Scan.next, Scan.all, hc]
        · refine absurd ?_ hbefore
          rintro d ⟨⟩
          simp [Scan.next, hc]
    | bar start =>
        by_cases hc : c = '|'
        · refine ⟨finished.reverse, .connective .or, .connective .or, start,
            List.reverse_cons, ?_⟩
          simp [Scan.next, Scan.all, hc]
        · refine absurd ?_ hbefore
          rintro d ⟨⟩
          simp [Scan.next, hc]

/-- An item of a list with a last one is the last one, or an item of the rest. -/
theorem snoc_eq_append_cons {α : Type} {xs before after : List α} {x y : α}
    (h : xs ++ [y] = before ++ x :: after) :
    (before = xs ∧ x = y) ∨ ∃ after', xs = before ++ x :: after' := by
  rcases List.eq_nil_or_concat after with rfl | ⟨after', z, rfl⟩
  · obtain ⟨hfront, hlast⟩ := List.append_inj' h rfl
    exact .inl ⟨hfront.symm, (List.head_eq_of_cons_eq hlast).symm⟩
  · rw [List.concat_eq_append, ← List.cons_append, ← List.append_assoc] at h
    exact .inr ⟨after', (List.append_inj' h rfl).1⟩

/-- A text is cut at each of its lexemes: `front` is what stands before the lexeme, and `c` is the
lexeme's first character. -/
theorem exists_cut {text : List Char} {before after : List Lexeme} {l : Lexeme}
    (h : lexemes text = before ++ l :: after) :
    ∃ front c rest, text = front ++ c :: rest ∧ front.length = l.position ∧
      lexemes front = before ∧ (Scan.ofChars front).Before [c] ∧ Text.isBlank c = false := by
  -- The text grows at its end, since the scan holds back no more than the last lexeme.
  induction text using List.reverseRecOn generalizing l after with
  | nil => simp [lexemes, Scan.ofChars, Scan.all] at h
  | append_singleton text d ih =>
      have hold : ∀ {l' after'}, lexemes text = before ++ l' :: after' → l'.position = l.position →
          ∃ front c rest, text ++ [d] = front ++ c :: rest ∧ front.length = l.position ∧
            lexemes front = before ∧ (Scan.ofChars front).Before [c] ∧
            Text.isBlank c = false := by
        intro l' after' hl' hposition
        obtain ⟨front, c, rest, rfl, hlength, hcut⟩ := ih hl'
        exact ⟨front, c, rest ++ [d], by simp, hlength.trans hposition, hcut⟩
      rcases lexemes_snoc text d with ⟨hbefore, hsnoc⟩ | ⟨done, t, t', start, hlast, hsnoc⟩
      · rw [hsnoc] at h
        by_cases hd : Text.isBlank d
        · rw [found_firstPiece_of_isBlank hd, List.map_nil, List.append_nil] at h
          exact hold h rfl
        · rw [Bool.not_eq_true] at hd
          obtain ⟨t, ht⟩ : ∃ t, (firstPiece text.length d []).found = [⟨t, text.length⟩] := by
            rcases found_firstPiece hd text.length with hfound | ⟨t, hfound⟩
            · obtain ⟨value, hvalue⟩ := hfound []
              exact ⟨_, hvalue⟩
            · exact ⟨t, hfound []⟩
          rw [ht] at h
          rcases snoc_eq_append_cons h with ⟨hfront, rfl⟩ | ⟨after', hl⟩
          · exact ⟨text, d, [], rfl, rfl, hfront.symm, hbefore, hd⟩
          · exact hold hl rfl
      · rw [hsnoc] at h
        rcases snoc_eq_append_cons h with ⟨rfl, rfl⟩ | ⟨after', rfl⟩
        · exact hold hlast rfl
        · exact hold (by simpa using hlast) rfl

/-- The same lexeme, or two numbers at the same place. -/
def Lexeme.Alike (l l' : Lexeme) : Prop :=
  l' = l ∨ ∃ value value' position, l = ⟨.number value, position⟩ ∧ l' = ⟨.number value', position⟩

/-- Texts that go on with the same first character of a lexeme go on with lexemes that are alike. -/
theorem exists_alike {front rest : List Char} {c : Char} {before after : List Lexeme} {l : Lexeme}
    (hcut : (Scan.ofChars front).Before [c]) (hc : Text.isBlank c = false)
    (hfront : lexemes front = before) (h : lexemes (front ++ c :: rest) = before ++ l :: after)
    (rest' : List Char) :
    ∃ l' after', lexemes (front ++ c :: rest') = before ++ l' :: after' ∧ l.Alike l' := by
  have hpieces : ∀ rest, ∃ more, lexemes (front ++ c :: rest) =
      before ++ ((firstPiece front.length c rest).found ++ more).map Lexeme.capped := by
    intro rest
    obtain ⟨found, hlexed, -⟩ := existsUnique_lexed front.length (c :: rest)
    obtain ⟨more, rfl, -⟩ := hlexed.exists_eq_append
    refine ⟨more, ?_⟩
    rw [lexemes_append (hcut.of_head rest) hlexed, hfront]
  obtain ⟨more, hmore⟩ := hpieces rest
  obtain ⟨more', hmore'⟩ := hpieces rest'
  rw [hmore, List.append_cancel_left_eq] at h
  rcases found_firstPiece hc front.length with hfound | ⟨t, hfound⟩
  · obtain ⟨value, hvalue⟩ := hfound rest
    obtain ⟨value', hvalue'⟩ := hfound rest'
    rw [hvalue] at h
    rw [hvalue'] at hmore'
    exact ⟨_, _, hmore', .inr ⟨_, _, _, (List.head_eq_of_cons_eq h).symm, rfl⟩⟩
  · rw [hfound rest] at h
    rw [hfound rest'] at hmore'
    exact ⟨_, _, hmore', .inl (List.head_eq_of_cons_eq h)⟩

/-- Whatever follows a text, its lexemes stay, except for the value of a number at its end. -/
theorem exists_lexemes_append {front : List Char} {before : List Lexeme} {l : Lexeme}
    (h : lexemes front = before ++ [l]) (rest : List Char) :
    ∃ l' after, lexemes (front ++ rest) = before ++ l' :: after ∧ l.Alike l' := by
  obtain ⟨upto, c, past, rfl, -, hupto, hcut, hc⟩ := exists_cut h
  rw [List.append_assoc, List.cons_append]
  exact exists_alike hcut hc hupto h (past ++ rest)

end Verdict
