import Mathlib.Data.List.Chain
import Verdict.Formula.Rendering
import Verdict.Proofs.Parsing

/-!
# The text of a formula reads back as the formula

The tokens of the text are a phrase of the grammar for the formula, since parentheses stand
wherever an operand is of a looser category than its place asks for. Written out, the tokens of any
phrase are found again, because no two numbers ever stand side by side in a phrase and the bars of
connectives are kept apart by spaces.
-/

namespace Verdict

/-- Two tokens that may be written side by side. -/
def Token.Apart (t u : Token) : Prop := ∀ v w, t = number v → u ≠ number w

/-- Tokens that are found again when they are written one after the other. -/
structure Separated (tokens : List Token) : Prop where
  known : ∀ t ∈ tokens, ∀ c, t ≠ .unknown c
  apart : tokens.IsChain Token.Apart

theorem Separated.tail {t : Token} {tokens : List Token} (h : Separated (t :: tokens)) :
    Separated tokens where
  known u hu := h.known u (List.mem_cons_of_mem _ hu)
  apart := h.apart.tail

theorem Separated.nil : Separated [] where
  known _ ht := absurd ht List.not_mem_nil
  apart := List.isChain_nil

/-- A token that is no number may stand between any two rows of separated tokens. -/
theorem Separated.append_cons {left right : List Token} {t : Token} (hleft : Separated left)
    (hright : Separated right) (hnumber : ∀ v, t ≠ .number v) (hknown : ∀ c, t ≠ .unknown c) :
    Separated (left ++ t :: right) := by
  constructor
  · intro u hu
    rcases List.mem_append.mp hu with hu | hu
    · exact hleft.known u hu
    · rcases List.mem_cons.mp hu with rfl | hu
      · exact hknown
      · exact hright.known u hu
  · apply List.IsChain.append hleft.apart
    · exact hright.apart.cons fun u _ v _ ht => absurd ht (hnumber v)
    · rintro u - _ ⟨⟩ _ w -
      exact hnumber w

/-- The tokens of a phrase are separated. -/
theorem Derives.separated {a : Category} {tokens : List Token} {e : Formula}
    (h : Derives a tokens e) : Separated tokens := by
  induction h using Derives.byRows with
  | number f => exact ⟨by simp, List.isChain_singleton _⟩
  | group _ ih =>
      have hopening : Separated (.opening :: _) := Separated.nil.append_cons ih (by simp) (by simp)
      exact hopening.append_cons .nil (by simp) (by simp)
  | weaken _ _ ih => exact ih
  | join _ _ ihl ihr => exact ihl.append_cons ihr (by simp) (by simp)

/-- The characters of tokens written one after the other. -/
def spelling (tokens : List Token) : List Char := tokens.flatMap fun t => t.spelling.toList

theorem spelling_cons (t : Token) (tokens : List Token) :
    spelling (t :: tokens) = t.spelling.toList ++ spelling tokens := List.flatMap_cons

/-- What follows a number in separated tokens does not continue it. -/
theorem Separated.head_spelling {value : Nat} {tokens : List Token}
    (h : Separated (.number value :: tokens)) :
    ∀ c ∈ (spelling tokens).head?, c.isDigit = false := by
  cases tokens with
  | nil => simp [spelling]
  | cons u rest =>
      have hapart := List.isChain_cons_cons.mp h.apart |>.1 value
      rw [spelling_cons]
      intro c hc
      cases u with
      | number w => exact absurd rfl (hapart w rfl)
      | opening =>
          obtain rfl : '(' = c := by simpa [Token.spelling] using hc
          decide
      | closing =>
          obtain rfl : ')' = c := by simpa [Token.spelling] using hc
          decide
      | connective d =>
          obtain rfl : ' ' = c := by cases d <;> simpa [Token.spelling] using hc
          decide
      | unknown d => exact absurd rfl (h.known _ (by simp) d)

theorem toList_spelling_number (value : Nat) :
    (Token.number value).spelling.toList = Nat.toDigits 10 value := by
  rw [Token.spelling, Nat.toString_eq_ofList_toDigits, String.toList_ofList]

theorem Lexed.number_spelling {start value : Nat} {rest : List Char} {found : List Lexeme}
    (hrest : ∀ c ∈ rest.head?, c.isDigit = false)
    (tail : Lexed (start + (Nat.toDigits 10 value).length) rest found) :
    Lexed start (Nat.toDigits 10 value ++ rest) (⟨.number value, start⟩ :: found) := by
  have h := Lexed.number Nat.toDigits_ne_nil (isDigit_toDigits value) hrest tail
  rwa [numeral_toDigits] at h

theorem isBlank_space : Text.isBlank ' ' = true := by decide

/-- Separated tokens are found again when they are written one after the other. -/
theorem Separated.exists_lexed {tokens : List Token} (h : Separated tokens) (start : Nat) :
    ∃ found, Lexed start (spelling tokens) found ∧ found.map Lexeme.token = tokens := by
  induction tokens generalizing start with
  | nil => exact ⟨[], .done, rfl⟩
  | cons t rest ih =>
      rw [spelling_cons]
      cases t with
      | number value =>
          obtain ⟨found, tail, hfound⟩ := ih h.tail (start + (Nat.toDigits 10 value).length)
          refine ⟨⟨.number value, start⟩ :: found, ?_, congrArg _ hfound⟩
          rw [toList_spelling_number]
          exact .number_spelling h.head_spelling tail
      | opening =>
          obtain ⟨found, tail, hfound⟩ := ih h.tail (start + 1)
          refine ⟨⟨.opening, start⟩ :: found, ?_, congrArg _ hfound⟩
          exact .single .opening tail
      | closing =>
          obtain ⟨found, tail, hfound⟩ := ih h.tail (start + 1)
          refine ⟨⟨.closing, start⟩ :: found, ?_, congrArg _ hfound⟩
          exact .single .closing tail
      | connective c =>
          obtain ⟨found, tail, hfound⟩ := ih h.tail (start + 1 + 1 + 1)
          refine ⟨⟨.connective c, start + 1⟩ :: found, ?_, congrArg _ hfound⟩
          cases c with
          | and =>
              apply Lexed.blank isBlank_space
              apply Lexed.single .and
              exact .blank isBlank_space tail
          | or =>
              apply Lexed.blank isBlank_space
              refine Lexed.bar ?_ (.blank isBlank_space tail)
              rintro c hc rfl
              cases hc
      | unknown c => exact absurd rfl (h.known _ (List.mem_cons_self ..) c)

namespace Formula

/-- The tightest category of a formula's text. -/
def category : Formula → Category
  | fact _ => .operand
  | join c _ _ => c.row

theorem rank_category (e : Formula) : e.category.rank = e.precedence := by
  cases e with
  | fact f => rfl
  | join c left right => exact Connective.rank_row c

/-- In parentheses a phrase fits every place, and without them it fits the looser ones. -/
theorem derives_operandTokens {a b : Category} {tokens : List Token} {e : Formula}
    {grouped : Bool} (h : Derives a tokens e) (hfits : grouped = false → b.rank ≤ a.rank) :
    Derives b (operandTokens grouped tokens) e := by
  cases grouped with
  | false => exact h.weaken (hfits rfl)
  | true =>
      have hrow : Derives .orExpr tokens e := h.weaken a.rank_orExpr_le
      exact hrow.group.weaken b.rank_le_operand

section Operands

variable {a : Category} {tokens : List Token} {e e' : Formula} {c : Connective}

/-- A phrase of the category of an operand fits the left place of a connective, in parentheses where
the operand needs them. -/
theorem derives_leftOperand (h : Derives e.category tokens e') :
    Derives c.row (operandTokens (e.precedence < c.precedence) tokens) e' := by
  apply derives_operandTokens h
  intro hgrouped
  rw [Connective.rank_row, rank_category]
  exact Nat.le_of_not_lt (of_decide_eq_false hgrouped)

theorem derives_rightOperand (h : Derives e.category tokens e') :
    Derives c.item (operandTokens (e.precedence ≤ c.precedence) tokens) e' := by
  apply derives_operandTokens h
  intro hgrouped
  rw [Connective.rank_item, rank_category]
  exact Nat.lt_of_not_le (of_decide_eq_false hgrouped)

/-- The tokens of a formula's text are a phrase for it. -/
theorem derives_phrase (e : Formula) : Derives e.category e.phrase e := by
  induction e with
  | fact f => exact .fact f
  | join c left right ihl ihr => exact (derives_leftOperand ihl).join c (derives_rightOperand ihr)

theorem toList_join_spelling (tokens : List Token) :
    (String.join (tokens.map Token.spelling)).toList = spelling tokens := by
  calc
    (String.join (tokens.map Token.spelling)).toList =
        (tokens.map Token.spelling).flatMap String.toList := String.toList_join
    _ = spelling tokens := List.flatMap_map ..

/-- Written one after the other, the tokens of a phrase are a text for its formula. -/
theorem denotes_join_spelling (h : Derives a tokens e) :
    Denotes (String.join (tokens.map Token.spelling)) e := by
  obtain ⟨found, hlexed, hfound⟩ := h.separated.exists_lexed 0
  refine ⟨found, toList_join_spelling tokens ▸ hlexed, ?_⟩
  rw [hfound]
  exact h.weaken a.rank_orExpr_le

end Operands

theorem toList_text (e : Formula) : e.text.toList = spelling e.phrase := by
  rw [text, toList_join_spelling, tokens_eq_phrase]

/-- The text of a formula stands for it. -/
theorem denotes_text (e : Formula) : Denotes e.text e := by
  rw [text, tokens_eq_phrase]
  exact denotes_join_spelling e.derives_phrase

/-- Reading the text of a formula gives the same formula. -/
theorem parse_text (e : Formula) : parse e.text = .ok e :=
  parse_of_denotes e.denotes_text

end Formula

end Verdict
