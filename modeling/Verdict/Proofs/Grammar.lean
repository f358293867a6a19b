import Verdict.Proofs.Lexing

/-!
# The grammar of formulas

`Derives` is the grammar over tokens, with the formula that a derivation stands for: a row of
`and`s of operands inside a row of `or`s, where both rows group to the left, an operand is a number
below 64 or a whole row in parentheses. `Denotes` is the grammar over texts.

## Implementation notes

The two rows differ only in their connective. `Derives.join` states both rules as one, for a
connective `c` that joins what is derived at `c.row` to one more item at `c.item`, and
`Derives.weaken` passes from tighter to looser categories; proofs about readings use these two.
-/

namespace Verdict

/-- The categories of the grammar. -/
inductive Category where
  | orExpr
  | andExpr
  | operand
  deriving DecidableEq, Repr

/-- `Derives a tokens e` says that the tokens are a phrase of category `a` that stands for `e`. -/
inductive Derives : Category → List Token → Formula → Prop where
  | number {value} (hlt : value < 64) : Derives .operand [.number value] (.fact ⟨value, hlt⟩)
  | group {tokens e} (inner : Derives .orExpr tokens e) :
      Derives .operand (.opening :: tokens ++ [.closing]) e
  | operand {tokens e} (only : Derives .operand tokens e) : Derives .andExpr tokens e
  | and {tokens more left right} (row : Derives .andExpr tokens left)
      (item : Derives .operand more right) :
      Derives .andExpr (tokens ++ .connective .and :: more) (.join .and left right)
  | andExpr {tokens e} (only : Derives .andExpr tokens e) : Derives .orExpr tokens e
  | or {tokens more left right} (row : Derives .orExpr tokens left)
      (item : Derives .andExpr more right) :
      Derives .orExpr (tokens ++ .connective .or :: more) (.join .or left right)

/-- A text stands for a formula when its tokens are a phrase of the loosest category for it. -/
def Denotes (text : String) (e : Formula) : Prop :=
  ∃ found, Lexed 0 text.toList found ∧ Derives .orExpr (found.map Lexeme.token) e

/-- How tightly the phrases of a category hold together; a connective of precedence `n` may stand
at the outermost level of a phrase of rank at most `n`. -/
def Category.rank : Category → Nat
  | orExpr => 1
  | andExpr => 2
  | operand => 3

theorem Category.rank_orExpr_le (a : Category) : Category.orExpr.rank ≤ a.rank := by
  cases a <;> decide

theorem Category.rank_le_operand (a : Category) : a.rank ≤ Category.operand.rank := by
  cases a <;> decide

namespace Connective

/-- The category of a row of items joined by a connective. -/
def row : Connective → Category
  | and => .andExpr
  | or => .orExpr

/-- The category of an item in such a row. -/
def item : Connective → Category
  | and => .operand
  | or => .andExpr

@[simp] theorem rank_row (c : Connective) : c.row.rank = c.precedence := by
  cases c <;> rfl

@[simp] theorem rank_item (c : Connective) : c.item.rank = c.precedence + 1 := by
  cases c <;> rfl

end Connective

namespace Derives

variable {a b : Category} {tokens more : List Token} {e left right : Formula}

theorem fact (f : Fact) : Derives .operand [.number f.val] (.fact f) := .number f.isLt

/-- A row may be continued by one more item. -/
theorem join (c : Connective) (row : Derives c.row tokens left) (item : Derives c.item more right) :
    Derives c.row (tokens ++ .connective c :: more) (.join c left right) := by
  cases c with
  | and => exact row.and item
  | or => exact row.or item

/-- A phrase is also a phrase of every looser category. -/
theorem weaken (h : Derives a tokens e) (hle : b.rank ≤ a.rank) : Derives b tokens e := by
  cases a with
  | operand =>
      cases b with
      | operand => exact h
      | andExpr => exact h.operand
      | orExpr => exact h.operand.andExpr
  | andExpr =>
      cases b with
      | operand => simp [Category.rank] at hle
      | andExpr => exact h
      | orExpr => exact h.andExpr
  | orExpr =>
      cases b with
      | operand => simp [Category.rank] at hle
      | andExpr => simp [Category.rank] at hle
      | orExpr => exact h

/-- Induction over a derivation with one case for both rows. -/
@[elab_as_elim]
theorem byRows {motive : ∀ {a tokens e}, Derives a tokens e → Prop}
    (number : ∀ f, motive (.fact f))
    (group : ∀ {tokens e} (inner : Derives .orExpr tokens e), motive inner → motive inner.group)
    (weaken : ∀ {a b : Category} {tokens e} (h : Derives a tokens e) (hle : b.rank ≤ a.rank),
      motive h → motive (h.weaken hle))
    (join : ∀ {c : Connective} {tokens more left right} (row : Derives c.row tokens left)
      (item : Derives c.item more right), motive row → motive item → motive (row.join c item))
    (h : Derives a tokens e) : motive h := by
  induction h with
  | number hlt => exact number ⟨_, hlt⟩
  | group inner ih => exact group inner ih
  | operand only ih => exact weaken only (Category.rank_le_operand _) ih
  | and row item ihl ihr => exact join (c := .and) row item ihl ihr
  | andExpr only ih => exact weaken only (Category.rank_orExpr_le _) ih
  | or row item ihl ihr => exact join (c := .or) row item ihl ihr

/-- The numbers of a phrase are facts. -/
theorem number_lt (h : Derives a tokens e) {value : Nat} (hv : .number value ∈ tokens) :
    value < FactSet.width := by
  induction h using byRows with
  | number f =>
      obtain rfl : value = f.val := by simpa using hv
      exact f.isLt
  | group _ ih => exact ih (by simpa using hv)
  | weaken _ _ ih => exact ih hv
  | join _ _ ihl ihr =>
      rcases List.mem_append.mp hv with hv | hv
      · exact ihl hv
      · exact ihr (by simpa using hv)

/-- A phrase has a number among its tokens. -/
theorem exists_number (h : Derives a tokens e) : ∃ value, Token.number value ∈ tokens := by
  induction h using byRows with
  | number f => exact ⟨f.val, List.mem_singleton_self _⟩
  | group _ ih =>
      obtain ⟨value, hv⟩ := ih
      exact ⟨value, by simp [hv]⟩
  | weaken _ _ ih => exact ih
  | join _ _ ih _ =>
      obtain ⟨value, hv⟩ := ih
      exact ⟨value, List.mem_append_left _ hv⟩

end Derives

end Verdict
