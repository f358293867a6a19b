import Verdict.Formula.Reading
import Verdict.Proofs.Grammar

/-!
# Reducing the connectives that wait

A reading reduces for two reasons, a connective that binds no tighter than those before it and the
end of a group or of the text. Both are cases of `Category.due`: a connective of precedence `n`
is due for a category of rank at most `n`, and a row of connective `c` or the loosest category is
what has to be complete.
-/

namespace Verdict

/-- The connectives that are reduced before a phrase of category `a` is complete. -/
def Category.due (a : Category) (c : Connective) : Bool := a.rank ≤ c.precedence

theorem Connective.due_row (c : Connective) :
    c.row.due = fun d => decide (c.precedence ≤ d.precedence) := by
  funext d
  rw [Category.due, Connective.rank_row]

theorem Category.due_orExpr : Category.orExpr.due = fun _ => true := by
  funext d
  cases d <;> rfl

/-- No connective on top of the stack has precedence `n` or more. -/
def Admits (n : Nat) : List Waiting → Prop
  | .connective c _ :: _ => c.precedence < n
  | .group _ :: _ => True
  | [] => True

theorem Admits.mono {m n : Nat} {waiting : List Waiting} (h : Admits m waiting) (hle : m ≤ n) :
    Admits n waiting := by
  match waiting, h with
  | .connective c _ :: _, h => exact Nat.lt_of_lt_of_le h hle
  | .group _ :: _, _ => trivial
  | [], _ => trivial

theorem admits_operand (waiting : List Waiting) : Admits Category.operand.rank waiting := by
  match waiting with
  | .connective .and _ :: _ => exact (by decide : 2 < 3)
  | .connective .or _ :: _ => exact (by decide : 1 < 3)
  | .group _ :: _ => trivial
  | [] => trivial

theorem not_admits_orExpr (c : Connective) {position : Nat} {waiting : List Waiting} :
    ¬ Admits Category.orExpr.rank (.connective c position :: waiting) := by
  cases c with
  | and => exact (by decide : ¬ 2 < 1)
  | or => exact (by decide : ¬ 1 < 1)

theorem exists_connective_of_not_admits {n : Nat} {entry : Waiting} {waiting : List Waiting}
    (h : ¬ Admits n (entry :: waiting)) :
    ∃ c position, entry = .connective c position ∧ n ≤ c.precedence := by
  cases entry with
  | group position => exact absurd trivial h
  | connective c position => exact ⟨c, position, rfl, Nat.le_of_not_lt h⟩

namespace Stacks

variable {a b : Category} {due : Connective → Bool} {c : Connective} {position : Nat}
  {waiting : List Waiting} {operands : List Formula} {reductions : List Reduction}

theorem unwind_of_not (h : due c = false) :
    unwind due (.connective c position :: waiting) operands reductions =
      .ok ⟨.connective c position :: waiting, operands, reductions⟩ := by
  simp only [unwind, h, Bool.false_eq_true, if_false]

theorem unwind_of_due {left right : Formula} (h : due c = true) :
    unwind due (.connective c position :: waiting) (right :: left :: operands) reductions =
      unwind due waiting (.join c left right :: operands) (⟨c, position⟩ :: reductions) := by
  simp only [unwind, h, if_true]

theorem unwind_of_few (h : due c = true) (hfew : operands.length < 2) :
    unwind due (.connective c position :: waiting) operands reductions =
      .error ⟨.missingOperand position, reductions⟩ := by
  match operands, hfew with
  | [], _ => simp only [unwind, h, if_true]
  | [_], _ => simp only [unwind, h, if_true]

theorem unwind_of_admits (h : Admits a.rank waiting) :
    unwind a.due waiting operands reductions = .ok ⟨waiting, operands, reductions⟩ := by
  match waiting, h with
  | .connective c _ :: _, h => exact unwind_of_not (decide_eq_false (Nat.not_le_of_lt h))
  | .group _ :: _, _ => rfl
  | [], _ => rfl

theorem unwind_due {left right : Formula} (h : a.rank ≤ c.precedence) :
    unwind a.due (.connective c position :: waiting) (right :: left :: operands) reductions =
      unwind a.due waiting (.join c left right :: operands) (⟨c, position⟩ :: reductions) :=
  unwind_of_due (decide_eq_true h)

theorem unwind_starved (h : a.rank ≤ c.precedence) (hfew : operands.length < 2) :
    unwind a.due (.connective c position :: waiting) operands reductions =
      .error ⟨.missingOperand position, reductions⟩ :=
  unwind_of_few (decide_eq_true h) hfew

/-- What is reduced for a tighter category is the beginning of what is reduced for a looser one. -/
theorem unwind_unwind {s : Stacks} (hle : b.rank ≤ a.rank)
    (h : unwind a.due waiting operands reductions = .ok s) :
    unwind b.due waiting operands reductions =
      unwind b.due s.waiting s.operands s.reductions := by
  fun_induction unwind a.due waiting operands reductions with
  | case1 c position waiting reductions hdue right left rest ih =>
      have hb : b.rank ≤ c.precedence := Nat.le_trans hle (of_decide_eq_true hdue)
      rw [unwind_due hb, ih h]
  | case2 => simp at h
  | case3 => rw [← Except.ok.inj h]
  | case4 => rw [← Except.ok.inj h]

end Stacks

end Verdict
