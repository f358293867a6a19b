import Verdict.Formula.Reading

/-!
# Formulas with a position at every connective

The connectives of a formula that is read from a text stand at positions of the text. Listed with
each one between its operands they are the connectives of the text from left to right; listed with
each one after its operands they are the reductions that build the formula. The shape of the formula
and the first list determine which connective stands where.
-/

namespace Verdict

/-- A formula with a position at every connective. -/
inductive Placed where
  | fact (f : Fact)
  | join (root : Reduction) (left right : Placed)

namespace Placed

/-- The formula without the positions. -/
def formula : Placed → Formula
  | fact f => .fact f
  | join root left right => .join root.connective left.formula right.formula

/-- The connectives, each between those of its operands. -/
def inorder : Placed → List Reduction
  | fact _ => []
  | join root left right => left.inorder ++ root :: right.inorder

/-- The connectives, each after those of its operands. -/
def postorder : Placed → List Reduction
  | fact _ => []
  | join root left right => left.postorder ++ right.postorder ++ [root]

/-- Both orders list the same connectives. -/
theorem postorder_perm_inorder (p : Placed) : p.postorder.Perm p.inorder := by
  induction p with
  | fact f => exact .refl []
  | join root left right ihl ihr =>
      have hback : (right.postorder ++ [root]).Perm (root :: right.inorder) :=
        (List.perm_append_singleton root _).trans (ihr.cons root)
      rw [postorder, inorder, List.append_assoc]
      exact ihl.append hback

theorem length_inorder_eq {p q : Placed} (h : p.formula = q.formula) :
    p.inorder.length = q.inorder.length := by
  induction p generalizing q with
  | fact f =>
      cases q with
      | fact g => rfl
      | join root left right => contradiction
  | join root left right ihl ihr =>
      cases q with
      | fact g => contradiction
      | join root' left' right' =>
          obtain ⟨-, hleft, hright⟩ := Formula.join.inj h
          simp only [inorder, List.length_append, List.length_cons, ihl hleft, ihr hright]

/-- The formula and its connectives in the order of the text determine the positions. -/
theorem eq_of_inorder {p q : Placed} (h : p.formula = q.formula) (hin : p.inorder = q.inorder) :
    p = q := by
  induction p generalizing q with
  | fact f =>
      cases q with
      | fact g => rw [Formula.fact.inj h]
      | join root left right => contradiction
  | join root left right ihl ihr =>
      cases q with
      | fact g => contradiction
      | join root' left' right' =>
          obtain ⟨-, hleft, hright⟩ := Formula.join.inj h
          obtain ⟨hfront, hback⟩ := List.append_inj hin (length_inorder_eq hleft)
          obtain ⟨rfl, hrest⟩ := List.cons.inj hback
          rw [ihl hleft hfront, ihr hright hrest]

end Placed

/-- The connective of a lexeme, with its position. -/
def Lexeme.reduction? : Lexeme → Option Reduction
  | ⟨.connective c, position⟩ => some ⟨c, position⟩
  | ⟨.number _, _⟩ | ⟨.opening, _⟩ | ⟨.closing, _⟩ | ⟨.unknown _, _⟩ => none

/-- The connectives among some lexemes, with their positions. -/
def connectives (found : List Lexeme) : List Reduction := found.filterMap Lexeme.reduction?

theorem connectives_append (found more : List Lexeme) :
    connectives (found ++ more) = connectives found ++ connectives more :=
  List.filterMap_append ..

theorem connectives_cons (c : Connective) (position : Nat) (found : List Lexeme) :
    connectives (⟨.connective c, position⟩ :: found) = ⟨c, position⟩ :: connectives found := rfl

end Verdict
