import Verdict.Formula.Basic

/-!
# The labels of a formula

A label is a fact or a connective, and the labels of a formula are read off it from the root, the
left operand before the right one. The sequence determines the formula. Both the labels and the
comparison of two formulas are loops over a list of formulas still to be read.
-/

namespace Verdict

/-- What stands at a place of a formula. -/
inductive Label where
  | fact (f : Fact)
  | connective (c : Connective)
  deriving DecidableEq, Repr

/-- The numbers that stand for a label: 0 and the fact, 1 for `and`, 2 for `or`. -/
def Label.code : Label → List Nat
  | .fact f => [0, f.val]
  | .connective .and => [1]
  | .connective .or => [2]

namespace Formula

/-- The labels of the given formulas one after the other, after those read already, which are
held latest first. -/
def labelsOnto (read : List Label) : List Formula → List Label
  | [] => read.reverse
  | .fact f :: rest => labelsOnto (.fact f :: read) rest
  | .join c left right :: rest => labelsOnto (.connective c :: read) (left :: right :: rest)
termination_by todo => workload size todo
decreasing_by all_goals simp only [workload_cons, size]; omega

/-- The labels from the root, the left operand before the right one. -/
def labels (e : Formula) : List Label := labelsOnto [] [e]

/-- The labels from the root, by recursion on the operands. -/
def preorder : Formula → List Label
  | .fact f => [.fact f]
  | .join c left right => .connective c :: (left.preorder ++ right.preorder)

theorem labelsOnto_eq (read : List Label) (todo : List Formula) :
    labelsOnto read todo = read.reverse ++ todo.flatMap preorder := by
  fun_induction labelsOnto read todo with
  | case1 read => simp
  | case2 read f rest ih => simp [ih, preorder]
  | case3 read c left right rest ih => simp [ih, preorder]

theorem labels_eq_preorder (e : Formula) : e.labels = e.preorder := by
  simp [labels, labelsOnto_eq]

/-- The numbers that stand for a formula, for hashing. -/
def code (e : Formula) : List Nat := e.labels.flatMap Label.code

/-- Whether the formulas of every pair are equal. -/
def allEqual : List (Formula × Formula) → Bool
  | [] => true
  | (.fact f, .fact g) :: rest => if f = g then allEqual rest else false
  | (.join c left right, .join d left' right') :: rest =>
      if c = d then allEqual ((left, left') :: (right, right') :: rest) else false
  | (.fact _, .join _ _ _) :: _ => false
  | (.join _ _ _, .fact _) :: _ => false
termination_by pairs => workload (fun pair => pair.1.size) pairs
decreasing_by all_goals simp only [workload_cons, size]; omega

theorem allEqual_iff (pairs : List (Formula × Formula)) :
    allEqual pairs = true ↔ ∀ pair ∈ pairs, pair.1 = pair.2 := by
  fun_induction allEqual pairs with
  | case1 => simp
  | case2 f rest ih => simp [ih]
  | case3 f g rest h => simp [h]
  | case4 left right c left' right' rest ih => simp [ih, and_assoc]
  | case5 c left right d left' right' rest h => simp [h]
  | case6 => simp
  | case7 => simp

instance : DecidableEq Formula := fun e e' =>
  decidable_of_iff (allEqual [(e, e')] = true) (by simp [allEqual_iff])

end Formula

end Verdict
