import Verdict.Proofs.Codes
import Verdict.Proofs.OccurringFacts
import Verdict.Proofs.ShortCircuit

/-!
# What goes over a formula follows its structure

Whatever goes over a whole formula keeps a list of pending work and no call stack. Here is what it
comes to, by recursion on the operands: the word of the facts that occur, the code of a formula and
its text.

A formula can also be built anew with two stacks, one of tasks and one of finished formulas, where a
joined formula waits below its operands and takes them off the second stack, the right one first.
Such a building could lack operands, or have nothing to show at the end. `assemble_visit` says that
the task of visiting a formula leaves just this formula on top, whatever tasks follow and whatever
is finished, and so nothing is ever lacking.
-/

namespace Verdict.Formula

/-! ### Building a formula anew -/

/-- A task in building a formula anew. -/
inductive Task where
  /-- Build the formula from the root down. -/
  | visit (e : Formula)
  /-- Put the two formulas finished last in place of the formula's operands. -/
  | build (e : Formula)

/-- The number of steps that a task may take. -/
def Task.size : Task → Nat
  | visit e => 2 * e.size
  | build _ => 1

/-- What a building may lack. -/
inductive Lack where
  /-- Operands for a formula that waits for them. -/
  | operands
  /-- A formula at the end. -/
  | root
  deriving DecidableEq, Repr

/-- The formula with other operands; a fact has none. -/
def withOperands : Formula → Formula → Formula → Formula
  | fact f, _, _ => fact f
  | join c _ _, left, right => join c left right

/-- Work off the tasks. The finished formulas are held latest first. -/
def assemble : List Task → List Formula → Except Lack Formula
  | [], root :: _ => .ok root
  | [], [] => .error .root
  | .visit (fact f) :: tasks, finished => assemble tasks (fact f :: finished)
  | .visit (join c left right) :: tasks, finished =>
      assemble (.visit left :: .visit right :: .build (join c left right) :: tasks) finished
  | .build e :: tasks, right :: left :: finished =>
      assemble tasks (e.withOperands left right :: finished)
  | .build _ :: _, _ => .error .operands
termination_by tasks => workload Task.size tasks
decreasing_by all_goals simp only [workload_cons, Task.size, size]; omega

/-- Visiting a formula finishes it, and nothing else changes. -/
theorem assemble_visit (e : Formula) (tasks : List Task) (finished : List Formula) :
    assemble (.visit e :: tasks) finished = assemble tasks (e :: finished) := by
  induction e generalizing tasks finished with
  | fact f => rw [assemble]
  | join c left right ihl ihr =>
      rw [assemble, ihl, ihr, assemble]
      rfl

theorem copy_eq (e : Formula) : e.copy = e := by
  rw [copy, Walk.run_eq_recurse]
  induction e with
  | fact f => rfl
  | join c left right ihl ihr =>
      simp only [Walk.recurse] at ihl ihr ⊢
      rw [ihl, ihr]

/-! ### Facts, code and text -/

/-- The facts of the leaves, one after the other, added to a word. -/
theorem foldl_leaves (e : Formula) (word : Nat) :
    e.leaves.foldl (fun w f => w ||| 2 ^ f.val) word = word ||| e.facts.toNat := by
  induction e generalizing word with
  | fact f => simp [leaves]
  | join c left right ihl ihr =>
      rw [leaves, List.foldl_append, ihl, ihr, facts_join, FactSet.toNat_union, Nat.or_assoc]

/-- The code of a formula, by recursion on its operands. -/
def tagged : Formula → List Nat
  | fact f => [0, f.val]
  | join .and left right => 1 :: (left.tagged ++ right.tagged)
  | join .or left right => 2 :: (left.tagged ++ right.tagged)

theorem code_eq_tagged (e : Formula) : e.code = e.tagged := by
  induction e with
  | fact f => exact code_fact f
  | join c left right ihl ihr =>
      rw [code_join, ihl, ihr]
      cases c <;> rfl

/-- The text of an operand, in parentheses if asked for. -/
def operandText (grouped : Bool) (text : String) : String :=
  if grouped then "(" ++ text ++ ")" else text

/-- The sign of a connective in a text. -/
def sign : Connective → String
  | .and => " & "
  | .or => " | "

/-- Whether a formula needs parentheses as the left operand of a connective: an `or` does where it
is joined by an `and`. -/
def leftGrouped : Connective → Formula → Bool
  | .and, join .or _ _ => true
  | .and, join .and _ _ | .and, fact _ | .or, _ => false

/-- Whether a formula needs parentheses as the right operand of a connective: an `or` always does,
and an `and` where it is joined by another `and`. -/
def rightGrouped : Connective → Formula → Bool
  | _, join .or _ _ | .and, join .and _ _ => true
  | .or, join .and _ _ | _, fact _ => false

/-- The text of a formula, by recursion on its operands. -/
def wording : Formula → String
  | fact f => toString f.val
  | join c left right =>
      operandText (leftGrouped c left) left.wording ++ sign c ++
        operandText (rightGrouped c right) right.wording

theorem leftGrouped_eq (c : Connective) (e : Formula) :
    leftGrouped c e = decide (e.precedence < c.precedence) := by
  rcases c with _ | _ <;> rcases e with _ | ⟨_ | _, _, _⟩ <;> rfl

theorem rightGrouped_eq (c : Connective) (e : Formula) :
    rightGrouped c e = decide (e.precedence ≤ c.precedence) := by
  rcases c with _ | _ <;> rcases e with _ | ⟨_ | _, _, _⟩ <;> rfl

theorem join_operandTokens (grouped : Bool) (tokens : List Token) :
    String.join ((operandTokens grouped tokens).map Token.spelling) =
      operandText grouped (String.join (tokens.map Token.spelling)) := by
  cases grouped with
  | false => rfl
  | true => simp [operandTokens, operandText, Token.spelling, String.append_assoc]

theorem text_eq_wording (e : Formula) : e.text = e.wording := by
  rw [text, tokens_eq_phrase]
  induction e with
  | fact f => simp [phrase, wording, Token.spelling]
  | join c left right ihl ihr =>
      rw [phrase, List.map_append, List.map_cons, String.join_append, String.join_cons,
        join_operandTokens, join_operandTokens, ihl, ihr, ← String.append_assoc, wording,
        leftGrouped_eq, rightGrouped_eq]
      cases c <;> rfl

/-- Only the operands that would be read in another way are put in parentheses. -/
example : (join .or (join .and (join .or (fact 1) (fact 2)) (join .and (fact 3) (fact 4)))
    (join .or (join .and (fact 5) (fact 6)) (fact 7))).text = "(1 | 2) & (3 & 4) | (5 & 6 | 7)" := by
  rw [text_eq_wording]
  decide

/-- What goes over a formula comes to what its structure says. Building it anew lacks nothing and
gives the same formula, and so does the copy. The word of the facts that occur has the bit of every
leaf. The code is a tag and the number of a fact, or a tag and the codes of both operands, and the
text is the number of a fact, or the texts of both operands around the connective: an `or` to the
left of an `and` stands in parentheses, and to the right of a connective every `or` and, if the
connective is an `and`, every `and`. -/
theorem walks_follow_structure (e : Formula) :
    assemble [.visit e] [] = .ok e ∧ e.copy = e ∧
      e.facts.toNat = e.leaves.foldl (fun word f => word ||| 2 ^ f.val) 0 ∧
      e.code = e.tagged ∧ e.text = e.wording := by
  have hfacts : e.facts.toNat = e.leaves.foldl (fun word f => word ||| 2 ^ f.val) 0 := by
    rw [foldl_leaves, Nat.zero_or]
  refine ⟨?_, e.copy_eq, hfacts, e.code_eq_tagged, e.text_eq_wording⟩
  rw [assemble_visit, assemble]

end Verdict.Formula
