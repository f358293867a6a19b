import Verdict.Formula.Token

/-!
# The text of a formula

The text names the facts by their numbers, puts spaces around the connectives, and has
parentheses only where reading would otherwise build another formula: around a left operand that
binds looser than the connective, and around a right operand that does not bind tighter, since a
row of equal connectives is read from the left. `tokens` is the loop that runs and `phrase` the
recursion it follows; `tokens_eq_phrase` says that they agree.
-/

namespace Verdict.Formula

/-- A part of a text that is still to be put into tokens. -/
inductive Part where
  | token (t : Token)
  | formula (e : Formula)

/-- The size of a part. A joined formula counts for more than its operands, its connective and
two pairs of parentheses. -/
def Part.size : Part → Nat
  | token _ => 1
  | formula e => 6 * e.size

/-- The parts of an operand, in parentheses if asked for. -/
def operandParts (grouped : Bool) (e : Formula) : List Part :=
  if grouped then [.token .opening, .formula e, .token .closing] else [.formula e]

/-- The parts of a joined formula. -/
def joinParts (c : Connective) (left right : Formula) : List Part :=
  operandParts (left.precedence < c.precedence) left ++
    .token (.connective c) :: operandParts (right.precedence ≤ c.precedence) right

private theorem size_operandParts (grouped : Bool) (e : Formula) :
    workload Part.size (operandParts grouped e) ≤ 6 * e.size + 2 := by
  cases grouped <;> simp [operandParts, Part.size]
  omega

theorem size_joinParts_lt (c : Connective) (left right : Formula) :
    workload Part.size (joinParts c left right) < (Part.formula (join c left right)).size := by
  have hl := size_operandParts (left.precedence < c.precedence) left
  have hr := size_operandParts (right.precedence ≤ c.precedence) right
  simp only [joinParts, workload_append, workload_cons, Part.size, size]
  omega

/-- The tokens of the given parts one after the other, after those found already, which are held
latest first. -/
def tokensOnto (found : List Token) : List Part → List Token
  | [] => found.reverse
  | .token t :: rest => tokensOnto (t :: found) rest
  | .formula (.fact f) :: rest => tokensOnto (.number f.val :: found) rest
  | .formula (.join c left right) :: rest => tokensOnto found (joinParts c left right ++ rest)
termination_by todo => workload Part.size todo
decreasing_by
  · simp only [workload_cons, Part.size]
    omega
  · simp only [workload_cons, Part.size, size]
    omega
  · have := size_joinParts_lt c left right
    simp only [workload_append, workload_cons]
    omega

/-- The tokens of a formula's text. -/
def tokens (e : Formula) : List Token := tokensOnto [] [.formula e]

/-- The text of a formula. -/
def text (e : Formula) : String := String.join (e.tokens.map Token.spelling)

instance : ToString Formula := ⟨text⟩

/-- The tokens of an operand, in parentheses if asked for. -/
def operandTokens (grouped : Bool) (tokens : List Token) : List Token :=
  if grouped then .opening :: tokens ++ [.closing] else tokens

/-- The tokens of a formula's text, by recursion on its operands. -/
def phrase : Formula → List Token
  | .fact f => [.number f.val]
  | .join c left right =>
      operandTokens (left.precedence < c.precedence) left.phrase ++
        .connective c :: operandTokens (right.precedence ≤ c.precedence) right.phrase

/-- The tokens that a part becomes. -/
def Part.tokens : Part → List Token
  | token t => [t]
  | formula e => e.phrase

private theorem flatMap_operandParts (grouped : Bool) (e : Formula) :
    (operandParts grouped e).flatMap Part.tokens = operandTokens grouped e.phrase := by
  cases grouped <;> simp [operandParts, operandTokens, Part.tokens]

theorem flatMap_joinParts (c : Connective) (left right : Formula) :
    (joinParts c left right).flatMap Part.tokens = (join c left right).phrase := by
  rw [joinParts, List.flatMap_append, List.flatMap_cons, flatMap_operandParts,
    flatMap_operandParts]
  rfl

theorem tokensOnto_eq (found : List Token) (todo : List Part) :
    tokensOnto found todo = found.reverse ++ todo.flatMap Part.tokens := by
  fun_induction tokensOnto found todo with
  | case1 found => simp
  | case2 found t rest ih => simp [ih, Part.tokens]
  | case3 found f rest ih => simp [ih, Part.tokens, phrase]
  | case4 found c left right rest ih =>
      rw [ih, List.flatMap_append, flatMap_joinParts, List.flatMap_cons]
      rfl

theorem tokens_eq_phrase (e : Formula) : e.tokens = e.phrase := by
  simp [tokens, tokensOnto_eq, Part.tokens]

end Verdict.Formula
