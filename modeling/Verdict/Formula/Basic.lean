import Verdict.FactSet.Basic

/-!
# Formulas

A formula is a fact or two formulas joined by a connective. `and` binds tighter than `or`.

## Implementation notes

A formula can be nested as deep as memory allows, so nothing that runs may follow the nesting on
the call stack. What would be a recursion over both operands is a loop over a list of pending
work here; `workload` is what such a loop uses up.
-/

namespace Verdict

/-- How two formulas are joined. -/
inductive Connective where
  | and
  | or
  deriving DecidableEq, Repr

namespace Connective

/-- How tightly a connective binds. -/
def precedence : Connective → Nat
  | or => 1
  | and => 2

end Connective

/-- A boolean formula over facts. -/
inductive Formula where
  | fact (f : Fact)
  | join (c : Connective) (left right : Formula)
  deriving Repr

namespace Formula

/-- How tightly the outermost part of a formula holds together; a fact is never taken apart. -/
def precedence : Formula → Nat
  | fact _ => 3
  | join c _ _ => c.precedence

/-- The two operands of a joined formula. -/
def operands? : Formula → Option (Formula × Formula)
  | fact _ => none
  | join _ left right => some (left, right)

/-- The number of facts and connectives, repetitions counted. -/
def size : Formula → Nat
  | fact _ => 1
  | join _ left right => left.size + right.size + 1

theorem size_pos (e : Formula) : 0 < e.size := by
  cases e with
  | fact f => exact Nat.one_pos
  | join c left right => exact Nat.succ_pos _

end Formula

section Workload

variable {α : Type} (size : α → Nat)

/-- The size of a list of pending work, by the size of each item. -/
def workload : List α → Nat
  | [] => 0
  | item :: rest => size item + workload rest

@[simp] theorem workload_nil : workload size [] = 0 := rfl

@[simp] theorem workload_cons (item : α) (rest : List α) :
    workload size (item :: rest) = size item + workload size rest := rfl

@[simp] theorem workload_append (todo more : List α) :
    workload size (todo ++ more) = workload size todo + workload size more := by
  induction todo with
  | nil => rw [List.nil_append, workload_nil, Nat.zero_add]
  | cons item rest ih => rw [List.cons_append, workload_cons, ih, workload_cons, Nat.add_assoc]

end Workload

end Verdict
