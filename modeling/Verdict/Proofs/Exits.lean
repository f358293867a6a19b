import Verdict.Proofs.Unwinding

/-!
# Where a reading gives up

`Exits` reads like `Reading`, with two differences. An entry that leaves the stack of connectives is
given two operands whatever it is, so that an open group could be met where a connective should be.
And every way to give up has a name of its own, also where two of them end in the same error.

`refusal_readLexemes` says that reading in this way gives the same formula, the same reductions and,
once the names are forgotten, the same error. So what is proved about the names that occur is true
of the reading.
-/

namespace Verdict

namespace Waiting

def isGroup : Waiting → Bool
  | group _ => true
  | connective _ _ => false

def position : Waiting → Nat
  | group position => position
  | connective _ position => position

/-- How tightly an entry binds; an open group binds nothing. -/
def precedence : Waiting → Nat
  | group _ => 0
  | connective c _ => c.precedence

/-- Whether an entry stays on the stack when a connective is read: a group does, and a connective
that binds less tightly. -/
def staysBelow (c : Connective) (entry : Waiting) : Bool :=
  entry.isGroup || entry.precedence < c.precedence

theorem staysBelow_connective (c d : Connective) (position : Nat) :
    (connective d position).staysBelow c = !decide (c.precedence ≤ d.precedence) := by
  cases c <;> cases d <;> rfl

end Waiting

/-- The places at which a reading gives up. -/
inductive Exit where
  /-- A lexeme or the end of the text is refused before anything is reduced. -/
  | refused (error : ParseError)
  /-- An entry that is reduced finds fewer than two operands. -/
  | underflow (position : Nat)
  /-- An open group is reduced. -/
  | reducedGroup (position : Nat)
  /-- A closing parenthesis finds no group on the stack. -/
  | noGroup (position : Nat)
  /-- A group is open at the end of the text. -/
  | unclosed (position : Nat)
  /-- No operand is left at the end of the text. -/
  | noOperand
  /-- Several operands are left at the end of the text. -/
  | leftOver (length : Nat)
  deriving DecidableEq, Repr

/-- The error that is reported at an exit. -/
def Exit.error : Exit → ParseError
  | refused error => error
  | underflow position => .missingOperand position
  | reducedGroup position => .unclosedGroup position
  | noGroup position => .unmatchedClosing position
  | unclosed position => .unclosedGroup position
  | noOperand => .noOperands
  | leftOver length => .missingOperator length

/-- An exit, and the reductions made before it, latest first. -/
structure Halt where
  exit : Exit
  reductions : List Reduction
  deriving DecidableEq, Repr

namespace Halt

/-- A refusal before anything is reduced. -/
def ofRefusal (refusal : Refusal) : Halt := ⟨.refused refusal.error, refusal.reductions⟩

/-- What is reported of a halt. -/
def refusal (halt : Halt) : Refusal := ⟨halt.exit.error, halt.reductions⟩

end Halt

namespace Exits

/-- Give an entry the two operands on top of the stack. -/
def reduce (entry : Waiting) (s : Stacks) : Except Halt Stacks :=
  match s.operands with
  | right :: left :: rest =>
      match entry with
      | .connective c position =>
          .ok ⟨s.waiting, .join c left right :: rest, ⟨c, position⟩ :: s.reductions⟩
      | .group position => .error ⟨.reducedGroup position, s.reductions⟩
  | _ => .error ⟨.underflow entry.position, s.reductions⟩

/-- Reduce the entries on top of the stack, down to one that stops it. -/
def unwind (stops : Waiting → Bool) :
    List Waiting → List Formula → List Reduction → Except Halt Stacks
  | [], operands, reductions => .ok ⟨[], operands, reductions⟩
  | entry :: waiting, operands, reductions =>
      if stops entry then .ok ⟨entry :: waiting, operands, reductions⟩
      else
        match reduce entry ⟨waiting, operands, reductions⟩ with
        | .ok s => unwind stops waiting s.operands s.reductions
        | .error halt => .error halt

/-- Read a closing parenthesis after an operand: what was read since the group was opened is
reduced, and the group is taken off the stack. -/
def closeGroup (r : Reading) (position : Nat) : Except Halt Reading :=
  match unwind Waiting.isGroup r.waiting r.operands r.reductions with
  | .ok ⟨_ :: waiting, operands, reductions⟩ =>
      .ok { r with waiting, operands, reductions, openGroups := r.openGroups - 1 }
  | .ok ⟨[], _, reductions⟩ => .error ⟨.noGroup position, reductions⟩
  | .error halt => .error halt

/-- Read a closing parenthesis. -/
def takeClosing (r : Reading) (position : Nat) : Except Halt Reading :=
  if r.openGroups = 0 then .error ⟨.refused (.unmatchedClosing position), r.reductions⟩
  else if r.awaiting then (r.passOver position).mapError Halt.ofRefusal
  else closeGroup r position

/-- Read a connective. The entries that do not stay below it are reduced first. -/
def takeConnective (r : Reading) (c : Connective) (position : Nat) : Except Halt Reading :=
  if r.awaiting then .error ⟨.refused (.missingOperand position), r.reductions⟩
  else
    match unwind (Waiting.staysBelow c) r.waiting r.operands r.reductions with
    | .ok s =>
        .ok { r with
          toStacks := { s with waiting := .connective c position :: s.waiting }
          awaiting := true }
    | .error halt => .error halt

/-- Read a lexeme. -/
def take (r : Reading) (lexeme : Lexeme) : Except Halt Reading :=
  match lexeme.token with
  | .number value => (r.takeNumber value lexeme.position).mapError Halt.ofRefusal
  | .opening => (r.takeOpening lexeme.position).mapError Halt.ofRefusal
  | .closing => takeClosing r lexeme.position
  | .connective c => takeConnective r c lexeme.position
  | .unknown c => .error ⟨.refused (.unexpectedCharacter c lexeme.position), r.reductions⟩

/-- Read lexemes until one is refused. -/
def takeAll : Reading → List Lexeme → Except Halt Reading
  | r, [] => .ok r
  | r, lexeme :: rest =>
      match take r lexeme with
      | .ok r => takeAll r rest
      | .error halt => .error halt

/-- End a reading at the end of the text. -/
def finish (r : Reading) (length : Nat) : Except Halt (Formula × List Reduction) :=
  if ¬ r.seen then .error ⟨.refused .noOperands, r.reductions⟩
  else if r.awaiting then .error ⟨.refused (.missingOperand length), r.reductions⟩
  else
    match unwind Waiting.isGroup r.waiting r.operands r.reductions with
    | .ok ⟨entry :: _, _, reductions⟩ => .error ⟨.unclosed entry.position, reductions⟩
    | .ok ⟨[], [], reductions⟩ => .error ⟨.noOperand, reductions⟩
    | .ok ⟨[], [e], reductions⟩ => .ok (e, reductions)
    | .ok ⟨[], _, reductions⟩ => .error ⟨.leftOver length, reductions⟩
    | .error halt => .error halt

/-- Read a text of a given length from its lexemes. -/
def readLexemes (lexemes : List Lexeme) (length : Nat) : Except Halt (Formula × List Reduction) :=
  match lexemes with
  | [] => .error ⟨.refused .empty, []⟩
  | lexemes =>
      match takeAll {} lexemes with
      | .ok r => finish r length
      | .error halt => .error halt

/-! ### Reducing -/

section Unwind

variable {stops : Waiting → Bool} {due : Connective → Bool} {entry : Waiting} {c : Connective}
  {position : Nat} {waiting : List Waiting} {operands : List Formula} {reductions : List Reduction}

theorem unwind_of_stops (h : stops entry = true) :
    unwind stops (entry :: waiting) operands reductions =
      .ok ⟨entry :: waiting, operands, reductions⟩ := by
  rw [unwind, if_pos h]

theorem unwind_connective {left right : Formula} (h : stops (.connective c position) = false) :
    unwind stops (.connective c position :: waiting) (right :: left :: operands) reductions =
      unwind stops waiting (.join c left right :: operands) (⟨c, position⟩ :: reductions) := by
  rw [unwind, h]
  rfl

theorem unwind_of_few (h : stops (.connective c position) = false) (hfew : operands.length < 2) :
    unwind stops (.connective c position :: waiting) operands reductions =
      .error ⟨.underflow position, reductions⟩ := by
  rw [unwind, h]
  match operands, hfew with
  | [], _ => rfl
  | [_], _ => rfl

/-- Reducing ends at an entry that stops it, or with nothing on the stack. -/
theorem stops_of_unwind {s : Stacks} (h : unwind stops waiting operands reductions = .ok s) :
    ∀ entry ∈ s.waiting.head?, stops entry = true := by
  fun_induction unwind stops waiting operands reductions with
  | case1 =>
      rw [← Except.ok.inj h]
      simp
  | case2 entry waiting operands reductions hstops =>
      rw [← Except.ok.inj h]
      simpa using hstops
  | case3 entry waiting operands reductions hstops s' hs' ih => exact ih h
  | case4 => contradiction

theorem exit_of_reduce {s : Stacks} {halt : Halt}
    (h : reduce (.connective c position) s = .error halt) : halt.exit = .underflow position := by
  unfold reduce at h
  split at h
  · contradiction
  · rw [← Except.error.inj h]
    rfl

variable (hgroup : ∀ position, stops (.group position) = true)

include hgroup

/-- Reducing gives up only where operands are missing. -/
theorem exists_underflow_of_unwind {halt : Halt}
    (h : unwind stops waiting operands reductions = .error halt) :
    ∃ position, halt.exit = .underflow position := by
  fun_induction unwind stops waiting operands reductions with
  | case1 => contradiction
  | case2 => contradiction
  | case3 entry waiting operands reductions hstops s hs ih => exact ih h
  | case4 entry waiting operands reductions hstops halt' hreduce =>
      rw [← Except.error.inj h]
      cases entry with
      | group position => exact absurd (hgroup position) hstops
      | connective c position => exact ⟨position, exit_of_reduce hreduce⟩

/-- Where a group stops it, and a connective unless it is due, reducing is that of a reading. -/
theorem refusal_unwind (hdue : ∀ c position, stops (.connective c position) = !due c) :
    (unwind stops waiting operands reductions).mapError Halt.refusal =
      Stacks.unwind due waiting operands reductions := by
  induction waiting generalizing operands reductions with
  | nil => rfl
  | cons entry waiting ih =>
      cases entry with
      | group position =>
          rw [unwind_of_stops (hgroup position)]
          rfl
      | connective c position =>
          have hstops := hdue c position
          cases hc : due c with
          | false =>
              rw [hc, Bool.not_false] at hstops
              rw [unwind_of_stops hstops, Stacks.unwind_of_not hc]
              rfl
          | true =>
              rw [hc, Bool.not_true] at hstops
              match operands with
              | [] | [_] =>
                  rw [unwind_of_few hstops (by simp), Stacks.unwind_of_few hc (by simp)]
                  rfl
              | right :: left :: rest =>
                  rw [unwind_connective hstops, Stacks.unwind_of_due hc, ih]

end Unwind

/-! ### Reading -/

section Read

variable {r : Reading} {position length : Nat}

/-- Down to the innermost group everything is reduced. -/
theorem refusal_unwind_isGroup (s : Stacks) :
    (unwind Waiting.isGroup s.waiting s.operands s.reductions).mapError Halt.refusal =
      Stacks.unwind (fun _ => true) s.waiting s.operands s.reductions :=
  refusal_unwind (fun _ => rfl) fun _ _ => rfl

theorem refusal_closeGroup (r : Reading) (position : Nat) :
    (closeGroup r position).mapError Halt.refusal = r.closeGroup position := by
  rw [closeGroup, Reading.closeGroup, ← refusal_unwind_isGroup]
  cases h : unwind Waiting.isGroup r.waiting r.operands r.reductions with
  | error halt => rfl
  | ok s =>
      obtain ⟨waiting, operands, reductions⟩ := s
      match waiting with
      | [] => rfl
      | .group start :: waiting => rfl
      | .connective c start :: waiting => exact absurd (stops_of_unwind h _ rfl) Bool.false_ne_true

theorem refusal_ofRefusal {α : Type} (read : Except Refusal α) :
    (read.mapError Halt.ofRefusal).mapError Halt.refusal = read := by
  cases read with
  | ok a => rfl
  | error refusal => rfl

theorem refusal_takeClosing (r : Reading) (position : Nat) :
    (takeClosing r position).mapError Halt.refusal = r.takeClosing position := by
  unfold takeClosing Reading.takeClosing
  split
  · rfl
  · split
    · exact refusal_ofRefusal _
    · exact refusal_closeGroup r position

theorem refusal_takeConnective (r : Reading) (c : Connective) (position : Nat) :
    (takeConnective r c position).mapError Halt.refusal = r.takeConnective c position := by
  unfold takeConnective Reading.takeConnective
  split
  · rfl
  · rw [← refusal_unwind (fun _ => rfl) (Waiting.staysBelow_connective c)]
    cases unwind (Waiting.staysBelow c) r.waiting r.operands r.reductions with
    | ok s => rfl
    | error halt => rfl

/-- A step: without the name of its exit, reading a lexeme is that of a reading. -/
theorem refusal_take (r : Reading) (l : Lexeme) :
    (take r l).mapError Halt.refusal = r.take l := by
  obtain ⟨t, position⟩ := l
  cases t with
  | number value => exact refusal_ofRefusal _
  | opening => exact refusal_ofRefusal _
  | closing => exact refusal_takeClosing r position
  | connective c => exact refusal_takeConnective r c position
  | unknown c => rfl

/-- A run. -/
theorem refusal_takeAll (r : Reading) (found : List Lexeme) :
    (takeAll r found).mapError Halt.refusal = r.takeAll found := by
  induction found generalizing r with
  | nil => rfl
  | cons l rest ih =>
      rw [takeAll, Reading.takeAll, ← refusal_take]
      cases take r l with
      | ok next => exact ih next
      | error halt => rfl

theorem refusal_finish (r : Reading) (length : Nat) :
    (finish r length).mapError Halt.refusal = r.finish length := by
  unfold finish Reading.finish
  split
  · rfl
  · split
    · rfl
    · rw [← refusal_unwind_isGroup]
      cases h : unwind Waiting.isGroup r.waiting r.operands r.reductions with
      | error halt => rfl
      | ok s =>
          obtain ⟨waiting, operands, reductions⟩ := s
          match waiting, operands with
          | .group start :: waiting, _ => rfl
          | .connective c start :: waiting, _ =>
              exact absurd (stops_of_unwind h _ rfl) Bool.false_ne_true
          | [], [] => rfl
          | [], [_] => rfl
          | [], _ :: _ :: _ => rfl

/-- Without the names of the exits, reading a text is what `Formula.readLexemes` does. -/
theorem refusal_readLexemes (found : List Lexeme) (length : Nat) :
    (readLexemes found length).mapError Halt.refusal = Formula.readLexemes found length := by
  cases found with
  | nil => rfl
  | cons l rest =>
      rw [readLexemes, Formula.readLexemes, ← refusal_takeAll]
      · cases takeAll {} (l :: rest) with
        | ok r => exact refusal_finish r length
        | error halt => rfl
      · simp
      · simp

end Read

end Exits

end Verdict
