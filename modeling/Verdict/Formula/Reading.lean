import Verdict.Formula.ParseError
import Verdict.Formula.Token

/-!
# Reading a formula from its text

A reading takes the lexemes from left to right. Connectives wait on one stack and finished operands
on another; a waiting connective takes its two operands as soon as a lexeme shows that it binds at
least as tightly as what follows. So `and` binds tighter than `or`, and equal connectives group to
the left. The opening parenthesis of a group stays on the stack of connectives as a barrier until
the group is closed.

A group of nothing is passed over as long as no number has been read. It leaves no operand behind,
so a connective beside it finds one operand too few when it is its turn; a text of such groups
alone has no operands at all.

## Implementation notes

Every step is bounded by the lexemes it consumes and the connectives it reduces, and the reductions
made before an error are part of the answer: `Refusal` carries them.
-/

namespace Verdict

/-- An entry of the stack of connectives, with the position of its first character. -/
inductive Waiting where
  | group (position : Nat)
  | connective (c : Connective) (position : Nat)
  deriving DecidableEq, Repr

/-- A connective that was given its operands, and where it stands in the text. -/
structure Reduction where
  connective : Connective
  position : Nat
  deriving DecidableEq, Repr

/-- The log line of a reduction. -/
def Reduction.message (r : Reduction) : String :=
  "reducing " ++
    (match r.connective with
      | .and => "And"
      | .or => "Or") ++
    " at position " ++ toString r.position

/-- An error, and the reductions made before it, latest first. -/
structure Refusal where
  error : ParseError
  reductions : List Reduction
  deriving DecidableEq, Repr

/-- What a reading has stacked up. -/
structure Stacks where
  waiting : List Waiting := []
  operands : List Formula := []
  /-- The reductions made so far, latest first. -/
  reductions : List Reduction := []

/-- Reduce the connectives on top of the stack for as long as they are due. A connective that finds
fewer than two operands is an error at its own position. -/
def Stacks.unwind (due : Connective → Bool) :
    List Waiting → List Formula → List Reduction → Except Refusal Stacks
  | .connective c position :: waiting, operands, reductions =>
      if due c then
        match operands with
        | right :: left :: rest =>
            unwind due waiting (.join c left right :: rest) (⟨c, position⟩ :: reductions)
        | _ => .error ⟨.missingOperand position, reductions⟩
      else .ok ⟨.connective c position :: waiting, operands, reductions⟩
  | waiting, operands, reductions => .ok ⟨waiting, operands, reductions⟩

/-- A text read up to some lexeme. -/
structure Reading extends Stacks where
  /-- Whether the next lexeme has to begin an operand. -/
  awaiting : Bool := true
  /-- Whether a number has been read. -/
  seen : Bool := false
  /-- How many groups are open. -/
  openGroups : Nat := 0

namespace Reading

/-- Give up. -/
def refuse {α : Type} (r : Reading) (error : ParseError) : Except Refusal α :=
  .error ⟨error, r.reductions⟩

/-- Read a number. -/
def takeNumber (r : Reading) (value position : Nat) : Except Refusal Reading :=
  if r.awaiting then
    match Fact.ofId value with
    | .ok f =>
        .ok { r with operands := .fact f :: r.operands, awaiting := false, seen := true }
    | .error refusal => r.refuse (.outOfRange refusal)
  else r.refuse (.missingOperator position)

/-- Read an opening parenthesis. -/
def takeOpening (r : Reading) (position : Nat) : Except Refusal Reading :=
  if r.awaiting then
    .ok { r with waiting := .group position :: r.waiting, openGroups := r.openGroups + 1 }
  else r.refuse (.missingOperator position)

/-- Read a closing parenthesis where an operand should stand: a group of nothing is passed over if
no number has been read. -/
def passOver (r : Reading) (position : Nat) : Except Refusal Reading :=
  match r.waiting with
  | .group _ :: waiting =>
      if r.seen then r.refuse (.missingOperand position)
      else .ok { r with waiting, awaiting := false, openGroups := r.openGroups - 1 }
  | _ => r.refuse (.missingOperand position)

/-- Read a closing parenthesis after an operand. -/
def closeGroup (r : Reading) (position : Nat) : Except Refusal Reading :=
  match Stacks.unwind (fun _ => true) r.waiting r.operands r.reductions with
  | .ok ⟨.group _ :: waiting, operands, reductions⟩ =>
      .ok { r with waiting, operands, reductions, openGroups := r.openGroups - 1 }
  | .ok unwound => .error ⟨.unmatchedClosing position, unwound.reductions⟩
  | .error refusal => .error refusal

/-- Read a closing parenthesis. -/
def takeClosing (r : Reading) (position : Nat) : Except Refusal Reading :=
  if r.openGroups = 0 then r.refuse (.unmatchedClosing position)
  else if r.awaiting then r.passOver position
  else r.closeGroup position

/-- Read a connective. Those that wait and bind at least as tightly are reduced first. -/
def takeConnective (r : Reading) (c : Connective) (position : Nat) : Except Refusal Reading :=
  if r.awaiting then r.refuse (.missingOperand position)
  else
    match Stacks.unwind (fun d => c.precedence ≤ d.precedence) r.waiting r.operands
        r.reductions with
    | .ok unwound =>
        .ok { r with
          toStacks := { unwound with waiting := .connective c position :: unwound.waiting }
          awaiting := true }
    | .error refusal => .error refusal

/-- Read a lexeme. -/
def take (r : Reading) (lexeme : Lexeme) : Except Refusal Reading :=
  match lexeme.token with
  | .number value => r.takeNumber value lexeme.position
  | .opening => r.takeOpening lexeme.position
  | .closing => r.takeClosing lexeme.position
  | .connective c => r.takeConnective c lexeme.position
  | .unknown c => r.refuse (.unexpectedCharacter c lexeme.position)

/-- Read lexemes until one is refused. -/
def takeAll : Reading → List Lexeme → Except Refusal Reading
  | r, [] => .ok r
  | r, lexeme :: rest =>
      match r.take lexeme with
      | .ok r => takeAll r rest
      | .error refusal => .error refusal

/-- End a reading at the end of the text: all connectives get their operands, and one formula has
to be left. -/
def finish (r : Reading) (length : Nat) : Except Refusal (Formula × List Reduction) :=
  if ¬ r.seen then r.refuse .noOperands
  else if r.awaiting then r.refuse (.missingOperand length)
  else
    match Stacks.unwind (fun _ => true) r.waiting r.operands r.reductions with
    | .ok ⟨.group position :: _, _, reductions⟩ => .error ⟨.unclosedGroup position, reductions⟩
    | .ok ⟨_, [], reductions⟩ => .error ⟨.noOperands, reductions⟩
    | .ok ⟨_, [e], reductions⟩ => .ok (e, reductions)
    | .ok ⟨_, _, reductions⟩ => .error ⟨.missingOperator length, reductions⟩
    | .error refusal => .error refusal

end Reading

/-- What comes of reading a text: a formula or an error, and the reductions made, in order. -/
structure Transcript where
  result : Except ParseError Formula
  reductions : List Reduction

/-- The transcript of a finished or refused reading. -/
def Transcript.ofReading : Except Refusal (Formula × List Reduction) → Transcript
  | .ok (e, reductions) => ⟨.ok e, reductions.reverse⟩
  | .error refusal => ⟨.error refusal.error, refusal.reductions.reverse⟩

namespace Formula

/-- Read a text of a given length from its lexemes. -/
def readLexemes (lexemes : List Lexeme) (length : Nat) :
    Except Refusal (Formula × List Reduction) :=
  match lexemes with
  | [] => .error ⟨.empty, []⟩
  | lexemes =>
      match Reading.takeAll {} lexemes with
      | .ok r => r.finish length
      | .error refusal => .error refusal

/-- Read a text and keep the reductions. -/
def transcribe (text : String) : Transcript :=
  .ofReading (readLexemes (lexemes text.toList) text.length)

/-- The formula that a text stands for. -/
def parse (text : String) : Except ParseError Formula := (transcribe text).result

end Formula

end Verdict
