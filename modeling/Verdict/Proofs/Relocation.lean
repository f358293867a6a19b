import Verdict.Proofs.FirstError

/-!
# Positions are only passed on

Reading never looks at the position of a token, it only hands positions on to reductions and errors.
So if every token is moved to another position, reading goes the same way and names the new
positions where it named the old ones. A text is read like its bare tokens, each of which stands at
its own number, and the positions are put in afterwards: two texts with the same tokens have the
same formula, or the same error at the place of the same token.
-/

namespace Verdict

/-! ### Moving positions -/

section Moving

variable (f : Nat → Nat)

/-- The lexeme at its new position. -/
def Lexeme.relocate (l : Lexeme) : Lexeme := { l with position := f l.position }

/-- The entry with its new position. -/
def Waiting.relocate : Waiting → Waiting
  | group position => group (f position)
  | connective c position => connective c (f position)

/-- The reduction at its new position. -/
def Reduction.relocate (r : Reduction) : Reduction := { r with position := f r.position }

/-- The error with its place moved; what else it says stays. -/
def ParseError.relocate : ParseError → ParseError
  | unexpectedCharacter c place => unexpectedCharacter c (f place)
  | unclosedGroup place => unclosedGroup (f place)
  | unmatchedClosing place => unmatchedClosing (f place)
  | missingOperand place => missingOperand (f place)
  | missingOperator place => missingOperator (f place)
  | empty => empty
  | noOperands => noOperands
  | outOfRange refusal => outOfRange refusal

/-- The refusal with all its places moved. -/
def Refusal.relocate (refusal : Refusal) : Refusal :=
  ⟨refusal.error.relocate f, refusal.reductions.map (Reduction.relocate f)⟩

/-- The stacks with all their positions moved. -/
def Stacks.relocate (s : Stacks) : Stacks :=
  ⟨s.waiting.map (Waiting.relocate f), s.operands, s.reductions.map (Reduction.relocate f)⟩

/-- The reading with all its positions moved. -/
def Reading.relocate (r : Reading) : Reading := { r with toStacks := r.toStacks.relocate f }

/-- What a reading ends with, with the reductions at their new positions. -/
def Reading.relocateEnd (done : Formula × List Reduction) : Formula × List Reduction :=
  (done.1, done.2.map (Reduction.relocate f))

/-- An outcome with all its positions moved. -/
def relocated {α : Type} (move : α → α) : Except Refusal α → Except Refusal α
  | .ok a => .ok (move a)
  | .error refusal => .error (refusal.relocate f)

end Moving

variable {f : Nat → Nat}

theorem Stacks.unwind_relocate (due : Connective → Bool) (waiting : List Waiting)
    (operands : List Formula) (reductions : List Reduction) :
    unwind due (waiting.map (Waiting.relocate f)) operands
        (reductions.map (Reduction.relocate f)) =
      relocated f (Stacks.relocate f) (unwind due waiting operands reductions) := by
  induction waiting generalizing operands reductions with
  | nil => rfl
  | cons entry waiting ih =>
      rw [List.map_cons]
      cases entry with
      | group position => rfl
      | connective c position =>
          rw [Waiting.relocate]
          cases hdue : due c with
          | false =>
              rw [unwind_of_not hdue, unwind_of_not hdue]
              rfl
          | true =>
              rcases Nat.lt_or_ge operands.length 2 with hfew | hmany
              · rw [unwind_of_few hdue hfew, unwind_of_few hdue hfew]
                rfl
              · match operands, hmany with
                | right :: left :: rest, _ =>
                    rw [unwind_of_due hdue, unwind_of_due hdue]
                    exact ih (.join c left right :: rest) (⟨c, position⟩ :: reductions)

namespace Reading

variable (r : Reading) (position : Nat)

@[simp] theorem awaiting_relocate : (r.relocate f).awaiting = r.awaiting := rfl

@[simp] theorem seen_relocate : (r.relocate f).seen = r.seen := rfl

@[simp] theorem openGroups_relocate : (r.relocate f).openGroups = r.openGroups := rfl

theorem unwind_relocate (due : Connective → Bool) :
    Stacks.unwind due (r.relocate f).waiting (r.relocate f).operands (r.relocate f).reductions =
      relocated f (Stacks.relocate f) (Stacks.unwind due r.waiting r.operands r.reductions) :=
  Stacks.unwind_relocate due r.waiting r.operands r.reductions

theorem takeNumber_relocate (value : Nat) :
    (r.relocate f).takeNumber value (f position) =
      relocated f (relocate f) (r.takeNumber value position) := by
  rw [takeNumber, takeNumber, awaiting_relocate]
  split
  · cases Fact.ofId value <;> rfl
  · rfl

theorem takeOpening_relocate :
    (r.relocate f).takeOpening (f position) =
      relocated f (relocate f) (r.takeOpening position) := by
  rw [takeOpening, takeOpening, awaiting_relocate]
  split <;> rfl

theorem passOver_relocate :
    (r.relocate f).passOver (f position) = relocated f (relocate f) (r.passOver position) := by
  obtain ⟨⟨waiting, operands, reductions⟩, awaiting, seen, openGroups⟩ := r
  rcases waiting with _ | ⟨⟨start⟩ | ⟨c, start⟩, waiting⟩
  · rfl
  · cases seen <;> rfl
  · rfl

theorem closeGroup_relocate :
    (r.relocate f).closeGroup (f position) = relocated f (relocate f) (r.closeGroup position) := by
  rw [closeGroup, closeGroup, unwind_relocate]
  rcases Stacks.unwind (fun _ => true) r.waiting r.operands r.reductions with
    refusal | ⟨_ | ⟨⟨start⟩ | ⟨c, start⟩, waiting⟩, operands, reductions⟩
  · rfl
  · rfl
  · rfl
  · rfl

theorem takeClosing_relocate :
    (r.relocate f).takeClosing (f position) =
      relocated f (relocate f) (r.takeClosing position) := by
  rw [takeClosing, takeClosing, openGroups_relocate, awaiting_relocate]
  split
  · rfl
  · split
    · exact passOver_relocate r position
    · exact closeGroup_relocate r position

theorem takeConnective_relocate (c : Connective) :
    (r.relocate f).takeConnective c (f position) =
      relocated f (relocate f) (r.takeConnective c position) := by
  rw [takeConnective, takeConnective, awaiting_relocate, unwind_relocate]
  split
  · rfl
  · cases Stacks.unwind (fun d => c.precedence ≤ d.precedence) r.waiting r.operands
      r.reductions <;> rfl

/-- A step: a lexeme at a new position is read like the one at the old position. -/
theorem take_relocate (l : Lexeme) :
    (r.relocate f).take (l.relocate f) = relocated f (relocate f) (r.take l) := by
  obtain ⟨t, position⟩ := l
  cases t with
  | number value => exact takeNumber_relocate r position value
  | opening => exact takeOpening_relocate r position
  | closing => exact takeClosing_relocate r position
  | connective c => exact takeConnective_relocate r position c
  | unknown c => rfl

/-- A run: all lexemes at new positions are read like those at the old ones. -/
theorem takeAll_relocate (found : List Lexeme) :
    (r.relocate f).takeAll (found.map (Lexeme.relocate f)) =
      relocated f (relocate f) (r.takeAll found) := by
  induction found generalizing r with
  | nil => rfl
  | cons l rest ih =>
      rw [List.map_cons, takeAll, takeAll, take_relocate]
      cases r.take l with
      | ok next => exact ih next
      | error refusal => rfl

theorem finish_relocate (length : Nat) :
    (r.relocate f).finish (f length) = relocated f (relocateEnd f) (r.finish length) := by
  rw [finish, finish, seen_relocate, awaiting_relocate, unwind_relocate]
  split
  · rfl
  split
  · rfl
  rcases Stacks.unwind (fun _ => true) r.waiting r.operands r.reductions with
    refusal | ⟨_ | ⟨⟨start⟩ | ⟨c, start⟩, waiting⟩, _ | ⟨e, _ | ⟨e', rest⟩⟩, reductions⟩
  all_goals rfl

end Reading

/-- What is read from lexemes at new positions names the new positions. -/
theorem Formula.readLexemes_relocate (found : List Lexeme) (length : Nat) :
    readLexemes (found.map (Lexeme.relocate f)) (f length) =
      relocated f (Reading.relocateEnd f) (readLexemes found length) := by
  cases found with
  | nil => rfl
  | cons l rest =>
      have hall := Reading.takeAll_relocate (f := f) {} (l :: rest)
      change Reading.takeAll {} (l.relocate f :: rest.map (Lexeme.relocate f)) = _ at hall
      rw [List.map_cons, readLexemes, readLexemes, hall]
      · cases Reading.takeAll {} (l :: rest) with
        | ok r => exact Reading.finish_relocate r length
        | error refusal => rfl
      · exact List.cons_ne_nil _ _
      · exact List.cons_ne_nil _ _

/-! ### Tokens without a text -/

/-- The tokens, each standing at its own number. -/
def numbered (tokens : List Token) : List Lexeme := tokens.mapIdx fun k t => ⟨t, k⟩

/-- Where the token of a given number stands; the end of the text if there are not so many. -/
def placeOf (found : List Lexeme) (length k : Nat) : Nat :=
  (found[k]?.map Lexeme.position).getD length

theorem placeOf_length (found : List Lexeme) (length : Nat) :
    placeOf found length found.length = length := by
  rw [placeOf, List.getElem?_eq_none (Nat.le_refl _)]
  rfl

/-- A row of lexemes is its bare tokens moved to their places. -/
theorem map_relocate_numbered (found : List Lexeme) (length : Nat) :
    (numbered (found.map Lexeme.token)).map (Lexeme.relocate (placeOf found length)) = found := by
  apply List.ext_getElem
  · simp [numbered]
  · intro k hk hk'
    simp [numbered, Lexeme.relocate, placeOf, hk']

theorem placeOf_capped (found : List Lexeme) (length : Nat) :
    placeOf (found.map Lexeme.capped) length = placeOf found length := by
  funext k
  rw [placeOf, placeOf, List.getElem?_map, Option.map_map]
  rfl

theorem Lexeme.map_token_capped (found : List Lexeme) :
    (found.map Lexeme.capped).map Lexeme.token = (found.map Lexeme.token).map Token.capped := by
  rw [List.map_map, List.map_map]
  rfl

namespace Formula

/-- What comes of reading bare tokens. -/
def readTokens (tokens : List Token) : Except Refusal (Formula × List Reduction) :=
  readLexemes (numbered (tokens.map Token.capped)) tokens.length

/-- A text is read like its bare tokens, and the places are put in afterwards. -/
theorem readLexemes_eq_relocated {text : String} {found : List Lexeme}
    (h : Lexed 0 text.toList found) :
    readLexemes (lexemes text.toList) text.length =
      relocated (placeOf found text.length) (Reading.relocateEnd (placeOf found text.length))
        (readTokens (found.map Lexeme.token)) := by
  have hmoved := readLexemes_relocate (f := placeOf found text.length)
    (numbered ((found.map Lexeme.token).map Token.capped)) found.length
  rw [← Lexeme.map_token_capped, ← placeOf_capped, map_relocate_numbered, placeOf_capped,
    placeOf_length] at hmoved
  rw [lexemes_eq h, hmoved, readTokens, ← Lexeme.map_token_capped, List.length_map]

/-- Two texts with the same tokens stand for the same formula, or reading them fails with the same
error: `error` says it of the bare tokens, and in each text it names the place of the token with the
same number, or the end. So it does not matter how the tokens are spaced, how many leading zeros
their numbers have, and with how many bars an `or` is written. -/
theorem parse_of_tokens_eq {text text' : String} {found found' : List Lexeme}
    (h : Lexed 0 text.toList found) (h' : Lexed 0 text'.toList found')
    (htokens : found.map Lexeme.token = found'.map Lexeme.token) :
    (∃ e, parse text = .ok e ∧ parse text' = .ok e) ∨
      ∃ error : ParseError,
        parse text = .error (error.relocate (placeOf found text.length)) ∧
          parse text' = .error (error.relocate (placeOf found' text'.length)) := by
  have hread := readLexemes_eq_relocated h
  have hread' := readLexemes_eq_relocated h'
  rw [← htokens] at hread'
  cases hboth : readTokens (found.map Lexeme.token) with
  | ok done =>
      rw [hboth] at hread hread'
      left
      refine ⟨done.1, ?_, ?_⟩
      · exact parse_eq_ok_iff_readLexemes.mpr ⟨_, hread⟩
      · exact parse_eq_ok_iff_readLexemes.mpr ⟨_, hread'⟩
  | error refusal =>
      rw [hboth] at hread hread'
      right
      refine ⟨refusal.error, ?_, ?_⟩
      · exact parse_eq_error_iff_readLexemes.mpr ⟨_, hread⟩
      · exact parse_eq_error_iff_readLexemes.mpr ⟨_, hread'⟩

/-- `1 | )` and `001||  )` have the same tokens, and in both the parenthesis is at fault. -/
theorem parse_of_tokens_eq_closing :
    let found : List Lexeme := [⟨.number 1, 0⟩, ⟨.connective .or, 2⟩, ⟨.closing, 4⟩]
    let found' : List Lexeme := [⟨.number 1, 0⟩, ⟨.connective .or, 3⟩, ⟨.closing, 7⟩]
    Lexed 0 "1 | )".toList found ∧ Lexed 0 "001||  )".toList found' ∧
      found.map Lexeme.token = found'.map Lexeme.token ∧
      ∃ error : ParseError, error.relocate (placeOf found 5) = .unmatchedClosing 4 ∧
        parse "1 | )" = .error (error.relocate (placeOf found 5)) ∧
          parse "001||  )" = .error (error.relocate (placeOf found' 8)) := by
  intro found found'
  have h : Lexed 0 "1 | )".toList found := by
    apply @Lexed.number 0 ['1'] [' ', '|', ' ', ')'] _ (by simp) (by simp) (by simp)
    apply Lexed.blank isBlank_space
    apply Lexed.bar (by simp)
    apply Lexed.blank isBlank_space
    exact .single .closing .done
  have h' : Lexed 0 "001||  )".toList found' := by
    apply @Lexed.number 0 ['0', '0', '1'] ['|', '|', ' ', ' ', ')'] _ (by simp) (by simp) (by simp)
    apply Lexed.bars
    apply Lexed.blank isBlank_space
    apply Lexed.blank isBlank_space
    exact .single .closing .done
  have hparse : parse "1 | )" = .error (.unmatchedClosing 4) := rfl
  refine ⟨h, h', rfl, ?_⟩
  rcases parse_of_tokens_eq h h' rfl with ⟨e, he, -⟩ | ⟨error, herror, herror'⟩
  · rw [hparse] at he
    contradiction
  · refine ⟨error, ?_, herror, herror'⟩
    rw [hparse] at herror
    exact (Except.error.inj herror).symm

end Formula

end Verdict
