import Mathlib.Order.Bounds.Defs
import Verdict.Proofs.FirstError
import Verdict.Proofs.Progress

/-!
# What an error says is true of the text

Every error of reading says something about the characters of the text, which `ParseError.Describes`
spells out: which character stands at the place that is named, what stands before it, and why no
other place could be named. `Formula.parse_error_describes` says that all errors are true in this
sense, and that the text is called empty whenever it is blank.

A reading that stops at a lexeme knows its stacks by `HasRead` and the characters before the lexeme
by `Stands`. From these every error is read off, apart from the one that names a connective an empty
group starved, which may stand far before the lexeme: `Starved` tells what stands around it.
-/

namespace Verdict

/-- The parenthesis at this place opens a group that is never closed. -/
def Unclosed (text : List Char) (place : Nat) : Prop :=
  ∃ before after, text = before ++ '(' :: after ∧ before.length = place ∧ NeverOverclosed after

/-- Why an operand is missing at a place of a text. -/
inductive LacksOperand (text : List Char) (place : Nat) : Prop where
  /-- The text ends where an operand should begin. -/
  | atEnd (hplace : place = text.length) (hseen : ∃ c ∈ text, c.isDigit = true)
      (hlast : ∃ c ∈ lastVisible text, c ∈ ['(', '&', '|'])
  /-- A connective or a closing parenthesis stands where an operand should begin. -/
  | before {c} (hc : text[place]? = some c) (hmem : c ∈ ['&', '|', ')'])
      (hlast : ∀ d ∈ lastVisible (text.take place), d ∈ ['(', '&', '|'])
  /-- A connective has a group of nothing to its left. -/
  | starved {c} (hc : text[place]? = some c) (hmem : c ∈ ['&', '|'])
      (hlast : lastVisible (text.take place) = some ')')
      (hnone : ∀ d ∈ text.take place, d.isDigit = false)

/-- What an error says about a text. -/
def ParseError.Describes (text : List Char) : ParseError → Prop
  | empty => ∀ c ∈ text, Text.isBlank c = true
  | unexpectedCharacter c place =>
      text[place]? = some c ∧ ¬ Legible c ∧ ∀ d ∈ text.take place, Legible d
  | unclosedGroup place => IsGreatest {p | Unclosed text p} place ∧ ∃ c ∈ text, c.isDigit = true
  | unmatchedClosing place => IsLeast {p | Overclosed (text.take (p + 1))} place
  | noOperands => (∃ c ∈ text, Text.isBlank c = false) ∧ ∀ c ∈ text, c.isDigit = false
  | missingOperand place => LacksOperand text place
  | missingOperator place =>
      (∃ c, text[place]? = some c ∧ (c.isDigit = true ∨ c = '(')) ∧
        ∃ d ∈ lastVisible (text.take place), d.isDigit = true ∨ d = ')'
  | outOfRange refusal =>
      ∃ front digits, IsRun text front digits ∧ FactSet.width ≤ numeral digits ∧
        refusal.id = min (numeral digits) (2 ^ 64 - 1) ∧
        ∀ front' digits', IsRun text front' digits' → front'.length < front.length →
          numeral digits' < FactSet.width

section Words

variable {text front word rest : List Char} {before after : List Lexeme} {l : Lexeme}

theorem WordAt.take_position (h : WordAt text front word rest before l after) :
    text.take l.position = front := by
  rw [h.text_eq]
  exact List.take_left' h.length_front

theorem WordAt.exists_shows (h : WordAt text front word rest before l after) :
    ∃ c, text[l.position]? = some c ∧ l.token.Shows c := by
  obtain ⟨c, more, rfl⟩ := List.exists_cons_of_ne_nil h.spells.ne_nil
  refine ⟨c, ?_, h.spells.shows c (List.mem_cons_self ..)⟩
  rw [h.text_eq, ← h.length_front, List.getElem?_append_right (Nat.le_refl _), Nat.sub_self]
  rfl

/-- The word of a number is a longest run of digits. -/
theorem WordAt.isRun (h : WordAt text front word rest before l after) {value : Nat}
    (ht : l.token = .number value) :
    IsRun text front word ∧ value = min Token.ceiling (numeral word) := by
  obtain ⟨hdigits, hvalue⟩ := h.spells.digits ht
  obtain ⟨hfront, hrest⟩ := h.longest _ ht
  exact ⟨⟨h.spells.ne_nil, hdigits, hfront, rest, h.text_eq, hrest⟩, hvalue⟩

end Words

/-- With nothing waiting the whole of what was read is one piece. -/
theorem Held.exists_fills_of_nil {a : Category} {slots : List (Option Formula)}
    {found : List Lexeme} (h : Held a [] slots found) :
    ∃ slot, slots = [slot] ∧ Fills a [] found slot := by
  obtain ⟨below, -, hfills⟩ := h
  cases below
  exact ⟨_, rfl, hfills⟩

/-- What was read after the parenthesis of the innermost open group is one piece. -/
theorem Held.exists_fills_of_group {a : Category} {position : Nat} {waiting : List Waiting}
    {slots : List (Option Formula)} {found : List Lexeme}
    (h : Held a (.group position :: waiting) slots found) :
    ∃ before piece slot, found = before ++ ⟨.opening, position⟩ :: piece ∧
      Fills a (before ++ [⟨.opening, position⟩]) piece slot := by
  obtain ⟨below, -, hfills⟩ := h
  cases below
  exact ⟨_, _, _, by simp, hfills⟩

theorem Hollow.getLast? {tokens : List Token} (h : Hollow tokens) :
    tokens.getLast? = some .closing := by
  cases h with
  | bare => rfl
  | group _ => exact List.getLast?_concat

theorem Hollow.number_notMem {tokens : List Token} (h : Hollow tokens) (value : Nat) :
    .number value ∉ tokens := by
  induction h with
  | bare => simp
  | group _ ih => simpa using ih

theorem Hollow.unnumbered {piece : List Lexeme} (h : Hollow (piece.map Lexeme.token)) :
    Unnumbered piece := by
  intro l hl value htoken
  apply h.number_notMem value
  rw [← htoken]
  exact List.mem_map_of_mem hl

/-- Without a number among its lexemes a text has no digit. -/
theorem isDigit_eq_false_of_unnumbered {text : List Char} (h : Unnumbered (lexemes text)) :
    ∀ c ∈ text, c.isDigit = false := by
  intro c hc
  by_contra hdigit
  rw [Bool.not_eq_false] at hdigit
  have hvisible := mem_visible.mpr ⟨hc, isBlank_eq_false_of_isDigit hdigit⟩
  obtain ⟨t, ht, hshows⟩ := (spelled_lexemes text).exists_token c hvisible
  obtain ⟨value, rfl⟩ := hshows.exists_number hdigit
  obtain ⟨l, hl, htoken⟩ := List.mem_map.mp ht
  exact h l hl value htoken

/-- A connective that is starved has a group of nothing to its left. -/
theorem Starved.lacksOperand {text : List Char} {place : Nat}
    (h : Starved place (lexemes text)) : LacksOperand text place := by
  obtain ⟨d, before, piece, after, hlexemes, hhollow, hbefore⟩ := h
  obtain ⟨front, word, rest, hat⟩ := exists_word hlexemes
  obtain ⟨c, hc, hshows⟩ := hat.exists_shows
  apply LacksOperand.starved hc hshows.mem_of_connective
  · rw [hat.take_position]
    have hlast : ((lexemes front).map Lexeme.token).getLast? = some .closing := by
      rw [hat.lexemes_front, List.map_append, List.getLast?_append, hhollow.getLast?]
      rfl
    rcases (spelled_lexemes front).getLast? with ⟨hnone, -⟩ | ⟨t, d, ht, hd, hshows⟩
    · rw [hlast] at hnone
      contradiction
    · rw [hlast] at ht
      cases ht
      rw [lastVisible, hd, hshows]
  · rw [hat.take_position]
    apply isDigit_eq_false_of_unnumbered
    rw [hat.lexemes_front]
    intro l hl value htoken
    rcases List.mem_append.mp hl with hl | hl
    · exact hbefore l hl value htoken
    · exact hhollow.unnumbered l hl value htoken

section Lexemes

variable {r : Reading} {text front word rest : List Char} {before after : List Lexeme}
  {l : Lexeme} {slots : List (Option Formula)} {error : ParseError} {made : List Reduction}
  {place : Nat}

/-- All runs of digits before the word of a number are in range. -/
theorem Reading.Stands.inRange_of_lt (h : r.Stands front)
    (hat : WordAt text front word rest before l after) {value : Nat}
    (ht : l.token = .number value) {front' digits' : List Char}
    (hrun : IsRun text front' digits') (hlt : front'.length < front.length) :
    numeral digits' < FactSet.width := by
  rw [hat.text_eq] at hrun
  exact h.inRange front' digits' (hrun.left (hat.longest _ ht).1 hlt)

/-- An operand that begins where a connective is due. -/
theorem Reading.Stands.describes_missingOperator (h : r.Stands front)
    (hat : WordAt text front word rest before l after) (hawait : r.awaiting = false)
    (ht : l.token = .opening ∨ ∃ value, l.token = .number value) :
    (ParseError.missingOperator l.position).Describes text := by
  obtain ⟨c, hc, hshows⟩ := hat.exists_shows
  have hbegins : c.isDigit = true ∨ c = '(' := by
    rcases ht with ht | ⟨value, ht⟩
    · rw [ht] at hshows
      exact .inr hshows
    · rw [ht] at hshows
      exact .inl hshows
  refine ⟨⟨c, hc, hbegins⟩, ?_⟩
  rw [hat.take_position]
  exact h.complete hawait

/-- A connective or closing parenthesis where an operand is awaited. -/
theorem Reading.Stands.describes_missingOperand (h : r.Stands front)
    (hat : WordAt text front word rest before l after) (hawait : r.awaiting = true)
    (ht : l.token = .closing ∨ ∃ c, l.token = .connective c) :
    (ParseError.missingOperand l.position).Describes text := by
  obtain ⟨c, hc, hshows⟩ := hat.exists_shows
  have hends : c ∈ ['&', '|', ')'] := by
    rcases ht with ht | ⟨d, ht⟩
    · rw [ht] at hshows
      obtain rfl := hshows
      decide
    · rw [ht] at hshows
      exact List.mem_append_left [')'] hshows.mem_of_connective
  apply LacksOperand.before hc hends
  rw [hat.take_position]
  exact h.awaiting hawait

/-- A closing parenthesis where no group is open. -/
theorem Reading.Stands.describes_unmatchedClosing (h : r.Stands front)
    (hat : WordAt text front word rest before l after) (hopen : r.openGroups = 0)
    (ht : l.token = .closing) : (ParseError.unmatchedClosing l.position).Describes text := by
  obtain ⟨c, hc, hshows⟩ := hat.exists_shows
  rw [ht] at hshows
  obtain rfl := hshows
  have hsettled := h.openGroups
  rw [hopen, Nat.zero_add] at hsettled
  constructor
  · change Overclosed (text.take (l.position + 1))
    rw [List.take_add_one, hc, hat.take_position]
    simp [Overclosed, hsettled]
  · intro p hp
    by_contra hlt
    have hprefix : text.take (p + 1) <+: front := by
      rw [← hat.take_position]
      exact List.take_prefix_take_left (Nat.lt_of_not_le hlt)
    exact h.never _ hprefix hp

theorem Reading.Stands.describes_unexpectedCharacter (h : r.Stands front)
    (hat : WordAt text front word rest before l after) {c : Char} (ht : l.token = .unknown c) :
    (ParseError.unexpectedCharacter c l.position).Describes text := by
  obtain ⟨d, hd, hshows⟩ := hat.exists_shows
  rw [ht] at hshows
  obtain ⟨rfl, hlegible⟩ := hshows
  refine ⟨hd, hlegible, ?_⟩
  rw [hat.take_position]
  exact h.legible

theorem Reading.Stands.describes_outOfRange (h : r.Stands front)
    (hat : WordAt text front word rest before l after) {value : Nat} {refusal : OutOfRange}
    (ht : l.token = .number value) (hvalue : Fact.ofId value = .error refusal) :
    (ParseError.outOfRange refusal).Describes text := by
  obtain ⟨hrun, rfl⟩ := hat.isRun ht
  obtain ⟨hlarge, rfl⟩ := Fact.ofId_eq_error_iff.mp hvalue
  refine ⟨front, word, hrun, Nat.le_trans hlarge (Nat.min_le_right _ _), Nat.min_comm .., ?_⟩
  intro front' digits' hrun' hlt
  exact h.inRange_of_lt hat ht hrun' hlt

/-- With nothing waiting all groups are closed. -/
theorem Reading.Stands.openGroups_eq_zero (h : r.Stands front) {a : Category}
    (hheld : Held a [] slots (lexemes front)) : r.openGroups = 0 := by
  obtain ⟨slot, -, hfills⟩ := hheld.exists_fills_of_nil
  have hbalanced : Balanced front := by
    apply Balanced.of_filter
    rw [← filter_isParen_visible, (spelled_lexemes front).filter_isParen]
    exact hfills.balanced
  have hopen := h.openGroups
  rw [hbalanced.settled] at hopen
  omega

/-- When all that is due in an open group is reduced, the group is what waits next. -/
theorem Reading.HasRead.exists_group_of_unwind (hread : r.HasRead (lexemes front) slots)
    (h : r.Stands front) (hopen : r.openGroups ≠ 0) (hawait : r.awaiting = false) {s : Stacks}
    (hunwind : Stacks.unwind Category.orExpr.due r.waiting r.operands r.reductions = .ok s) :
    ∃ start waiting, s.waiting = .group start :: waiting := by
  rw [hread.operands] at hunwind
  rcases (hread.held hawait).unwind (Category.rank_orExpr_le _) r.reductions with
    ⟨⟨waiting, operands, reductions⟩, slots', hunwind', -, hheld⟩ | ⟨_, _, -, hunwind'⟩
  · rw [hunwind'] at hunwind
    cases hunwind
    rcases waiting with _ | ⟨⟨start⟩ | ⟨c, position⟩, waiting⟩
    · exact absurd (h.openGroups_eq_zero hheld) hopen
    · exact ⟨start, waiting, rfl⟩
    · exact absurd hheld.admits (not_admits_orExpr c)
  · rw [hunwind'] at hunwind
    contradiction

/-- An error at a lexeme is true of the text. -/
theorem Reading.HasRead.describes_of_take (hread : r.HasRead (lexemes front) slots)
    (h : r.Stands front) (hat : WordAt text front word rest (lexemes front) l after)
    (hlexemes : lexemes text = lexemes front ++ l :: after)
    (hr : r.take l = .error ⟨error, made⟩) : error.Describes text := by
  cases Reading.refuses_of_take hr with
  | outOfRange ht hvalue => exact h.describes_outOfRange hat ht hvalue
  | missingOperator hawait ht => exact h.describes_missingOperator hat hawait ht
  | missingOperand hawait ht => exact h.describes_missingOperand hat hawait ht
  | unmatchedClosing ht hopen => exact h.describes_unmatchedClosing hat hopen ht
  | unexpectedCharacter ht => exact h.describes_unexpectedCharacter hat ht
  | unreduced hawait a hunwind =>
      obtain ⟨position, herror, hstarved⟩ := hread.exists_starved_of_unwind hawait hunwind
      obtain rfl : error = .missingOperand position := herror
      apply Starved.lacksOperand
      rw [hlexemes]
      exact hstarved.append _
  | unopened hopen hawait hunwind hnone =>
      obtain ⟨start, waiting, hgroup⟩ := hread.exists_group_of_unwind h hopen hawait hunwind
      exact absurd hgroup (hnone start waiting)

end Lexemes

section End

variable {r : Reading} {text : List Char} {slots : List (Option Formula)} {error : ParseError}
  {made : List Reduction}

/-- The innermost group that is open at the end is the last one that is never closed. -/
theorem Held.isGreatest_unclosed {a : Category} {position : Nat} {waiting : List Waiting}
    (h : Held a (.group position :: waiting) slots (lexemes text)) :
    IsGreatest {p | Unclosed text p} position := by
  obtain ⟨before, piece, slot, hlexemes, hfills⟩ := h.exists_fills_of_group
  obtain ⟨front, c, rest, rfl, hlength, rfl, hcut, hc⟩ := exists_cut hlexemes
  obtain ⟨rfl, found, hlexed, rfl⟩ := eq_of_lexemes_cons hcut hc .opening hlexemes
  obtain rfl : front.length = position := hlength
  have hbalanced : Balanced rest := by
    apply Balanced.of_filter
    rw [← filter_isParen_visible, hlexed.spelled.filter_isParen]
    exact hfills.balanced
  constructor
  · exact ⟨front, rest, rfl, rfl, hbalanced.never⟩
  · rintro p ⟨upto, past, heq, rfl, hnever⟩
    by_contra hlt
    -- A later parenthesis would stand in the balanced rest, which closes its group.
    rcases List.append_eq_append_iff.mp heq with ⟨gap, rfl, hgap⟩ | ⟨gap, rfl, -⟩
    · cases gap with
      | nil => simp at hlt
      | cons d gap =>
          obtain ⟨-, rfl⟩ := List.cons.inj hgap
          exact hnever past (List.prefix_refl _) hbalanced.overclosed_of_append
    · simp at hlt

theorem Reading.Stands.describes_missingOperand_length (h : r.Stands text)
    (hseen : r.seen = true) (hawait : r.awaiting = true) :
    (ParseError.missingOperand text.length).Describes text := by
  have hdigit := h.seen.mp hseen
  apply LacksOperand.atEnd rfl hdigit
  obtain ⟨c, hc, hdigit⟩ := hdigit
  have hne := List.ne_nil_of_mem (mem_visible.mpr ⟨hc, isBlank_eq_false_of_isDigit hdigit⟩)
  have hlast := List.getLast?_eq_some_getLast hne
  exact ⟨_, hlast, h.awaiting hawait _ hlast⟩

theorem lexemes_eq_nil_iff : lexemes text = [] ↔ ∀ c ∈ text, Text.isBlank c = true := by
  rw [← List.map_eq_nil_iff (f := Lexeme.token), (spelled_lexemes text).eq_nil_iff, visible,
    List.filter_eq_nil_iff]
  simp

theorem Reading.Stands.describes_noOperands (h : r.Stands text) (hne : lexemes text ≠ [])
    (hseen : ¬ r.seen = true) : ParseError.noOperands.Describes text := by
  rw [Ne, lexemes_eq_nil_iff] at hne
  rw [h.seen] at hseen
  constructor
  · simpa using hne
  · simpa using hseen

/-- An error at the end of the text is true of the text. -/
theorem Reading.HasRead.describes_of_finish (hread : r.HasRead (lexemes text) slots)
    (h : r.Stands text) (hne : lexemes text ≠ [])
    (hr : r.finish text.length = .error ⟨error, made⟩) : error.Describes text := by
  unfold Reading.finish Reading.refuse at hr
  split at hr
  · next hseen =>
      cases hr
      exact h.describes_noOperands hne hseen
  next hseen =>
  rw [Decidable.not_not] at hseen
  split at hr
  · next hawait =>
      cases hr
      exact h.describes_missingOperand_length hseen hawait
  next hawait =>
  rw [← Category.due_orExpr, hread.operands] at hr
  rcases (hread.held (Bool.eq_false_iff.mpr hawait)).unwind (Category.rank_orExpr_le _)
      r.reductions with
    ⟨⟨waiting, operands, reductions⟩, slots', hunwind, hoperands, hheld⟩ | ⟨_, _, hstarved, hunwind⟩
  · rw [hunwind] at hr
    rcases waiting with _ | ⟨⟨position⟩ | ⟨c, position⟩, waiting⟩
    · obtain ⟨slot, rfl, hfills⟩ := hheld.exists_fills_of_nil
      obtain rfl : operands = [slot].reduceOption := hoperands
      cases hfills with
      | phrase => contradiction
      | hollow hhollow =>
          have hnone := isDigit_eq_false_of_unnumbered hhollow.unnumbered
          obtain ⟨c, hc, hdigit⟩ := h.seen.mp hseen
          rw [hnone c hc] at hdigit
          contradiction
    · cases hr
      exact ⟨hheld.isGreatest_unclosed, h.seen.mp hseen⟩
    · exact absurd hheld.admits (not_admits_orExpr c)
  · rw [hunwind] at hr
    cases hr
    exact hstarved.lacksOperand

end End

namespace Formula

theorem describes_of_readLexemes {text : String} {error : ParseError} {made : List Reduction}
    (h : readLexemes (lexemes text.toList) text.length = .error ⟨error, made⟩) :
    error.Describes text.toList := by
  cases stopsReading_of_readLexemes h with
  | nothing hnil hrefusal =>
      cases hrefusal
      exact lexemes_eq_nil_iff.mp hnil
  | lexeme hlexemes hbefore hl =>
      obtain ⟨front, word, rest, hat⟩ := exists_word hlexemes
      obtain rfl := hat.lexemes_front
      obtain ⟨slots, hread⟩ := Reading.HasRead.start.takeAll hbefore
      have hstands := (Reading.Follows.start.takeAll hbefore).stands
      exact hread.describes_of_take hstands hat hlexemes hl
  | ending hne hall hend =>
      obtain ⟨slots, hread⟩ := Reading.HasRead.start.takeAll hall
      have hstands := (Reading.Follows.start.takeAll hall).stands
      exact hread.describes_of_finish hstands hne hend

/-- Every error is true of the text, and a text is called empty whenever it is blank. -/
theorem parse_error_describes (text : String) :
    (parse text = .error .empty ↔ ∀ c ∈ text.toList, Text.isBlank c = true) ∧
      ∀ error, parse text = .error error → error.Describes text.toList := by
  have hdescribes : ∀ error, parse text = .error error → error.Describes text.toList := by
    intro error h
    obtain ⟨made, hread⟩ := parse_eq_error_iff_readLexemes.mp h
    exact describes_of_readLexemes hread
  refine ⟨⟨hdescribes .empty, fun hblank => ?_⟩, hdescribes⟩
  rw [parse_eq_error_iff_readLexemes, lexemes_eq_nil_iff.mpr hblank]
  exact ⟨[], rfl⟩

/-- In `(() & 1` the connective is starved by the empty group to its left. The group that is never
closed is not reported. -/
theorem parse_error_at_starved_connective :
    parse "(() & 1" = .error (.missingOperand 4) ∧
      (ParseError.missingOperand 4).Describes "(() & 1".toList := by
  have h : parse "(() & 1" = .error (.missingOperand 4) := rfl
  obtain ⟨-, hdescribes⟩ := parse_error_describes "(() & 1"
  exact ⟨h, hdescribes _ h⟩

end Formula

end Verdict
