import Verdict.Proofs.Continuation

/-!
# An error stands where the text first goes wrong

An error that names a place is final: no text that agrees with the one that was read, up to and
including the character at that place, stands for a formula. If no group before the place is empty,
the place is also the first one that is at fault: what stands before it is the beginning of a text
that does stand for a formula, and all texts that agree up to and including the place have the same
error. After an empty group the fault lies with the group, and a connective beside it is named only
when it is reduced.

`refuses_of_take` lists all the ways in which a lexeme is refused, and `HasRead.faultyEnd` what can
be wrong at the end of a text. Either a lexeme is refused at its own position, and then it is refused
in every text that has the same lexemes before it, or a connective is starved by an empty group
before it. `exists_refused_of_parse` tells the two apart.
-/

namespace Verdict

/-- The place that an error names, if a lexeme or the end of the text is at fault. A group that is
never closed is no such place, since closing it mends the text. -/
def ParseError.place? : ParseError → Option Nat
  | unexpectedCharacter _ position => some position
  | unmatchedClosing position => some position
  | missingOperand position => some position
  | missingOperator position => some position
  | empty | unclosedGroup _ | noOperands | outOfRange _ => none

theorem Starved.append {place : Nat} {found : List Lexeme} (h : Starved place found)
    (more : List Lexeme) : Starved place (found ++ more) := by
  obtain ⟨c, before, piece, after, rfl, hhollow, hbefore⟩ := h
  exact ⟨c, before, piece, after ++ more, by simp, hhollow, hbefore⟩

namespace Reading

variable {r r' : Reading} {found before after : List Lexeme} {slots : List (Option Formula)}
  {l : Lexeme} {refusal : Refusal} {place position length : Nat}

/-- Reducing all that is due fails only at a connective that an empty group starved. -/
theorem HasRead.exists_starved_of_unwind (h : r.HasRead found slots)
    (hawait : r.awaiting = false) {a : Category}
    (hr : Stacks.unwind a.due r.waiting r.operands r.reductions = .error refusal) :
    ∃ position, refusal.error = .missingOperand position ∧ Starved position found := by
  rw [h.operands] at hr
  rcases (h.held hawait).unwind a.rank_le_operand r.reductions with
    ⟨_, _, hunwind, -, -⟩ | ⟨position, made, hstarved, hunwind⟩
  · rw [hunwind] at hr
    contradiction
  · rw [hunwind] at hr
    cases hr
    exact ⟨position, rfl, hstarved⟩

/-- Why a lexeme is refused, and with what. Nothing is reduced before it is, unless reducing all
that is due fails or leaves no group for a parenthesis to close. -/
inductive Refuses (r : Reading) (l : Lexeme) : Refusal → Prop where
  | outOfRange {value : Nat} {refusal : OutOfRange} (ht : l.token = .number value)
      (hvalue : Fact.ofId value = .error refusal) :
      Refuses r l ⟨.outOfRange refusal, r.reductions⟩
  | missingOperator (hawait : r.awaiting = false)
      (ht : l.token = .opening ∨ ∃ value, l.token = .number value) :
      Refuses r l ⟨.missingOperator l.position, r.reductions⟩
  | missingOperand (hawait : r.awaiting = true)
      (ht : l.token = .closing ∨ ∃ c, l.token = .connective c) :
      Refuses r l ⟨.missingOperand l.position, r.reductions⟩
  | unmatchedClosing (ht : l.token = .closing) (hopen : r.openGroups = 0) :
      Refuses r l ⟨.unmatchedClosing l.position, r.reductions⟩
  | unexpectedCharacter {c : Char} (ht : l.token = .unknown c) :
      Refuses r l ⟨.unexpectedCharacter c l.position, r.reductions⟩
  | unreduced {refusal : Refusal} (hawait : r.awaiting = false) (a : Category)
      (hunwind : Stacks.unwind a.due r.waiting r.operands r.reductions = .error refusal) :
      Refuses r l refusal
  | unopened {s : Stacks} (hopen : r.openGroups ≠ 0) (hawait : r.awaiting = false)
      (hunwind : Stacks.unwind Category.orExpr.due r.waiting r.operands r.reductions = .ok s)
      (hnone : ∀ start waiting, s.waiting ≠ .group start :: waiting) :
      Refuses r l ⟨.unmatchedClosing l.position, s.reductions⟩

theorem refuses_of_takeClosing (ht : l.token = .closing)
    (hr : r.takeClosing l.position = .error refusal) : r.Refuses l refusal := by
  simp only [takeClosing, passOver, refuse] at hr
  split at hr
  · next hopen =>
      cases hr
      exact .unmatchedClosing ht hopen
  next hopen =>
  split at hr
  · next hawait =>
      have hmissing : r.Refuses l ⟨.missingOperand l.position, r.reductions⟩ :=
        .missingOperand hawait (.inl ht)
      split at hr
      · split at hr
        · cases hr
          exact hmissing
        · contradiction
      · cases hr
        exact hmissing
  · next hawait =>
      rw [closeGroup, ← Category.due_orExpr] at hr
      split at hr
      · contradiction
      · next hnone hunwind =>
          cases hr
          apply Refuses.unopened hopen (Bool.eq_false_iff.mpr hawait) hunwind
          intro start waiting heq
          exact hnone start waiting _ _ (by rw [← heq])
      · next hunwind =>
          cases hr
          exact .unreduced (Bool.eq_false_iff.mpr hawait) .orExpr hunwind

theorem refuses_of_takeConnective {c : Connective} (ht : l.token = .connective c)
    (hr : r.takeConnective c l.position = .error refusal) : r.Refuses l refusal := by
  unfold takeConnective at hr
  split at hr
  · next hawait =>
      cases hr
      exact .missingOperand hawait (.inr ⟨c, ht⟩)
  · next hawait =>
      rw [← Connective.due_row] at hr
      split at hr
      · contradiction
      · next hunwind =>
          cases hr
          exact .unreduced (Bool.eq_false_iff.mpr hawait) c.row hunwind

theorem refuses_of_take (hr : r.take l = .error refusal) : r.Refuses l refusal := by
  unfold take at hr
  split at hr
  · next value ht =>
      unfold takeNumber at hr
      split at hr
      · split at hr
        · contradiction
        · next hvalue =>
            cases hr
            exact .outOfRange ht hvalue
      · next hawait =>
          cases hr
          exact .missingOperator (Bool.eq_false_iff.mpr hawait) (.inr ⟨value, ht⟩)
  · next ht =>
      unfold takeOpening at hr
      split at hr
      · contradiction
      · next hawait =>
          cases hr
          exact .missingOperator (Bool.eq_false_iff.mpr hawait) (.inl ht)
  · next ht => exact refuses_of_takeClosing ht hr
  · next c ht => exact refuses_of_takeConnective ht hr
  · next c ht =>
      cases hr
      exact .unexpectedCharacter ht

/-- A lexeme that is refused is named with its own position, unless an empty group starved a
connective before it. -/
theorem HasRead.place_of_take (h : r.HasRead found slots) (hr : r.take l = .error refusal)
    (hplace : refusal.error.place? = some place) :
    place = l.position ∨ Starved place found := by
  cases refuses_of_take hr with
  | outOfRange => contradiction
  | missingOperator | missingOperand | unmatchedClosing | unexpectedCharacter | unopened =>
      exact .inl (Option.some.inj hplace).symm
  | unreduced hawait a hunwind =>
      obtain ⟨position, herror, hstarved⟩ := h.exists_starved_of_unwind hawait hunwind
      rw [herror] at hplace
      cases hplace
      exact .inr hstarved

/-- What can be wrong at the end of a text after the lexemes `found`. -/
inductive FaultyEnd (found : List Lexeme) (length : Nat) : ParseError → Prop where
  | noOperands : FaultyEnd found length .noOperands
  | unclosedGroup (start : Nat) : FaultyEnd found length (.unclosedGroup start)
  | missingOperand : FaultyEnd found length (.missingOperand length)
  | missingOperator : FaultyEnd found length (.missingOperator length)
  | starved {place : Nat} (h : Starved place found) : FaultyEnd found length (.missingOperand place)

theorem HasRead.faultyEnd {error : ParseError} {made : List Reduction} (h : r.HasRead found slots)
    (hr : r.finish length = .error ⟨error, made⟩) : FaultyEnd found length error := by
  simp only [Reading.finish, refuse] at hr
  split at hr
  · cases hr
    exact .noOperands
  split at hr
  · cases hr
    exact .missingOperand
  next hawait =>
  rw [← Category.due_orExpr] at hr
  split at hr
  · cases hr
    exact .unclosedGroup _
  · cases hr
    exact .noOperands
  · contradiction
  · cases hr
    exact .missingOperator
  · next hunwind =>
      cases hr
      obtain ⟨place, rfl, hstarved⟩ :=
        h.exists_starved_of_unwind (Bool.eq_false_iff.mpr hawait) hunwind
      exact .starved hstarved

/-- At the end of the text no place within it is named, unless an empty group starved a
connective. -/
theorem HasRead.place_of_finish {error : ParseError} {made : List Reduction}
    (h : r.HasRead found slots) (hr : r.finish length = .error ⟨error, made⟩)
    (hplace : error.place? = some place) : place = length ∨ Starved place found := by
  cases h.faultyEnd hr with
  | noOperands | unclosedGroup => contradiction
  | missingOperand | missingOperator => exact .inl (Option.some.inj hplace).symm
  | starved hstarved =>
      cases hplace
      exact .inr hstarved

/-- A lexeme that is refused for where it stands is refused whatever its value. -/
theorem take_eq_error_of_alike {l' : Lexeme} (halike : l.Alike l')
    (hr : r.take l = .error refusal) (hplace : refusal.error.place? = some place) :
    r.take l' = .error refusal := by
  rcases halike with rfl | ⟨value, value', position, rfl, rfl⟩
  · exact hr
  · simp only [Reading.take, Reading.takeNumber] at hr ⊢
    split at hr
    · split at hr
      · contradiction
      · cases hr
        contradiction
    · next hawait =>
        rw [if_neg hawait]
        exact hr

/-- Reading ends at the first lexeme that is refused. -/
theorem exists_of_takeAll_eq_error (hr : r.takeAll found = .error refusal) :
    ∃ before l after r', found = before ++ l :: after ∧ r.takeAll before = .ok r' ∧
      r'.take l = .error refusal := by
  induction found generalizing r with
  | nil => contradiction
  | cons l rest ih =>
      unfold takeAll at hr
      split at hr
      · next next hnext =>
          obtain ⟨before, l', after, r', rfl, hbefore, hl'⟩ := ih hr
          refine ⟨l :: before, l', after, r', rfl, ?_, hl'⟩
          rw [takeAll, hnext]
          exact hbefore
      · next hl =>
          cases hr
          exact ⟨[], l, rest, r, rfl, rfl, hl⟩

theorem takeAll_eq_error (hbefore : r.takeAll before = .ok r') (hl : r'.take l = .error refusal)
    (after : List Lexeme) : r.takeAll (before ++ l :: after) = .error refusal := by
  rw [takeAll_append hbefore, takeAll, hl]

end Reading

namespace Formula

variable {error : ParseError} {place : Nat}

theorem parse_eq_error_iff_readLexemes {text : String} :
    parse text = .error error ↔
      ∃ made, readLexemes (lexemes text.toList) text.length = .error ⟨error, made⟩ := by
  unfold parse transcribe
  cases readLexemes (lexemes text.toList) text.length with
  | ok read =>
      obtain ⟨e, made⟩ := read
      simp [Transcript.ofReading]
  | error refusal =>
      obtain ⟨error', made⟩ := refusal
      simp [Transcript.ofReading]

theorem readLexemes_of_takeAll {found : List Lexeme} {refusal : Refusal}
    (h : Reading.takeAll {} found = .error refusal) (length : Nat) :
    readLexemes found length = .error refusal := by
  unfold readLexemes
  split
  · contradiction
  · rw [h]

theorem parse_eq_error_of_takeAll {text : String} {made : List Reduction}
    (h : Reading.takeAll {} (lexemes text.toList) = .error ⟨error, made⟩) :
    parse text = .error error :=
  parse_eq_error_iff_readLexemes.mpr ⟨made, readLexemes_of_takeAll h _⟩

/-- Where reading stops with an error: there is nothing to read, a lexeme is refused, or the text
must not end where it does. -/
inductive StopsReading (found : List Lexeme) (length : Nat) (refusal : Refusal) : Prop where
  | nothing (hfound : found = []) (hrefusal : refusal = ⟨.empty, []⟩)
  | lexeme {before l after r} (hfound : found = before ++ l :: after)
      (hread : Reading.takeAll {} before = .ok r) (hrefused : r.take l = .error refusal)
  | ending {r} (hne : found ≠ []) (hread : Reading.takeAll {} found = .ok r)
      (hrefused : r.finish length = .error refusal)

theorem stopsReading_of_readLexemes {found : List Lexeme} {length : Nat} {refusal : Refusal}
    (h : readLexemes found length = .error refusal) : StopsReading found length refusal := by
  unfold readLexemes at h
  split at h
  · cases h
    exact .nothing rfl rfl
  next hne =>
  split at h
  · next r hread => exact .ending hne hread h
  · next hread =>
      cases h
      obtain ⟨before, l, after, r, hfound, hbefore, hl⟩ :=
        Reading.exists_of_takeAll_eq_error hread
      exact .lexeme hfound hbefore hl

/-- An error names the place of a lexeme that is refused, or of a connective that an empty group
starved. -/
theorem exists_refused_of_parse {text : String} (h : parse text = .error error)
    (hplace : error.place? = some place) (hlt : place < text.length) :
    (∃ before l after r made, lexemes text.toList = before ++ l :: after ∧ l.position = place ∧
      Reading.takeAll {} before = .ok r ∧ r.take l = .error ⟨error, made⟩) ∨
    Starved place (lexemes text.toList) := by
  obtain ⟨made, hread⟩ := parse_eq_error_iff_readLexemes.mp h
  cases stopsReading_of_readLexemes hread with
  | nothing _ hrefusal =>
      cases hrefusal
      contradiction
  | @lexeme before l after r hsplit hbefore hl =>
      obtain ⟨slots, hstands⟩ := Reading.HasRead.start.takeAll hbefore
      rcases hstands.place_of_take hl hplace with rfl | hstarved
      · exact .inl ⟨before, l, after, r, made, hsplit, rfl, hbefore, hl⟩
      · rw [hsplit]
        exact .inr (hstarved.append _)
  | ending _ hall hend =>
      obtain ⟨slots, hstands⟩ := Reading.HasRead.start.takeAll hall
      rcases hstands.place_of_finish hend hplace with rfl | hstarved
      · exact absurd hlt (Nat.lt_irrefl _)
      · exact .inr hstarved

/-- A connective is starved by an empty group among the characters before it. -/
theorem hasEmptyGroup_of_starved {text : List Char} (h : Starved place (lexemes text)) :
    HasEmptyGroup (text.take place) := by
  obtain ⟨c, before, piece, after, hlexemes, hhollow, -⟩ := h
  obtain ⟨front, d, rest, rfl, hlength, hfront, -, -⟩ := exists_cut hlexemes
  rw [List.take_left' hlength, hasEmptyGroup_iff, hfront, List.map_append]
  exact hhollow.hasBareGroup.append_left _

/-- The characters before a lexeme at which reading stops, if no group in them is empty, begin a
text that stands for a formula. -/
theorem exists_parse_of_takeAll {front : List Char} {r : Reading}
    (h : Reading.takeAll {} (lexemes front) = .ok r) (hgroup : ¬ HasEmptyGroup front) :
    ∃ (text : String) (e : Formula), front <+: text.toList ∧ parse text = .ok e := by
  obtain ⟨slots, hstands⟩ := Reading.HasRead.start.takeAll h
  obtain ⟨more, e, hderives⟩ := hstands.exists_derives (mt hasEmptyGroup_iff.mpr hgroup)
  obtain ⟨text, hfront, hparse⟩ := exists_parse_of_derives hderives
  exact ⟨text, e, hfront, hparse⟩

/-- An error that names a place in the text is final, and it is the first that the text has. No
text that agrees up to and including the place stands for a formula; and if no group before the
place is empty, what stands before it begins a text that does, and every text that agrees up to and
including the place has the same error. -/
theorem parse_error_first {text : String} (h : parse text = .error error)
    (hplace : error.place? = some place) (hlt : place < text.length) :
    (∀ other : String, text.toList.take (place + 1) <+: other.toList →
      ∀ e, parse other ≠ .ok e) ∧
    (¬ HasEmptyGroup (text.toList.take place) →
      (∃ (other : String) (e : Formula), text.toList.take place <+: other.toList ∧
        parse other = .ok e) ∧
      ∀ other : String, text.toList.take (place + 1) <+: other.toList →
        parse other = .error error) := by
  rcases exists_refused_of_parse h hplace hlt with
    ⟨before, l, after, r, made, hlexemes, rfl, hread, hrefused⟩ | hstarved
  · obtain ⟨front, c, rest, htext, hlength, rfl, hcut, hc⟩ := exists_cut hlexemes
    have hfront : text.toList.take l.position = front := by
      rw [htext]
      exact List.take_left' hlength
    have hnext : text.toList.take (l.position + 1) = front ++ [c] := by
      rw [htext, List.append_cons]
      exact List.take_left' (by simp [hlength])
    have hsame : ∀ other : String, text.toList.take (l.position + 1) <+: other.toList →
        parse other = .error error := by
      intro other hother
      obtain ⟨rest', hother⟩ := hother
      rw [hnext, List.append_assoc, List.singleton_append] at hother
      rw [htext] at hlexemes
      obtain ⟨l', after', hlexemes', halike⟩ := exists_alike hcut hc rfl hlexemes rest'
      apply parse_eq_error_of_takeAll
      rw [← hother, hlexemes']
      exact Reading.takeAll_eq_error hread
        (Reading.take_eq_error_of_alike halike hrefused hplace) after'
    refine ⟨?_, fun hgroup => ⟨?_, hsame⟩⟩
    · intro other hother e
      rw [hsame other hother]
      simp
    · rw [hfront] at hgroup ⊢
      exact exists_parse_of_takeAll hread hgroup
  · have hgroup := hasEmptyGroup_of_starved hstarved
    refine ⟨?_, fun hnone => absurd hgroup hnone⟩
    intro other hother
    apply parse_ne_ok_of_hasEmptyGroup
    exact hgroup.mono ((List.take_prefix_take_left (Nat.le_succ place)).trans hother)

/-- In `1 & () | 2` the empty group stands where an operand is awaited. Nothing that begins with
`1 & ()` stands for a formula, but something that begins with `1 & (` does. -/
theorem parse_error_at_empty_group :
    parse "1 & () | 2" = .error (.missingOperand 5) ∧ ¬ HasEmptyGroup "1 & (".toList ∧
      (∃ (other : String) (e : Formula), "1 & (".toList <+: other.toList ∧
        parse other = .ok e) ∧
      (∀ e, parse "1 & ()" ≠ .ok e) ∧ parse "1 & ()" = .error (.missingOperand 5) := by
  have h : parse "1 & () | 2" = .error (.missingOperand 5) := rfl
  have hgroup : ¬ HasEmptyGroup "1 & (".toList := by
    rw [hasEmptyGroup_iff, HasBareGroup]
    decide
  have hplace : (ParseError.missingOperand 5).place? = some 5 := rfl
  obtain ⟨hfinal, hfirst⟩ := parse_error_first h hplace (by decide)
  obtain ⟨hbefore, hsame⟩ := hfirst hgroup
  exact ⟨h, hgroup, hbefore, hfinal "1 & ()" (by decide), hsame "1 & ()" (by decide)⟩

end Formula

end Verdict
