import Verdict.Proofs.ErrorReports

/-!
# The order of the reductions

A text that stands for a formula has one reduction for each of its connectives, at the connective's
own position, and the reductions come in the order in which the formula is built: every connective
after those of its operands. `Placed` joins this order to that of the text.

Until an error stops it, reading knows nothing of what is still to come. So the reductions made
before the error are the first ones of every text that begins in the same way and stands for a
formula. The last lexeme before the error may be longer in such a text, but it can only be a number,
and numbers reduce nothing.
-/

namespace Verdict

/-! ### Reductions are only added -/

theorem Stacks.reductions_unwind {due : Connective → Bool} {waiting : List Waiting}
    {operands : List Formula} {reductions : List Reduction} {s : Stacks}
    (h : unwind due waiting operands reductions = .ok s) : reductions <:+ s.reductions := by
  fun_induction unwind due waiting operands reductions with
  | case1 c position waiting reductions hdue right left rest ih =>
      exact (List.suffix_cons _ _).trans (ih h)
  | case2 => contradiction
  | case3 =>
      cases h
      exact List.suffix_refl _
  | case4 =>
      cases h
      exact List.suffix_refl _

namespace Reading

variable {r r' : Reading} {found : List Lexeme} {l : Lexeme} {position length : Nat}
  {slots : List (Option Formula)} {made : List Reduction} {e : Formula}

theorem reductions_takeNumber {value : Nat} (h : r.takeNumber value position = .ok r') :
    r'.reductions = r.reductions := by
  unfold takeNumber at h
  split at h
  · split at h
    · cases h
      rfl
    · contradiction
  · contradiction

theorem reductions_takeClosing (h : r.takeClosing position = .ok r') :
    r.reductions <:+ r'.reductions := by
  unfold takeClosing at h
  split at h
  · contradiction
  split at h
  · unfold passOver at h
    split at h
    · split at h
      · contradiction
      · cases h
        exact List.suffix_refl _
    · contradiction
  · unfold closeGroup at h
    split at h
    · next hunwind =>
        have hadded := Stacks.reductions_unwind hunwind
        cases h
        exact hadded
    · contradiction
    · contradiction

theorem reductions_takeConnective {c : Connective} (h : r.takeConnective c position = .ok r') :
    r.reductions <:+ r'.reductions := by
  unfold takeConnective at h
  split at h
  · contradiction
  · split at h
    · next hunwind =>
        have hadded := Stacks.reductions_unwind hunwind
        cases h
        exact hadded
    · contradiction

theorem reductions_take (h : r.take l = .ok r') : r.reductions <:+ r'.reductions := by
  obtain ⟨t, position⟩ := l
  cases t with
  | number value => exact (reductions_takeNumber h).symm ▸ List.suffix_refl _
  | opening =>
      simp only [take, takeOpening] at h
      split at h
      · cases h
        exact List.suffix_refl _
      · contradiction
  | closing => exact reductions_takeClosing h
  | connective c => exact reductions_takeConnective h
  | unknown c => contradiction

theorem reductions_takeAll (h : r.takeAll found = .ok r') : r.reductions <:+ r'.reductions := by
  induction found generalizing r with
  | nil =>
      cases h
      exact List.suffix_refl _
  | cons l rest ih =>
      unfold takeAll at h
      split at h
      · next next hnext => exact (reductions_take hnext).trans (ih h)
      · contradiction

theorem reductions_finish (h : r.finish length = .ok (e, made)) : r.reductions <:+ made := by
  unfold finish at h
  split at h
  · contradiction
  split at h
  · contradiction
  split at h
  · contradiction
  · contradiction
  · next hunwind =>
      cases h
      exact Stacks.reductions_unwind hunwind
  · contradiction
  · contradiction

/-- Nothing is reduced before a lexeme is refused, unless an empty group starved a connective. -/
theorem HasRead.reductions_eq_or_starved {front : List Char} {refusal : Refusal}
    (hread : r.HasRead (lexemes front) slots) (h : r.Stands front)
    (hr : r.take l = .error refusal) :
    refusal.reductions = r.reductions ∨ ∃ place, Starved place (lexemes front) := by
  cases refuses_of_take hr with
  | outOfRange | missingOperator | missingOperand | unmatchedClosing | unexpectedCharacter =>
      exact .inl rfl
  | unreduced hawait a hunwind =>
      obtain ⟨place, -, hstarved⟩ := hread.exists_starved_of_unwind hawait hunwind
      exact .inr ⟨place, hstarved⟩
  | unopened hopen hawait hunwind hnone =>
      obtain ⟨start, waiting, hgroup⟩ := hread.exists_group_of_unwind h hopen hawait hunwind
      exact absurd hgroup (hnone start waiting)

end Reading

theorem Starved.hasBareGroup {place : Nat} {found : List Lexeme} (h : Starved place found) :
    HasBareGroup (found.map Lexeme.token) := by
  obtain ⟨c, before, piece, after, rfl, hhollow, -⟩ := h
  rw [List.map_append, List.map_append]
  exact (hhollow.hasBareGroup.append_left _).append_right _

namespace Formula

variable {text other : String} {front rest : List Char} {found more before after : List Lexeme}
  {l : Lexeme} {length place : Nat} {r : Reading} {e : Formula} {error : ParseError}
  {made : List Reduction}

theorem reductions_transcribe_of_ok
    (h : readLexemes (lexemes text.toList) text.length = .ok (e, made)) :
    (transcribe text).reductions = made.reverse := by
  rw [transcribe, h]
  rfl

theorem reductions_transcribe_of_error
    (h : readLexemes (lexemes text.toList) text.length = .error ⟨error, made⟩) :
    (transcribe text).reductions = made.reverse := by
  rw [transcribe, h]
  rfl

/-- What is reduced while the first lexemes are read is reduced first of all. -/
theorem reductions_readLexemes (hread : Reading.takeAll {} found = .ok r)
    (h : readLexemes (found ++ more) length = .ok (e, made)) : r.reductions <:+ made := by
  unfold readLexemes at h
  split at h
  · contradiction
  split at h
  · next hall =>
      rw [Reading.takeAll_append hread] at hall
      exact (Reading.reductions_takeAll hall).trans (Reading.reductions_finish h)
  · contradiction

/-- What is reduced while the beginning of a text is read is reduced first of all. -/
theorem reductions_beginning (hread : Reading.takeAll {} (lexemes front) = .ok r)
    (h : readLexemes (lexemes (front ++ rest)) length = .ok (e, made)) : r.reductions <:+ made := by
  rcases List.eq_nil_or_concat (lexemes front) with hnil | ⟨before, l, hlast⟩
  · rw [hnil] at hread
    cases hread
    exact List.nil_suffix
  · rw [List.concat_eq_append] at hlast
    obtain ⟨l', after, hlexemes, halike⟩ := exists_lexemes_append hlast rest
    rw [hlexemes] at h
    rw [hlast] at hread
    rcases halike with rfl | ⟨value, value', position, rfl, rfl⟩
    · rw [List.append_cons] at h
      exact reductions_readLexemes hread h
    · -- The number may go on in the longer text; what was read before it is the same.
      obtain ⟨r₀, hbefore, hnumber⟩ := Reading.exists_of_takeAll_append hread
      have hsame : r.reductions = r₀.reductions := by
        unfold Reading.takeAll at hnumber
        split at hnumber
        · next hl =>
            cases hnumber
            exact Reading.reductions_takeNumber hl
        · contradiction
      rw [hsame]
      exact reductions_readLexemes hbefore h

/-- The reductions made before a lexeme is refused are the first ones of every text that agrees up
to the lexeme and stands for a formula. -/
theorem reductions_of_refused (hlexemes : lexemes text.toList = before ++ l :: after)
    (hread : Reading.takeAll {} before = .ok r) (hrefused : r.take l = .error ⟨error, made⟩)
    (hagree : text.toList.take l.position <+: other.toList) (hother : parse other = .ok e) :
    (transcribe text).reductions <+: (transcribe other).reductions := by
  obtain ⟨front, word, rest, hat⟩ := exists_word hlexemes
  obtain rfl := hat.lexemes_front
  rw [hat.take_position] at hagree
  have hmade : made = r.reductions := by
    obtain ⟨slots, hstacks⟩ := Reading.HasRead.start.takeAll hread
    have hstands := (Reading.Follows.start.takeAll hread).stands
    rcases hstacks.reductions_eq_or_starved hstands hrefused with hmade | ⟨place, hstarved⟩
    · exact hmade
    · have hgroup : HasEmptyGroup front := hasEmptyGroup_iff.mpr hstarved.hasBareGroup
      exact absurd hother (parse_ne_ok_of_hasEmptyGroup (hgroup.mono hagree) e)
  have htext : readLexemes (lexemes text.toList) text.length = .error ⟨error, made⟩ := by
    apply readLexemes_of_takeAll
    rw [hlexemes]
    exact Reading.takeAll_eq_error hread hrefused after
  obtain ⟨made', hmade'⟩ := parse_eq_ok_iff_readLexemes.mp hother
  rw [reductions_transcribe_of_error htext, reductions_transcribe_of_ok hmade', hmade,
    List.reverse_prefix]
  obtain ⟨past, hpast⟩ := hagree
  rw [← hpast] at hmade'
  exact reductions_beginning hread hmade'

/-! ### The place where reading stops -/

/-- An error stops reading at this place of a text, before its end: the error names the place, or
the first number that is out of range begins there. -/
inductive StopsAt (text : List Char) : ParseError → Nat → Prop where
  | named {error : ParseError} {place : Nat} (hplace : error.place? = some place)
      (hlt : place < text.length) : StopsAt text error place
  | outOfRange {refusal : OutOfRange} {front digits : List Char} (hrun : IsRun text front digits)
      (hlarge : FactSet.width ≤ numeral digits)
      (hfirst : ∀ front' digits', IsRun text front' digits' → front'.length < front.length →
        numeral digits' < FactSet.width) :
      StopsAt text (.outOfRange refusal) front.length

/-- A number that is out of range stops reading where it begins. -/
theorem exists_stopsAt {refusal : OutOfRange} (h : parse text = .error (.outOfRange refusal)) :
    ∃ place, StopsAt text.toList (.outOfRange refusal) place := by
  obtain ⟨made, hread⟩ := parse_eq_error_iff_readLexemes.mp h
  obtain ⟨front, digits, hrun, hlarge, -, hfirst⟩ := describes_of_readLexemes hread
  exact ⟨_, .outOfRange hrun hlarge hfirst⟩

/-- A number that is refused as out of range is the first one that is. -/
theorem exists_refused_of_outOfRange {refusal : OutOfRange} {digits : List Char}
    (h : parse text = .error (.outOfRange refusal)) (hrun : IsRun text.toList front digits)
    (hlarge : FactSet.width ≤ numeral digits)
    (hfirst : ∀ front' digits', IsRun text.toList front' digits' → front'.length < front.length →
      numeral digits' < FactSet.width) :
    ∃ before l after r made, lexemes text.toList = before ++ l :: after ∧
      l.position = front.length ∧ Reading.takeAll {} before = .ok r ∧
      r.take l = .error ⟨.outOfRange refusal, made⟩ := by
  obtain ⟨made, hread⟩ := parse_eq_error_iff_readLexemes.mp h
  cases stopsReading_of_readLexemes hread with
  | nothing _ hrefusal => cases hrefusal
  | ending _ hall hend =>
      obtain ⟨slots, hstacks⟩ := Reading.HasRead.start.takeAll hall
      cases hstacks.faultyEnd hend
  | @lexeme before l after r hlexemes hbefore hl =>
      refine ⟨before, l, after, r, made, hlexemes, ?_, hbefore, hl⟩
      obtain ⟨upto, word, rest, hat⟩ := exists_word hlexemes
      obtain rfl := hat.lexemes_front
      obtain ⟨slots, hstacks⟩ := Reading.HasRead.start.takeAll hbefore
      have hstands := (Reading.Follows.start.takeAll hbefore).stands
      cases Reading.refuses_of_take hl with
      | unreduced hawait a hunwind =>
          obtain ⟨place, herror, -⟩ := hstacks.exists_starved_of_unwind hawait hunwind
          contradiction
      | @outOfRange value _ ht hvalue =>
          obtain ⟨hword, rfl⟩ := hat.isRun ht
          have hwide := Nat.le_trans (Fact.ofId_eq_error_iff.mp hvalue).1 (Nat.min_le_right _ _)
          rw [← hat.length_front]
          rcases Nat.lt_trichotomy upto.length front.length with hlt | heq | hgt
          · exact absurd (hfirst _ _ hword hlt) (Nat.not_lt_of_le hwide)
          · exact heq
          · exact absurd (hstands.inRange_of_lt hat ht hrun hgt) (Nat.not_lt_of_le hlarge)

/-- The reductions of a text that stands for a formula are its connectives, each after those of its
operands. -/
theorem exists_placed (h : parse text = .ok e) (hfound : Lexed 0 text.toList found) :
    ∃ p : Placed, p.formula = e ∧ p.inorder = connectives found ∧
      (transcribe text).reductions = p.postorder := by
  obtain ⟨found', hlexed, hderives⟩ := denotes_of_parse h
  obtain rfl := (existsUnique_lexed 0 text.toList).unique hfound hlexed
  obtain ⟨p, hformula, hinorder, hread⟩ := exists_placed_readLexemes hderives text.length
  refine ⟨p, hformula, hinorder, ?_⟩
  rw [← hderives.map_capped, ← lexemes_eq hlexed] at hread
  rw [reductions_transcribe_of_ok hread, List.reverse_reverse]

/-- The reductions of a text. If it stands for a formula, there is one for each of its connectives:
placed in the formula in the order of the text, the connectives are reduced each after those of its
operands, and there is just one way to place them. If an error stops reading at some place, as a
number out of range always does, the reductions are the first ones of every text that agrees up to
the place and stands for a formula. -/
theorem transcribe_reductions (text : String) :
    (∀ e found, parse text = .ok e → Lexed 0 text.toList found →
      (transcribe text).reductions.Perm (connectives found) ∧
      ∃ p : Placed, p.formula = e ∧ p.inorder = connectives found ∧
        (transcribe text).reductions = p.postorder ∧
        ∀ q : Placed, q.formula = e → q.inorder = connectives found → q = p) ∧
    (∀ refusal, parse text = .error (.outOfRange refusal) →
      ∃ place, StopsAt text.toList (.outOfRange refusal) place) ∧
    ∀ error place, parse text = .error error → StopsAt text.toList error place →
      ∀ other e, parse other = .ok e → text.toList.take place <+: other.toList →
        (transcribe text).reductions <+: (transcribe other).reductions := by
  refine ⟨?_, fun refusal => exists_stopsAt, ?_⟩
  · intro e found h hfound
    obtain ⟨p, hformula, hinorder, hpostorder⟩ := exists_placed h hfound
    refine ⟨?_, p, hformula, hinorder, hpostorder, ?_⟩
    · rw [hpostorder, ← hinorder]
      exact p.postorder_perm_inorder
    · intro q hqformula hqinorder
      exact Placed.eq_of_inorder (hqformula.trans hformula.symm) (hqinorder.trans hinorder.symm)
  · intro error place h hstops other e hother hagree
    cases hstops with
    | named hplace hlt =>
        rcases exists_refused_of_parse h hplace hlt with
          ⟨before, l, after, r, made, hlexemes, rfl, hread, hrefused⟩ | hstarved
        · exact reductions_of_refused hlexemes hread hrefused hagree hother
        · have hgroup := (hasEmptyGroup_of_starved hstarved).mono hagree
          exact absurd hother (parse_ne_ok_of_hasEmptyGroup hgroup e)
    | outOfRange hrun hlarge hfirst =>
        obtain ⟨before, l, after, r, made, hlexemes, hposition, hread, hrefused⟩ :=
          exists_refused_of_outOfRange h hrun hlarge hfirst
        rw [← hposition] at hagree
        exact reductions_of_refused hlexemes hread hrefused hagree hother

/-- In `1 | 2 & 3 | 4` the connective at position 6 is reduced before the one at position 2. Both
are already reduced when the parenthesis in `1 | 2 & 3 | )` stops reading. -/
theorem transcribe_reductions_closing :
    let found : List Lexeme := [⟨.number 1, 0⟩, ⟨.connective .or, 2⟩, ⟨.number 2, 4⟩,
      ⟨.connective .and, 6⟩, ⟨.number 3, 8⟩, ⟨.connective .or, 10⟩, ⟨.number 4, 12⟩]
    let made : List Reduction := [⟨.and, 6⟩, ⟨.or, 2⟩, ⟨.or, 10⟩]
    (∃ e, parse "1 | 2 & 3 | 4" = .ok e ∧
      ∃ p : Placed, p.formula = e ∧ p.inorder = connectives found ∧ p.postorder = made) ∧
      parse "1 | 2 & 3 | )" = .error (.unmatchedClosing 12) ∧
      StopsAt "1 | 2 & 3 | )".toList (.unmatchedClosing 12) 12 ∧
      (transcribe "1 | 2 & 3 | )").reductions = made.take 2 ∧
      (transcribe "1 | 2 & 3 | )").reductions <+: made := by
  intro found made
  have hfound : Lexed 0 "1 | 2 & 3 | 4".toList found := by
    apply @Lexed.number 0 ['1'] [' ', '|', ' ', '2', ' ', '&', ' ', '3', ' ', '|', ' ', '4'] _
      (by simp) (by simp) (by simp)
    apply Lexed.blank isBlank_space
    apply Lexed.bar (by simp)
    apply Lexed.blank isBlank_space
    apply @Lexed.number 4 ['2'] [' ', '&', ' ', '3', ' ', '|', ' ', '4'] _ (by simp) (by simp)
      (by simp)
    apply Lexed.blank isBlank_space
    apply Lexed.single .and
    apply Lexed.blank isBlank_space
    apply @Lexed.number 8 ['3'] [' ', '|', ' ', '4'] _ (by simp) (by simp) (by simp)
    apply Lexed.blank isBlank_space
    apply Lexed.bar (by simp)
    apply Lexed.blank isBlank_space
    exact @Lexed.number 12 ['4'] [] _ (by simp) (by simp) (by simp) .done
  have hmade : (transcribe "1 | 2 & 3 | 4").reductions = made := rfl
  have hstopped : parse "1 | 2 & 3 | )" = .error (.unmatchedClosing 12) := rfl
  have hstops : StopsAt "1 | 2 & 3 | )".toList (.unmatchedClosing 12) 12 := .named rfl (by decide)
  obtain ⟨e, he⟩ : ∃ e, parse "1 | 2 & 3 | 4" = .ok e := ⟨_, rfl⟩
  obtain ⟨-, p, hformula, hinorder, hpostorder, -⟩ :=
    (transcribe_reductions "1 | 2 & 3 | 4").1 e found he hfound
  have hprefix := (transcribe_reductions "1 | 2 & 3 | )").2.2 _ 12 hstopped hstops
    "1 | 2 & 3 | 4" e he (by decide)
  rw [hmade] at hpostorder hprefix
  exact ⟨⟨e, he, p, hformula, hinorder, hpostorder.symm⟩, hstopped, hstops, rfl, hprefix⟩

end Formula

end Verdict
