import Verdict.Proofs.EmptyGroups

/-!
# The characters of a text and its tokens

A text is made of blanks and words, one word for each token. `Token.Shows` says which characters a
word of a token may have, and `spelled_lexemes` lays the tokens of a text along its characters that
are not blank. What the characters say is then read off the tokens and the other way around: a digit
belongs to a number, a parenthesis is a token, and the last character that is not blank belongs to
the last token.

`exists_word` finds the word of a lexeme at the lexeme's position, and `IsRun.exists_lexemes` finds
the lexeme of a longest run of digits.
-/

namespace Verdict

/-- A character that may stand in a formula's text. -/
def Legible (c : Char) : Prop :=
  Text.isBlank c = true ∨ c.isDigit = true ∨ c ∈ ['(', ')', '&', '|']

/-- The characters of a text that are not blank. -/
def visible (text : List Char) : List Char := text.filter fun c => !Text.isBlank c

/-- The last character of a text that is not blank. -/
def lastVisible (text : List Char) : Option Char := (visible text).getLast?

theorem mem_visible {text : List Char} {c : Char} :
    c ∈ visible text ↔ c ∈ text ∧ Text.isBlank c = false := by
  simp [visible]

theorem visible_append (left right : List Char) :
    visible (left ++ right) = visible left ++ visible right := List.filter_append ..

theorem visible_cons_of_isBlank {c : Char} (hc : Text.isBlank c = true) (text : List Char) :
    visible (c :: text) = visible text := by
  simp [visible, hc]

theorem isBlank_eq_false_of_isDigit {c : Char} (hc : c.isDigit = true) :
    Text.isBlank c = false := by
  cases hblank : Text.isBlank c with
  | false => rfl
  | true =>
      rw [isDigit_eq_false_of_isBlank hblank] at hc
      contradiction

/-- Whether a character is a parenthesis. -/
def isParen (c : Char) : Bool := c = '(' || c = ')'

theorem isParen_eq_false_of_isDigit {c : Char} (hc : c.isDigit = true) : isParen c = false := by
  have hopening : c ≠ '(' := by
    rintro rfl
    exact absurd hc (by decide)
  have hclosing : c ≠ ')' := by
    rintro rfl
    exact absurd hc (by decide)
  simp [isParen, hopening, hclosing]

theorem isBlank_eq_false_of_isParen {c : Char} (hc : isParen c = true) :
    Text.isBlank c = false := by
  obtain rfl | rfl : c = '(' ∨ c = ')' := by simpa [isParen] using hc
  · decide
  · decide

theorem filter_isParen_visible (text : List Char) :
    (visible text).filter isParen = text.filter isParen := by
  rw [visible, List.filter_filter]
  apply List.filter_congr
  intro c _
  cases hc : isParen c with
  | false => rfl
  | true => simp [isBlank_eq_false_of_isParen hc]

namespace Token

/-- A character that a word of the token may have. -/
def Shows : Token → Char → Prop
  | number _, c => c.isDigit = true
  | opening, c => c = '('
  | closing, c => c = ')'
  | connective .and, c => c = '&'
  | connective .or, c => c = '|'
  | unknown d, c => c = d ∧ ¬ Legible c

/-- The parentheses in a word of the token. -/
def parens : Token → List Char
  | opening => ['(']
  | closing => [')']
  | number _ | connective _ | unknown _ => []

/-- The words that are read as a token. -/
inductive Spells : Token → List Char → Prop where
  | number {digits} (hne : digits ≠ []) (hdigits : ∀ c ∈ digits, c.isDigit = true) :
      Spells (.number (min ceiling (numeral digits))) digits
  | bar : Spells (.connective .or) ['|']
  | bars : Spells (.connective .or) ['|', '|']
  | single {c t} (hc : Single c t) : Spells t [c]

variable {t : Token} {word : List Char} {c : Char}

theorem Single.shows (hc : Single c t) : t.Shows c := by
  cases hc with
  | unknown hdigit hblank hother =>
      refine ⟨rfl, ?_⟩
      rintro (hblank' | hdigit' | hmem)
      · exact absurd hblank' (by simp [hblank])
      · exact absurd hdigit' (by simp [hdigit])
      · exact hother hmem
  | _ => rfl

/-- Whether a character is a parenthesis can be told from a token that shows it. -/
theorem Shows.filter_isParen (h : t.Shows c) : [c].filter isParen = t.parens := by
  cases t with
  | number value => simp [isParen_eq_false_of_isDigit h, parens]
  | opening => obtain rfl := h; rfl
  | closing => obtain rfl := h; rfl
  | connective d => cases d <;> (obtain rfl := h; rfl)
  | unknown d =>
      have hopening : c ≠ '(' := by rintro rfl; exact h.2 (.inr (.inr (by decide)))
      have hclosing : c ≠ ')' := by rintro rfl; exact h.2 (.inr (.inr (by decide)))
      simp [isParen, parens, hopening, hclosing]

theorem Shows.isBlank_eq_false (h : t.Shows c) : Text.isBlank c = false := by
  cases t with
  | number value => exact isBlank_eq_false_of_isDigit h
  | opening => obtain rfl := h; decide
  | closing => obtain rfl := h; decide
  | connective d => cases d <;> (obtain rfl := h; decide)
  | unknown d =>
      rw [← Bool.not_eq_true]
      intro hblank
      exact h.2 (.inl hblank)

/-- A token that shows a digit is a number. -/
theorem Shows.exists_number (h : t.Shows c) (hc : c.isDigit = true) : ∃ value, t = number value := by
  cases t with
  | number value => exact ⟨value, rfl⟩
  | opening => obtain rfl := h; exact absurd hc (by decide)
  | closing => obtain rfl := h; exact absurd hc (by decide)
  | connective d => cases d <;> (obtain rfl := h; exact absurd hc (by decide))
  | unknown d => exact absurd (.inr (.inl hc)) h.2

/-- A token that shows an illegible character is unknown. -/
theorem Shows.legible (h : t.Shows c) (ht : ∀ d, t ≠ unknown d) : Legible c := by
  cases t with
  | number value => exact .inr (.inl h)
  | opening => obtain rfl := h; exact .inr (.inr (by decide))
  | closing => obtain rfl := h; exact .inr (.inr (by decide))
  | connective d => cases d <;> (obtain rfl := h; exact .inr (.inr (by decide)))
  | unknown d => exact absurd rfl (ht d)

theorem Shows.mem_of_connective {d : Connective} (h : (connective d).Shows c) : c ∈ ['&', '|'] := by
  cases d with
  | and => obtain rfl := h; decide
  | or => obtain rfl := h; decide

namespace Spells

theorem ne_nil (h : t.Spells word) : word ≠ [] := by
  cases h with
  | number hne _ => exact hne
  | _ => exact List.cons_ne_nil _ _

theorem shows (h : t.Spells word) : ∀ c ∈ word, t.Shows c := by
  cases h with
  | number _ hdigits => exact hdigits
  | bar => simp [Shows]
  | bars => simp [Shows]
  | single hc => simpa using hc.shows

/-- The word of a number is a run of digits. -/
theorem digits {value : Nat} (h : t.Spells word) (ht : t = Token.number value) :
    (∀ c ∈ word, c.isDigit = true) ∧ value = min ceiling (numeral word) := by
  cases h with
  | number _ hdigits =>
      cases ht
      exact ⟨hdigits, rfl⟩
  | bar => contradiction
  | bars => contradiction
  | single hc =>
      subst ht
      cases hc

/-- A word has no blank. -/
theorem visible_eq (h : t.Spells word) : visible word = word := by
  apply List.filter_eq_self.mpr
  intro c hc
  simp [(h.shows c hc).isBlank_eq_false]

theorem filter_isParen (h : t.Spells word) : word.filter isParen = t.parens := by
  cases h with
  | number _ hdigits =>
      apply List.filter_eq_nil_iff.mpr
      intro c hc
      have hshows : (Token.number 0).Shows c := hdigits c hc
      have hnone := hshows.filter_isParen
      simpa [parens] using hnone
  | bar => rfl
  | bars => rfl
  | single hc => exact hc.shows.filter_isParen

end Spells

end Token

/-- Words for the given tokens, one after the other. -/
inductive Spelled : List Token → List Char → Prop where
  | nil : Spelled [] []
  | cons {t tokens word text} (head : t.Spells word) (tail : Spelled tokens text) :
      Spelled (t :: tokens) (word ++ text)

/-- The tokens of a cut are spelled by the characters that are not blank. -/
theorem Lexed.spelled {start : Nat} {text : List Char} {found : List Lexeme}
    (h : Lexed start text found) :
    Spelled ((found.map Lexeme.capped).map Lexeme.token) (visible text) := by
  induction h with
  | done => exact .nil
  | blank hc _ ih =>
      rw [visible_cons_of_isBlank hc]
      exact ih
  | number hne hdigits _ _ ih =>
      have hword := Token.Spells.number hne hdigits
      rw [visible_append, hword.visible_eq]
      exact .cons hword ih
  | bar _ _ ih => exact .cons .bar ih
  | bars _ ih => exact .cons .bars ih
  | @single _ c t rest _ hc _ ih =>
      have hword := Token.Spells.single hc
      have htext : visible (c :: rest) = [c] ++ visible rest := by
        rw [← List.singleton_append, visible_append, hword.visible_eq]
      rw [htext, List.map_cons, List.map_cons, Lexeme.capped, hc.capped]
      exact .cons hword ih

theorem spelled_lexemes (text : List Char) :
    Spelled ((lexemes text).map Lexeme.token) (visible text) := by
  obtain ⟨found, hlexed, -⟩ := existsUnique_lexed 0 text
  rw [lexemes_eq hlexed]
  exact hlexed.spelled

namespace Spelled

variable {tokens : List Token} {text : List Char}

theorem exists_token (h : Spelled tokens text) : ∀ c ∈ text, ∃ t ∈ tokens, t.Shows c := by
  induction h with
  | nil => simp
  | cons head _ ih =>
      intro c hc
      rcases List.mem_append.mp hc with hc | hc
      · exact ⟨_, List.mem_cons_self .., head.shows c hc⟩
      · obtain ⟨t, ht, hshows⟩ := ih c hc
        exact ⟨t, List.mem_cons_of_mem _ ht, hshows⟩

theorem exists_char (h : Spelled tokens text) : ∀ t ∈ tokens, ∃ c ∈ text, t.Shows c := by
  induction h with
  | nil => simp
  | @cons _ _ word _ head _ ih =>
      intro t ht
      rcases List.mem_cons.mp ht with rfl | ht
      · obtain ⟨c, hc⟩ := List.exists_mem_of_ne_nil word head.ne_nil
        exact ⟨c, List.mem_append_left _ hc, head.shows c hc⟩
      · obtain ⟨c, hc, hshows⟩ := ih t ht
        exact ⟨c, List.mem_append_right _ hc, hshows⟩

theorem eq_nil_iff (h : Spelled tokens text) : tokens = [] ↔ text = [] := by
  cases h with
  | nil => simp
  | cons head _ => simp [head.ne_nil]

/-- The last character belongs to the last token. -/
theorem getLast? (h : Spelled tokens text) :
    (tokens.getLast? = none ∧ text.getLast? = none) ∨
      ∃ t c, tokens.getLast? = some t ∧ text.getLast? = some c ∧ t.Shows c := by
  induction h with
  | nil => exact .inl ⟨rfl, rfl⟩
  | @cons t tokens word text head tail ih =>
      right
      rcases ih with ⟨hnone, htext⟩ | ⟨u, c, hlast, htext, hshows⟩
      · rw [List.getLast?_eq_none_iff] at hnone htext
        subst hnone htext
        refine ⟨t, word.getLast head.ne_nil, rfl, ?_, head.shows _ (List.getLast_mem _)⟩
        rw [List.append_nil, List.getLast?_eq_some_getLast head.ne_nil]
      · refine ⟨u, c, ?_, ?_, hshows⟩
        · rw [List.getLast?_cons, hlast]
          rfl
        · rw [List.getLast?_append, htext]
          rfl

theorem filter_isParen (h : Spelled tokens text) :
    text.filter isParen = tokens.flatMap Token.parens := by
  induction h with
  | nil => rfl
  | cons head _ ih => rw [List.filter_append, head.filter_isParen, ih, List.flatMap_cons]

end Spelled

namespace Scan

variable {s : Scan} {front rest : List Char} {c d : Char}

theorem next_digit_eq_number (s : Scan) (hd : d.isDigit = true) :
    ∃ start value finished, s.next d = ⟨s.position + 1, .number start value, finished⟩ := by
  unfold next
  split
  · exact ⟨_, _, _, begin_digit hd⟩
  · exact ⟨_, _, _, if_pos hd⟩
  · next start _ =>
      have hbar : d ≠ '|' := by
        rintro rfl
        exact absurd hd (by decide)
      exact ⟨_, _, _, (if_neg hbar).trans (begin_digit hd)⟩

theorem unfinished_begin_ne_number (s : Scan) (hd : d.isDigit = false) (start value : Nat) :
    (s.begin d).unfinished ≠ .number start value := by
  unfold begin
  rw [hd]
  split_ifs <;> simp_all

theorem unfinished_next_ne_number (s : Scan) (hd : d.isDigit = false) (start value : Nat) :
    (s.next d).unfinished ≠ .number start value := by
  unfold next
  split
  · exact s.unfinished_begin_ne_number hd start value
  · rw [hd]
    exact s.unfinished_begin_ne_number hd start value
  · split
    · simp
    · exact s.unfinished_begin_ne_number hd start value

/-- After a digit a digit begins no token of its own. -/
theorem not_before_of_isDigit (hd : d.isDigit = true) (hc : c.isDigit = true) :
    ¬ (ofChars (front ++ [d])).Before [c] := by
  intro hbefore
  have hnext := hbefore c rfl
  rw [ofChars, List.foldl_append, List.foldl_cons, List.foldl_nil] at hnext
  obtain ⟨start, value, finished, hs⟩ := next_digit_eq_number (front.foldl next {}) hd
  rw [hs, begin_digit hc] at hnext
  simp [next, hc, all] at hnext

/-- After anything but a digit a digit begins a token of its own. -/
theorem before_of_isDigit (hfront : ∀ d ∈ front.getLast?, d.isDigit = false)
    (hc : c.isDigit = true) : (ofChars front).Before (c :: rest) := by
  rcases List.eq_nil_or_concat front with rfl | ⟨front, d, rfl⟩
  · exact before_of_nothing rfl _
  have hd : d.isDigit = false := hfront d (by simp)
  rintro _ ⟨⟩
  rw [List.concat_eq_append, ofChars, List.foldl_append, List.foldl_cons, List.foldl_nil]
  have hnumber := (front.foldl next {}).unfinished_next_ne_number hd
  generalize (front.foldl next {}).next d = s at hnumber
  unfold next
  split
  · rfl
  · next start value hs => exact absurd hs (hnumber start value)
  · have hbar : c ≠ '|' := by
      rintro rfl
      exact absurd hc (by decide)
    rw [if_neg hbar]

end Scan

/-- The first lexeme of a cut is spelled by the first characters, if they are not blank. -/
theorem Lexed.exists_word {start : Nat} {c : Char} {text : List Char} {l : Lexeme}
    {more : List Lexeme} (h : Lexed start (c :: text) (l :: more))
    (hc : Text.isBlank c = false) :
    ∃ word rest, c :: text = word ++ rest ∧ l.capped.token.Spells word ∧
      Lexed (start + word.length) rest more ∧
      ∀ value, l.token = .number value → ∀ d ∈ rest.head?, d.isDigit = false := by
  generalize hall : c :: text = all at h
  cases h with
  | blank hblank =>
      cases hall
      rw [hc] at hblank
      contradiction
  | number hne hdigits hrest tail =>
      exact ⟨_, _, rfl, .number hne hdigits, tail, fun _ _ => hrest⟩
  | @bar _ rest _ _ tail => exact ⟨['|'], rest, rfl, .bar, tail, nofun⟩
  | @bars _ rest _ tail => exact ⟨['|', '|'], rest, rfl, .bars, tail, nofun⟩
  | @single _ c t rest _ hsingle tail =>
      refine ⟨[c], rest, rfl, ?_, tail, ?_⟩
      · rw [Lexeme.capped, hsingle.capped]
        exact .single hsingle
      · rintro value rfl
        cases hsingle

/-- A lexeme of a text and its word: what stands before and after the word has the lexemes before
and after, and a number has all the digits that stand side by side. -/
structure WordAt (text front word rest : List Char) (before : List Lexeme) (l : Lexeme)
    (after : List Lexeme) : Prop where
  text_eq : text = front ++ (word ++ rest)
  length_front : front.length = l.position
  lexemes_front : lexemes front = before
  spells : l.token.Spells word
  spelled_rest : Spelled (after.map Lexeme.token) (visible rest)
  longest : ∀ value, l.token = .number value →
    (∀ c ∈ front.getLast?, c.isDigit = false) ∧ ∀ c ∈ rest.head?, c.isDigit = false

/-- Every lexeme of a text has its word. -/
theorem exists_word {text : List Char} {before after : List Lexeme} {l : Lexeme}
    (h : lexemes text = before ++ l :: after) :
    ∃ front word rest, WordAt text front word rest before l after := by
  obtain ⟨front, c, past, rfl, hlength, rfl, hcut, hc⟩ := exists_cut h
  obtain ⟨found, hlexed, -⟩ := existsUnique_lexed front.length (c :: past)
  rw [lexemes_append (hcut.of_head past) hlexed, List.append_cancel_left_eq] at h
  obtain ⟨l, more, rfl, rfl, rfl⟩ := List.map_eq_cons_iff.mp h
  obtain ⟨word, rest, hword, hspells, htail, hrest⟩ := hlexed.exists_word hc
  refine ⟨front, word, rest, ?_⟩
  constructor
  · rw [hword]
  · exact hlength
  · rfl
  · exact hspells
  · exact htail.spelled
  · intro value ht
    obtain ⟨value, hvalue⟩ : ∃ value, l.token = .number value := by
      obtain ⟨t, position⟩ := l
      cases t with
      | number value => exact ⟨value, rfl⟩
      | _ => cases ht
    refine ⟨?_, hrest value hvalue⟩
    obtain ⟨d, word, rfl⟩ := List.exists_cons_of_ne_nil hspells.ne_nil
    obtain ⟨rfl, -⟩ := List.cons.inj hword
    have hdigit : c.isDigit = true := by
      have hshows := hspells.shows c (List.mem_cons_self ..)
      rwa [ht] at hshows
    intro d hd
    obtain ⟨front, rfl⟩ := List.getLast?_eq_some_iff.mp hd
    by_contra hlast
    exact Scan.not_before_of_isDigit (Bool.not_eq_false _ ▸ hlast) hdigit hcut

/-- `digits` are all the digits that stand side by side in a text, after `front`. -/
structure IsRun (text front digits : List Char) : Prop where
  ne_nil : digits ≠ []
  isDigit : ∀ c ∈ digits, c.isDigit = true
  before : ∀ c ∈ front.getLast?, c.isDigit = false
  after : ∃ rest, text = front ++ (digits ++ rest) ∧ ∀ c ∈ rest.head?, c.isDigit = false

namespace IsRun

variable {text front digits : List Char}

/-- A longest run of digits is a lexeme. -/
theorem mem_lexemes (h : IsRun text front digits) :
    ⟨.number (min Token.ceiling (numeral digits)), front.length⟩ ∈ lexemes text := by
  obtain ⟨hne, hdigits, hfront, rest, rfl, hrest⟩ := h
  obtain ⟨c, more, rfl⟩ := List.exists_cons_of_ne_nil hne
  obtain ⟨found, hlexed, -⟩ := existsUnique_lexed (front.length + (c :: more).length) rest
  have hbefore : (Scan.ofChars front).Before ((c :: more) ++ rest) :=
    Scan.before_of_isDigit hfront (hdigits c (List.mem_cons_self ..))
  rw [lexemes_append hbefore (.number hne hdigits hrest hlexed)]
  exact List.mem_append_right _ (List.mem_cons_self ..)

/-- A run that begins before a place where no digit stands before is a run of what stands there. -/
theorem left {rest : List Char} (h : IsRun (text ++ rest) front digits)
    (htext : ∀ c ∈ text.getLast?, c.isDigit = false) (hlt : front.length < text.length) :
    IsRun text front digits := by
  obtain ⟨hne, hdigits, hfront, past, heq, hpast⟩ := h
  refine ⟨hne, hdigits, hfront, ?_⟩
  rcases List.append_eq_append_iff.mp heq with ⟨gap, rfl, -⟩ | ⟨gap, rfl, hgap⟩
  · rw [List.length_append] at hlt
    omega
  rcases List.append_eq_append_iff.mp hgap with ⟨more, rfl, rfl⟩ | ⟨more, rfl, rfl⟩
  · refine ⟨more, rfl, fun c hc => hpast c ?_⟩
    rw [Option.mem_def, List.head?_append, Option.mem_def.mp hc]
    rfl
  · -- The place would stand behind a digit of the run.
    have hgap : gap ≠ [] := by
      rintro rfl
      simp at hlt
    have hlast : gap.getLast hgap ∈ (front ++ gap).getLast? := by
      rw [List.getLast?_append, List.getLast?_eq_some_getLast hgap]
      rfl
    have hdigit := hdigits _ (List.mem_append_left more (List.getLast_mem hgap))
    rw [htext _ hlast] at hdigit
    contradiction

end IsRun

end Verdict
