import Mathlib.Data.List.TakeWhile
import Verdict.Formula.Token
import Verdict.Proofs.Numerals

/-!
# What the tokens of a text are

`Lexed` cuts a text into tokens without saying how the text is scanned: longest runs of digits
with the number that they are written for, one or two bars, the other characters that are tokens by
themselves, and blanks between them. Every text has just one such cut, and `lexemes_eq` says that
the scan finds it, up to the ceiling under which it keeps the value of a number.
-/

namespace Verdict

/-- The characters that are a token by themselves, whatever stands beside them, and their tokens. -/
inductive Token.Single : Char → Token → Prop where
  | opening : Single '(' .opening
  | closing : Single ')' .closing
  | and : Single '&' (.connective .and)
  | unknown {c} (hdigit : c.isDigit = false) (hblank : Text.isBlank c = false)
      (hother : c ∉ ['(', ')', '&', '|']) : Single c (.unknown c)

/-- `Lexed start text found` says that `found` are the lexemes of a text whose first character
stands at position `start`. -/
inductive Lexed : Nat → List Char → List Lexeme → Prop where
  | done {start} : Lexed start [] []
  | blank {start c rest found} (hc : Text.isBlank c = true) (tail : Lexed (start + 1) rest found) :
      Lexed start (c :: rest) found
  | number {start digits rest found} (hne : digits ≠ []) (hdigits : ∀ c ∈ digits, c.isDigit = true)
      (hrest : ∀ c ∈ rest.head?, c.isDigit = false)
      (tail : Lexed (start + digits.length) rest found) :
      Lexed start (digits ++ rest) (⟨.number (numeral digits), start⟩ :: found)
  | bar {start rest found} (hrest : ∀ c ∈ rest.head?, c ≠ '|')
      (tail : Lexed (start + 1) rest found) :
      Lexed start ('|' :: rest) (⟨.connective .or, start⟩ :: found)
  | bars {start rest found} (tail : Lexed (start + 2) rest found) :
      Lexed start ('|' :: '|' :: rest) (⟨.connective .or, start⟩ :: found)
  | single {start c t rest found} (hc : Token.Single c t) (tail : Lexed (start + 1) rest found) :
      Lexed start (c :: rest) (⟨t, start⟩ :: found)

theorem isDigit_eq_false_of_isBlank {c : Char} (h : Text.isBlank c = true) :
    c.isDigit = false := by
  have hapart : ∀ code ∈ Text.blankCodes, code < '0'.toNat ∨ '9'.toNat < code := by decide
  have hcode := hapart c.toNat (Text.isBlank_iff.mp h)
  rw [Bool.eq_false_iff, Ne, Char.isDigit_iff_toNat]
  omega

theorem ne_bar_of_isBlank {c : Char} (h : Text.isBlank c = true) : c ≠ '|' := by
  rintro rfl
  exact absurd h (by decide)

namespace Token

variable {c : Char} {t : Token}

theorem Single.notDigit (h : Single c t) : c.isDigit = false := by
  cases h with
  | unknown hdigit => exact hdigit
  | _ => decide

theorem Single.notBar (h : Single c t) : c ≠ '|' := by
  rintro rfl
  cases h with
  | unknown _ _ hother => exact hother (by decide)

theorem Single.notBlank (h : Single c t) : Text.isBlank c = false := by
  cases h with
  | unknown _ hblank => exact hblank
  | _ => decide

/-- A character that is neither a digit nor a bar nor blank is a token by itself. -/
theorem single_ofChar (hdigit : c.isDigit = false) (hbar : c ≠ '|')
    (hblank : Text.isBlank c = false) : Single c (ofChar c) := by
  unfold ofChar
  split
  · exact .opening
  · exact .closing
  · exact .and
  · next hopening hclosing hand =>
      apply Single.unknown hdigit hblank
      simp only [List.mem_cons, List.not_mem_nil, or_false, not_or]
      exact ⟨hopening, hclosing, hand, hbar⟩

theorem Single.ofChar_eq (h : Single c t) : ofChar c = t := by
  cases h with
  | unknown _ _ hother =>
      unfold ofChar
      split
      · simp at hother
      · simp at hother
      · simp at hother
      · rfl
  | _ => rfl

end Token

theorem span_digits {digits rest : List Char} (hdigits : ∀ c ∈ digits, c.isDigit = true)
    (hrest : ∀ c ∈ rest.head?, c.isDigit = false) :
    (digits ++ rest).takeWhile Char.isDigit = digits ∧
      (digits ++ rest).dropWhile Char.isDigit = rest := by
  rw [List.takeWhile_append_of_pos hdigits, List.dropWhile_append_of_pos hdigits]
  cases rest with
  | nil => simp
  | cons c rest => simp [hrest c rfl]

/-- What a text begins with: the lexemes of its first piece, the position after it and the text
that is left. -/
structure Piece where
  found : List Lexeme
  next : Nat
  rest : List Char

/-- The first piece of a text. -/
def firstPiece (start : Nat) (c : Char) (text : List Char) : Piece :=
  if c.isDigit then
    let digits := c :: text.takeWhile Char.isDigit
    { found := [⟨.number (numeral digits), start⟩]
      next := start + digits.length
      rest := text.dropWhile Char.isDigit }
  else if c = '|' then
    if text.head? = some '|' then ⟨[⟨.connective .or, start⟩], start + 2, text.tail⟩
    else ⟨[⟨.connective .or, start⟩], start + 1, text⟩
  else if Text.isBlank c then ⟨[], start + 1, text⟩
  else ⟨[⟨.ofChar c, start⟩], start + 1, text⟩

theorem length_firstPiece_le (start : Nat) (c : Char) (text : List Char) :
    (firstPiece start c text).rest.length ≤ text.length := by
  unfold firstPiece
  split_ifs
  · exact (List.dropWhile_sublist Char.isDigit).length_le
  · exact (List.tail_sublist text).length_le
  · exact Nat.le_refl _
  · exact Nat.le_refl _
  · exact Nat.le_refl _

/-- Every cut of a text begins with the first piece. -/
theorem Lexed.exists_eq_append {start : Nat} {c : Char} {text : List Char} {found : List Lexeme}
    (h : Lexed start (c :: text) found) :
    ∃ more, found = (firstPiece start c text).found ++ more ∧
      Lexed (firstPiece start c text).next (firstPiece start c text).rest more := by
  generalize hall : c :: text = all at h
  cases h with
  | done => contradiction
  | blank hc tail =>
      cases hall
      refine ⟨found, ?_⟩
      simp [firstPiece, isDigit_eq_false_of_isBlank hc, ne_bar_of_isBlank hc, hc, tail]
  | @number _ digits rest more hne hdigits hrest tail =>
      obtain ⟨d, digits, rfl⟩ := List.exists_cons_of_ne_nil hne
      obtain ⟨rfl, rfl⟩ := List.cons.inj hall
      obtain ⟨htake, hdrop⟩ :=
        span_digits (fun d hd => hdigits d (List.mem_cons_of_mem _ hd)) hrest
      have hc : c.isDigit = true := hdigits c (List.mem_cons_self ..)
      rw [firstPiece, if_pos hc, List.append_eq, htake, hdrop]
      exact ⟨more, rfl, tail⟩
  | @bar _ _ more hrest tail =>
      cases hall
      have hnext : text.head? ≠ some '|' := fun h => hrest _ h rfl
      refine ⟨more, ?_⟩
      simp [firstPiece, hnext, tail]
  | @bars _ _ more tail =>
      cases hall
      refine ⟨more, ?_⟩
      simp [firstPiece, tail]
  | @single _ _ _ _ more hc tail =>
      cases hall
      refine ⟨more, ?_⟩
      simp [firstPiece, hc.notDigit, hc.notBar, hc.notBlank, hc.ofChar_eq, tail]

/-- A cut of what is left gives a cut of the text. -/
theorem Lexed.append_firstPiece {start : Nat} {c : Char} {text : List Char} {more : List Lexeme}
    (h : Lexed (firstPiece start c text).next (firstPiece start c text).rest more) :
    Lexed start (c :: text) ((firstPiece start c text).found ++ more) := by
  unfold firstPiece at h ⊢
  split_ifs at h ⊢ with hdigit hbar hnext hblank
  · have hdigits : ∀ d ∈ c :: text.takeWhile Char.isDigit, d.isDigit = true := by
      intro d hd
      rcases List.mem_cons.mp hd with rfl | hd
      · exact hdigit
      · exact List.mem_takeWhile_imp hd
    have hrest : ∀ d ∈ (text.dropWhile Char.isDigit).head?, d.isDigit = false := by
      intro d hd
      simpa [Option.mem_def.mp hd] using List.head?_dropWhile_not Char.isDigit text
    have hcut := Lexed.number (List.cons_ne_nil _ _) hdigits hrest h
    rw [List.cons_append, List.takeWhile_append_dropWhile] at hcut
    exact hcut
  · obtain ⟨after, rfl⟩ := List.head?_eq_some_iff.mp hnext
    subst hbar
    exact .bars h
  · subst hbar
    refine .bar ?_ h
    rintro d hd rfl
    exact hnext hd
  · exact .blank hblank h
  · rw [Bool.not_eq_true] at hdigit hblank
    exact .single (Token.single_ofChar hdigit hbar hblank) h

theorem Lexed.eq_nil {start : Nat} {found : List Lexeme} (h : Lexed start [] found) :
    found = [] := by
  generalize htext : [] = text at h
  cases h with
  | done => rfl
  | number hne => exact absurd (List.append_eq_nil_iff.mp htext.symm).1 hne
  | _ => contradiction

/-- Every text has just one cut into tokens. -/
theorem existsUnique_lexed (start : Nat) (text : List Char) : ∃! found, Lexed start text found := by
  induction hn : text.length using Nat.strong_induction_on generalizing start text with
  | _ n ih =>
    cases text with
    | nil => exact ⟨[], .done, fun _ h => h.eq_nil⟩
    | cons c text =>
        have hlt : (firstPiece start c text).rest.length < n := by
          rw [← hn]
          exact Nat.lt_succ_of_le (length_firstPiece_le ..)
        obtain ⟨more, hmore, honly⟩ := ih _ hlt (firstPiece start c text).next _ rfl
        refine ⟨_, hmore.append_firstPiece, ?_⟩
        intro found h
        obtain ⟨more', rfl, hmore'⟩ := h.exists_eq_append
        rw [honly more' hmore']

/-- A token with the value that a scan keeps of it. -/
def Token.capped : Token → Token
  | number value => number (min ceiling value)
  | t => t

/-- A lexeme with the value that a scan keeps of it. -/
def Lexeme.capped (l : Lexeme) : Lexeme := { l with token := l.token.capped }

theorem Token.Single.capped {c : Char} {t : Token} (h : Single c t) : t.capped = t := by
  cases h <;> rfl

namespace Scan

/-- The first character of the text begins a token of its own after what was read. -/
def Before (s : Scan) (text : List Char) : Prop := ∀ c ∈ text.head?, s.next c = s.begin c

theorem before_of_nothing {s : Scan} (h : s.unfinished = .nothing) (text : List Char) :
    s.Before text := by
  intro c _
  rw [next, h]

theorem begin_blank {s : Scan} {c : Char} (hc : Text.isBlank c = true) :
    s.begin c = ⟨s.position + 1, .nothing, s.all⟩ := by
  simp [begin, isDigit_eq_false_of_isBlank hc, ne_bar_of_isBlank hc, hc]

theorem begin_digit {s : Scan} {c : Char} (hc : c.isDigit = true) :
    s.begin c =
      ⟨s.position + 1, .number s.position (Text.Decimal.push Token.ceiling 0 c), s.all⟩ := by
  rw [begin, if_pos hc]

theorem begin_bar (s : Scan) : s.begin '|' = ⟨s.position + 1, .bar s.position, s.all⟩ := rfl

theorem begin_single {s : Scan} {c : Char} {t : Token} (hc : Token.Single c t) :
    s.begin c = ⟨s.position + 1, .nothing, ⟨t, s.position⟩ :: s.all⟩ := by
  simp [begin, hc.notDigit, hc.notBar, hc.notBlank, hc.ofChar_eq]

/-- More digits continue an unfinished number. -/
theorem foldl_next_number (position start value : Nat) (finished : List Lexeme)
    {digits : List Char} (h : ∀ c ∈ digits, c.isDigit = true) :
    digits.foldl next ⟨position, .number start value, finished⟩ =
      ⟨position + digits.length,
        .number start (digits.foldl (Text.Decimal.push Token.ceiling) value), finished⟩ := by
  induction digits generalizing position value with
  | nil => rfl
  | cons c rest ih =>
      have hc : c.isDigit = true := h c (List.mem_cons_self ..)
      have hstep : next ⟨position, .number start value, finished⟩ c =
          ⟨position + 1, .number start (Text.Decimal.push Token.ceiling value c), finished⟩ := by
        simp only [next, hc, if_true]
      rw [List.foldl_cons, hstep, ih _ _ fun d hd => h d (List.mem_cons_of_mem _ hd),
        List.length_cons, List.foldl_cons, Nat.add_right_comm, Nat.add_assoc]

/-- A run of digits is read into one unfinished number. -/
theorem foldl_next_digits {s : Scan} {digits : List Char} (hs : s.Before digits)
    (hne : digits ≠ []) (h : ∀ c ∈ digits, c.isDigit = true) :
    digits.foldl next s =
      ⟨s.position + digits.length,
        .number s.position (min Token.ceiling (numeral digits)), s.all⟩ := by
  rw [← Text.Decimal.value_eq_numeral h]
  obtain ⟨c, rest, rfl⟩ := List.exists_cons_of_ne_nil hne
  have hc : c.isDigit = true := h c (List.mem_cons_self ..)
  rw [List.foldl_cons, hs c rfl, begin_digit hc,
    foldl_next_number _ _ _ _ fun d hd => h d (List.mem_cons_of_mem _ hd),
    ← Text.Decimal.capped_eq_min, List.length_cons, Nat.add_right_comm, Nat.add_assoc]
  rfl

/-- Reading a text adds its lexemes to those read before. -/
theorem all_foldl_next {start : Nat} {text : List Char} {found : List Lexeme}
    (h : Lexed start text found) {s : Scan} (hpos : s.position = start) (hs : s.Before text) :
    (text.foldl next s).all = (found.map Lexeme.capped).reverse ++ s.all := by
  induction h generalizing s with
  | done => rfl
  | blank hc tail ih =>
      rw [List.foldl_cons, hs _ rfl, begin_blank hc]
      exact ih (congrArg (· + 1) hpos) (before_of_nothing rfl _)
  | @number start digits rest found hne hdigits hrest tail ih =>
      have hbefore : s.Before digits := by
        intro c hc
        apply hs
        rw [List.head?_append, Option.mem_def.mp hc]
        rfl
      rw [List.foldl_append, foldl_next_digits hbefore hne hdigits]
      rw [ih (congrArg (· + digits.length) hpos)]
      · simp [all, hpos, Lexeme.capped, Token.capped]
      · intro c hc
        simp [next, hrest c hc]
  | @bar start rest found hrest tail ih =>
      rw [List.foldl_cons, hs _ rfl, begin_bar, ih (congrArg (· + 1) hpos)]
      · simp [all, hpos, Lexeme.capped, Token.capped]
      · intro c hc
        simp [next, hrest c hc]
  | @bars start rest found tail ih =>
      rw [List.foldl_cons, List.foldl_cons, hs _ rfl, begin_bar]
      have hstep : next ⟨s.position + 1, .bar s.position, s.all⟩ '|' =
          ⟨s.position + 2, .nothing, ⟨.connective .or, s.position⟩ :: s.all⟩ := rfl
      rw [hstep, ih (congrArg (· + 2) hpos) (before_of_nothing rfl _)]
      simp [all, hpos, Lexeme.capped, Token.capped]
  | @single start c t rest found hc tail ih =>
      rw [List.foldl_cons, hs _ rfl, begin_single hc,
        ih (congrArg (· + 1) hpos) (before_of_nothing rfl _)]
      simp [all, hpos, Lexeme.capped, hc.capped]

end Scan

/-- The scan of a text finds its lexemes, with numbers under the ceiling. -/
theorem lexemes_eq {text : List Char} {found : List Lexeme} (h : Lexed 0 text found) :
    lexemes text = found.map Lexeme.capped := by
  have hall := Scan.all_foldl_next h rfl (Scan.before_of_nothing (s := {}) rfl _)
  calc
    lexemes text = (text.foldl Scan.next {}).all.reverse := rfl
    _ = ((found.map Lexeme.capped).reverse ++ []).reverse := by rw [hall]; rfl
    _ = found.map Lexeme.capped := by rw [List.append_nil, List.reverse_reverse]

end Verdict
