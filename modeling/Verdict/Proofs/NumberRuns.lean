import Verdict.Proofs.DigitRegister
import Verdict.Proofs.Progress
import Verdict.Proofs.Relocation

/-!
# How a number is read

Where an operand is awaited and the next character is a digit, all digits that stand side by side
are taken for one number, and reading goes on right behind them. The lexemes of a text that is
cut in front of a token are those of its two parts, the second moved behind the first; so the lexeme
of the number is found in place, whatever stands before and after its digits. If the number is too
large for a fact, the error names it, or the largest word in place of a still larger one, and the
same comes of reading the digits into one word.
-/

namespace Verdict

/-! ### Texts behind each other -/

/-- Lexemes at the places where they stand when a text comes before theirs. -/
def behind (front : List Char) (found : List Lexeme) : List Lexeme :=
  found.map (Lexeme.relocate (front.length + ·))

theorem behind_cons (front : List Char) (l : Lexeme) (found : List Lexeme) :
    behind front (l :: found) = ⟨l.token, front.length + l.position⟩ :: behind front found := rfl

theorem behind_behind (front text : List Char) (found : List Lexeme) :
    behind front (behind text found) = behind (front ++ text) found := by
  rw [behind, behind, behind, List.map_map]
  apply List.map_congr_left
  intro l _
  rw [Function.comp_apply, Lexeme.relocate, Lexeme.relocate, Lexeme.relocate, List.length_append,
    Nat.add_assoc]

theorem map_capped_behind (front : List Char) (found : List Lexeme) :
    (behind front found).map Lexeme.capped = behind front (found.map Lexeme.capped) := by
  rw [behind, behind, List.map_map, List.map_map]
  rfl

/-- A text is cut in the same way wherever it stands. -/
theorem Lexed.behind {start : Nat} {text : List Char} {found : List Lexeme}
    (h : Lexed start text found) (front : List Char) :
    Lexed (front.length + start) text (Verdict.behind front found) := by
  induction h with
  | done => exact .done
  | blank hc _ ih => exact .blank hc ih
  | number hne hdigits hrest _ ih =>
      rw [← Nat.add_assoc] at ih
      exact .number hne hdigits hrest ih
  | bar hrest _ ih => exact .bar hrest ih
  | bars _ ih => exact .bars ih
  | single hc _ ih => exact .single hc ih

section Cut

variable {front text digits rest : List Char}

/-- The lexemes of a text that is cut in front of a token are those of its two parts. -/
theorem lexemes_append_behind (hbefore : (Scan.ofChars front).Before text) :
    lexemes (front ++ text) = lexemes front ++ behind front (lexemes text) := by
  obtain ⟨found, hlexed, -⟩ := existsUnique_lexed 0 text
  rw [lexemes_append hbefore (hlexed.behind front), lexemes_eq hlexed, map_capped_behind]

/-- Digits at the beginning of a text are one number. -/
theorem lexemes_digits_append (hne : digits ≠ []) (hdigits : ∀ c ∈ digits, c.isDigit = true)
    (hrest : ∀ c ∈ rest.head?, c.isDigit = false) :
    lexemes (digits ++ rest) =
      ⟨.number (min Token.ceiling (numeral digits)), 0⟩ ::
        behind digits (lexemes rest) := by
  obtain ⟨found, hlexed, -⟩ := existsUnique_lexed 0 rest
  have htail := hlexed.behind digits
  rw [Nat.add_comm] at htail
  rw [lexemes_eq (.number hne hdigits hrest htail), lexemes_eq hlexed, List.map_cons,
    map_capped_behind]
  rfl

/-- Digits with no digit before and behind them are one number. -/
theorem lexemes_append_number (hne : digits ≠ []) (hdigits : ∀ c ∈ digits, c.isDigit = true)
    (hfront : ∀ c ∈ front.getLast?, c.isDigit = false)
    (hrest : ∀ c ∈ rest.head?, c.isDigit = false) :
    lexemes (front ++ digits ++ rest) =
      lexemes front ++ ⟨.number (min Token.ceiling (numeral digits)), front.length⟩ ::
        behind (front ++ digits) (lexemes rest) := by
  have hbefore : (Scan.ofChars front).Before (digits ++ rest) := by
    obtain ⟨c, more, rfl⟩ := List.exists_cons_of_ne_nil hne
    exact Scan.before_of_isDigit hfront (hdigits c (List.mem_cons_self ..))
  rw [List.append_assoc, lexemes_append_behind hbefore, lexemes_digits_append hne hdigits hrest,
    behind_cons, behind_behind]
  rfl

end Cut

/-! ### Taking the number -/

namespace Reading

variable {r : Reading} {front : List Char} {n : Nat}

/-- Where an operand is awaited no digit stands directly before. -/
theorem Stands.isDigit_getLast? (h : r.Stands front) (hawait : r.awaiting = true) :
    ∀ c ∈ front.getLast?, c.isDigit = false := by
  intro c hc
  obtain ⟨front, rfl⟩ := List.getLast?_eq_some_iff.mp hc
  by_contra hdigit
  rw [Bool.not_eq_false] at hdigit
  have hlast : c ∈ lastVisible (front ++ [c]) := by
    simp [lastVisible, visible, isBlank_eq_false_of_isDigit hdigit]
  have hleads := h.awaiting hawait c hlast
  simp only [List.mem_cons, List.not_mem_nil, or_false] at hleads
  rcases hleads with rfl | rfl | rfl <;> exact absurd hdigit (by decide)

/-- The reading after the number of a fact. -/
def withFact (r : Reading) (f : Fact) : Reading :=
  { r with operands := .fact f :: r.operands, awaiting := false, seen := true }

theorem take_number_of_lt (hawait : r.awaiting = true) (h : n < FactSet.width) (position : Nat) :
    r.take ⟨.number (min n (2 ^ 64 - 1)), position⟩ = .ok (r.withFact ⟨n, h⟩) := by
  have hfact : Fact.ofId n = .ok ⟨n, h⟩ := Fact.ofId_eq_ok_iff.mpr rfl
  have hword : n ≤ 2 ^ 64 - 1 := Nat.le_trans (Nat.le_of_lt h) (by decide)
  rw [Nat.min_eq_left hword]
  change r.takeNumber n position = _
  rw [takeNumber, if_pos hawait, hfact]
  rfl

theorem take_number_of_le (hawait : r.awaiting = true) (h : FactSet.width ≤ n) (position : Nat) :
    r.take ⟨.number (min n (2 ^ 64 - 1)), position⟩ =
      .error ⟨.outOfRange ⟨min n (2 ^ 64 - 1)⟩, r.reductions⟩ := by
  have hlarge : FactSet.width ≤ min n (2 ^ 64 - 1) := Nat.le_min.mpr ⟨h, by decide⟩
  change r.takeNumber (min n (2 ^ 64 - 1)) position = _
  rw [takeNumber, if_pos hawait, Fact.ofId_eq_error_iff.mpr ⟨hlarge, rfl⟩]
  rfl

end Reading

namespace Formula

/-- The digits that stand side by side where an operand is awaited are one number. Reading them into
one word gives the number if it is that of a fact, and otherwise reports it, or the largest word if
it is larger still; the text after the digits is left. A reading of the whole text comes to the
same: the number is one lexeme between those before and those after the digits, the fact becomes an
operand and reading goes on behind it, and a number that is no fact ends the reading. -/
theorem number_read_whole {c : Char} {more rest : List Char} {n : Nat}
    (hdigits : ∀ d ∈ c :: more, d.isDigit = true) (hrest : ∀ d ∈ rest.head?, d.isDigit = false)
    (hn : numeral (c :: more) = n) :
    Text.Decimal.readNumber c (more ++ rest) =
        (if n < FactSet.width then .ok (UInt32.ofNat n) else .error ⟨min n (2 ^ 64 - 1)⟩, rest) ∧
      ∀ (front : List Char) (r : Reading), Reading.takeAll {} (lexemes front) = .ok r →
        r.awaiting = true →
        lexemes (front ++ c :: more ++ rest) =
            lexemes front ++ ⟨.number (min n (2 ^ 64 - 1)), front.length⟩ ::
              behind (front ++ c :: more) (lexemes rest) ∧
          (∀ h : n < FactSet.width,
            Reading.takeAll {} (lexemes (front ++ c :: more ++ rest)) =
              (r.withFact ⟨n, h⟩).takeAll (behind (front ++ c :: more) (lexemes rest))) ∧
          (FactSet.width ≤ n →
            transcribe (String.ofList (front ++ c :: more ++ rest)) =
              ⟨.error (.outOfRange ⟨min n (2 ^ 64 - 1)⟩), r.reductions.reverse⟩) := by
  have hvalue : Text.Decimal.value (c :: more) = n :=
    (Text.Decimal.value_eq_numeral hdigits).trans hn
  refine ⟨?_, ?_⟩
  · have hmore : ∀ d ∈ more, d.isDigit = true := fun d hd => hdigits d (List.mem_cons_of_mem _ hd)
    obtain ⟨htake, hdrop⟩ := span_digits hmore hrest
    rw [Text.Decimal.readNumber_eq, htake, hdrop, hvalue]
  · intro front r hread hawait
    have hfollows : r.Follows ((lexemes front).map Lexeme.token) :=
      Reading.Follows.start.takeAll hread
    have hlexemes : lexemes (front ++ c :: more ++ rest) =
        lexemes front ++ ⟨.number (min n (2 ^ 64 - 1)), front.length⟩ ::
          behind (front ++ c :: more) (lexemes rest) := by
      rw [← hn, Nat.min_comm]
      exact lexemes_append_number (List.cons_ne_nil _ _) hdigits
        (hfollows.stands.isDigit_getLast? hawait) hrest
    refine ⟨hlexemes, ?_, ?_⟩
    · intro hlt
      rw [hlexemes, Reading.takeAll_append hread, Reading.takeAll,
        Reading.take_number_of_lt hawait hlt]
    · intro hle
      have hrefused := Reading.takeAll_eq_error hread
        (Reading.take_number_of_le hawait hle front.length)
        (behind (front ++ c :: more) (lexemes rest))
      rw [← hlexemes] at hrefused
      rw [transcribe, String.toList_ofList, readLexemes_of_takeAll hrefused]
      rfl

/-- In `184467440737095516170` the last digit but one finds no room in a word, and the last one does.
The number is reported as the largest word. -/
theorem number_read_whole_overflow :
    let front := "1 & (".toList
    let more := "84467440737095516170".toList
    let rest := ") | 2".toList
    let r : Reading := {
      waiting := [.group 4, .connective .and 2], operands := [.fact 1], seen := true,
      openGroups := 1 }
    (∀ d ∈ '1' :: more, d.isDigit = true) ∧ (∀ d ∈ rest.head?, d.isDigit = false) ∧
      numeral ('1' :: more) = 184467440737095516170 ∧
      Reading.takeAll {} (lexemes front) = .ok r ∧ r.awaiting = true ∧
      ((Text.Decimal.Register.start '1').readDigits (more ++ rest)).1 =
        ⟨18446744073709551610, true⟩ ∧
      Text.Decimal.readNumber '1' (more ++ rest) = (.error ⟨2 ^ 64 - 1⟩, rest) ∧
      transcribe "1 & (184467440737095516170) | 2" = ⟨.error (.outOfRange ⟨2 ^ 64 - 1⟩), []⟩ := by
  intro front more rest r
  have hdigits : ∀ d ∈ '1' :: more, d.isDigit = true := by simp [more]
  have hrest : ∀ d ∈ rest.head?, d.isDigit = false := by simp [rest]
  have hn : numeral ('1' :: more) = 184467440737095516170 := rfl
  have hread : Reading.takeAll {} (lexemes front) = .ok r := rfl
  obtain ⟨hword, hreading⟩ := number_read_whole hdigits hrest hn
  obtain ⟨-, -, hrefused⟩ := hreading front r hread rfl
  exact ⟨hdigits, hrest, hn, hread, rfl, by decide +kernel, hword, hrefused (by decide)⟩

end Formula

end Verdict
