import Verdict.Json.Token

/-!
# The texts of JSON tokens

`Token.Spells` lists the ways to write a token: one way for most, every run of characters that the
parts of a number allow, and for a string every mixture of plain characters, escapes by letter and
escapes by number. `Lexes` puts such words and blanks side by side, where a number must not run into
what follows it. `tokens?_of_lexes` says that the scan finds the tokens of every such text.
-/

namespace Verdict.Json

theorem isBlank_iff {c : Char} :
    isBlank c = true ↔ c = ' ' ∨ c = '\t' ∨ c = '\n' ∨ c = '\r' := by
  simp only [isBlank, Bool.or_eq_true, decide_eq_true_eq, or_assoc]

/-- The ways to write the units of a string. -/
inductive Content : List Char → List TextUnit → Prop where
  | nil : Content [] []
  | plain {c rest units} (hquote : c ≠ '"') (hslash : c ≠ '\\') (hcontrol : ¬ c.toNat < 0x20)
      (tail : Content rest units) : Content (c :: rest) (.char c :: units)
  | letter {c d rest units} (hd : escapeLetter? c = some d) (tail : Content rest units) :
      Content ('\\' :: c :: rest) (.char d :: units)
  | code {a b c d rest units i j k l} (ha : hexDigit? a = some i) (hb : hexDigit? b = some j)
      (hc : hexDigit? c = some k) (hd : hexDigit? d = some l) (tail : Content rest units) :
      Content ('\\' :: 'u' :: a :: b :: c :: d :: rest)
        (.ofCode (16 * (16 * (16 * i + j) + k) + l) :: units)

namespace NumberPart

/-- The characters are a number from its first to its last character. -/
def Reads (literal : List Char) : Prop :=
  ∃ c rest first last, literal = c :: rest ∧ start? c = some first ∧
    rest.foldlM next? first = some last ∧ last.complete = true

/-- No number goes on with this character. -/
def Stops (c : Char) : Prop := ∀ part : NumberPart, part.next? c = none

end NumberPart

/-- The ways to write a token. -/
inductive Token.Spells : Token → List Char → Prop where
  | openArray : Spells .openArray ['[']
  | closeArray : Spells .closeArray [']']
  | openObject : Spells .openObject ['\x7b']
  | closeObject : Spells .closeObject ['\x7d']
  | colon : Spells .colon [':']
  | comma : Spells .comma [',']
  | nullWord : Spells .null ['n', 'u', 'l', 'l']
  | trueWord : Spells (.bool true) ['t', 'r', 'u', 'e']
  | falseWord : Spells (.bool false) ['f', 'a', 'l', 's', 'e']
  | number {literal} (h : NumberPart.Reads literal) : Spells (.number (.ofList literal)) literal
  | string {content units} (h : Content content units) :
      Spells (.string (TextUnit.text? units)) ('"' :: content ++ ['"'])

/-- `Lexes text tokens` says that the text is made of words for the tokens, with blanks before,
between and after them. -/
inductive Lexes : List Char → List Token → Prop where
  | nil : Lexes [] []
  | blank {c rest tokens} (hc : isBlank c = true) (tail : Lexes rest tokens) :
      Lexes (c :: rest) tokens
  | token {t word rest tokens} (head : t.Spells word)
      (hrest : ∀ literal, t = .number literal → ∀ c ∈ rest.head?, NumberPart.Stops c)
      (tail : Lexes rest tokens) : Lexes (word ++ rest) (t :: tokens)

namespace Scan

variable {s : Scan} {done : List Token} {text rest : List Char} {c : Char}

/-- The tokens read so far are `done`, latest first, and the text that follows begins anew. -/
structure Settled (s : Scan) (done : List Token) (text : List Char) : Prop where
  all : s.all? = some done.reverse
  next : ∀ c ∈ text.head?, s.next c = begin done c

theorem settled_nothing (done : List Token) (text : List Char) :
    Settled ⟨.nothing, done⟩ done text where
  all := rfl
  next _ _ := rfl

theorem settled_word (token : Token) (done : List Token) (text : List Char) :
    Settled ⟨.word [] token, done⟩ (token :: done) text where
  all := rfl
  next _ _ := rfl

theorem begin_blank (hc : isBlank c = true) (done : List Token) :
    begin done c = some ⟨.nothing, done⟩ := by
  rcases isBlank_iff.mp hc with rfl | rfl | rfl | rfl <;> rfl

theorem next_plain (hquote : c ≠ '"') (hslash : c ≠ '\\') (hcontrol : ¬ c.toNat < 0x20)
    (units : List TextUnit) (done : List Token) :
    next ⟨.string units, done⟩ c = some ⟨.string (.char c :: units), done⟩ := by
  simp only [next, if_neg hquote, if_neg hslash, if_neg hcontrol]

theorem next_letter {d : Char} (hd : escapeLetter? c = some d) (units : List TextUnit)
    (done : List Token) :
    next ⟨.escape units, done⟩ c = some ⟨.string (.char d :: units), done⟩ := by
  have hu : c ≠ 'u' := by
    rintro rfl
    contradiction
  simp only [next, if_neg hu, hd, Option.map_some]

theorem next_code {missing value digit : Nat} (hc : hexDigit? c = some digit)
    (units : List TextUnit) (done : List Token) :
    next ⟨.code units (missing + 2) value, done⟩ c =
      some ⟨.code units (missing + 1) (16 * value + digit), done⟩ := by
  simp [next, hc]

theorem next_last_code {value digit : Nat} (hc : hexDigit? c = some digit)
    (units : List TextUnit) (done : List Token) :
    next ⟨.code units 1 value, done⟩ c =
      some ⟨.string (.ofCode (16 * value + digit) :: units), done⟩ := by
  simp [next, hc]

/-- The units of a string are collected. -/
theorem foldlM_next_content {content : List Char} {units : List TextUnit}
    (h : Content content units) (before : List TextUnit) (done : List Token) :
    content.foldlM next ⟨.string before, done⟩ =
      some ⟨.string (units.reverse ++ before), done⟩ := by
  induction h generalizing before with
  | nil => rfl
  | plain hquote hslash hcontrol _ ih =>
      rw [List.foldlM_cons, next_plain hquote hslash hcontrol, Option.bind_eq_bind,
        Option.bind_some, ih]
      simp
  | letter hd _ ih =>
      have hslash : next ⟨.string before, done⟩ '\\' = some ⟨.escape before, done⟩ := rfl
      simp only [List.foldlM_cons, hslash, next_letter hd, Option.bind_eq_bind, Option.bind_some,
        ih]
      simp
  | code ha hb hc hd _ ih =>
      have hslash : next ⟨.string before, done⟩ '\\' = some ⟨.escape before, done⟩ := rfl
      have hmark : next ⟨.escape before, done⟩ 'u' = some ⟨.code before 4 0, done⟩ := rfl
      simp only [List.foldlM_cons, hslash, hmark, next_code ha, next_code hb, next_code hc,
        next_last_code hd, Option.bind_eq_bind, Option.bind_some, ih]
      simp

/-- The characters of a number are collected. -/
theorem foldlM_next_number {first last : NumberPart} {chars : List Char}
    (h : chars.foldlM NumberPart.next? first = some last) (read : List Char) (done : List Token) :
    chars.foldlM next ⟨.number first read, done⟩ =
      some ⟨.number last (chars.reverse ++ read), done⟩ := by
  induction chars generalizing first read with
  | nil =>
      cases h
      rfl
  | cons c rest ih =>
      rw [List.foldlM_cons, Option.bind_eq_bind, Option.bind_eq_some_iff] at h
      obtain ⟨part, hpart, hrest⟩ := h
      have hnext : next ⟨.number first read, done⟩ c = some ⟨.number part (c :: read), done⟩ := by
        simp only [next, hpart]
      rw [List.foldlM_cons, hnext, Option.bind_eq_bind, Option.bind_some, ih hrest]
      simp

theorem begin_number {part : NumberPart} (hc : NumberPart.start? c = some part)
    (done : List Token) : begin done c = some ⟨.number part [c], done⟩ := by
  have hblank : ¬ isBlank c = true := by
    rw [isBlank_iff]
    rintro (rfl | rfl | rfl | rfl) <;> contradiction
  unfold begin
  split
  case h_11 => rw [if_neg hblank, hc, Option.map_some]
  all_goals contradiction

/-- A word for a token is read as the token, if what follows does not continue it. -/
theorem exists_settled {t : Token} {word : List Char} (h : t.Spells word)
    (hs : s.Settled done (word ++ rest))
    (hrest : ∀ literal, t = .number literal → ∀ c ∈ rest.head?, NumberPart.Stops c) :
    ∃ s', word.foldlM next s = some s' ∧ s'.Settled (t :: done) rest := by
  cases h with
  | nullWord =>
      refine ⟨⟨.word [] .null, done⟩, ?_, settled_word ..⟩
      rw [List.foldlM_cons, hs.next 'n' rfl]
      rfl
  | trueWord =>
      refine ⟨⟨.word [] (.bool true), done⟩, ?_, settled_word ..⟩
      rw [List.foldlM_cons, hs.next 't' rfl]
      rfl
  | falseWord =>
      refine ⟨⟨.word [] (.bool false), done⟩, ?_, settled_word ..⟩
      rw [List.foldlM_cons, hs.next 'f' rfl]
      rfl
  | number hreads =>
      obtain ⟨c, more, first, last, rfl, hfirst, hmore, hlast⟩ := hreads
      refine ⟨⟨.number last (more.reverse ++ [c]), done⟩, ?_, ?_, ?_⟩
      · rw [List.foldlM_cons, hs.next c rfl, begin_number hfirst, Option.bind_eq_bind,
          Option.bind_some]
        exact foldlM_next_number hmore [c] done
      · simp [all?, hlast, numberToken]
      · intro d hd
        have hstop := hrest _ rfl d hd last
        simp [next, hstop, hlast, numberToken]
  | @string content units hcontent =>
      refine ⟨emit done (.string (TextUnit.text? units)), ?_, settled_nothing ..⟩
      rw [List.cons_append, List.foldlM_cons, hs.next '"' rfl, Option.bind_eq_bind,
        show begin done '"' = some ⟨.string [], done⟩ from rfl, Option.bind_some,
        List.foldlM_append, foldlM_next_content hcontent]
      simp [next]
  | _ =>
      refine ⟨emit done _, ?_, settled_nothing ..⟩
      rw [List.foldlM_cons, hs.next _ rfl]
      rfl

/-- The scan of a text finds its tokens. -/
theorem exists_all? {tokens : List Token} (h : Lexes text tokens) (hs : s.Settled done text) :
    ∃ s', text.foldlM next s = some s' ∧ s'.all? = some (done.reverse ++ tokens) := by
  induction h generalizing s done with
  | nil => exact ⟨s, rfl, by rw [hs.all, List.append_nil]⟩
  | @blank c rest tokens hc tail ih =>
      obtain ⟨s', hs', hall⟩ := ih (settled_nothing done rest)
      refine ⟨s', ?_, hall⟩
      rw [List.foldlM_cons, hs.next c rfl, begin_blank hc]
      exact hs'
  | token head hrest tail ih =>
      obtain ⟨s₁, hword, hs₁⟩ := exists_settled head hs hrest
      obtain ⟨s', hs', hall⟩ := ih hs₁
      refine ⟨s', ?_, ?_⟩
      · rw [List.foldlM_append, hword]
        exact hs'
      · rw [hall, List.reverse_cons, List.append_assoc, List.singleton_append]

end Scan

/-- A text made of tokens and blanks has these tokens. -/
theorem tokens?_of_lexes {text : List Char} {tokens : List Token} (h : Lexes text tokens) :
    tokens? text = some tokens := by
  obtain ⟨s, hs, hall⟩ := Scan.exists_all? h (Scan.settled_nothing [] text)
  rw [tokens?, show ({} : Scan) = ⟨.nothing, []⟩ from rfl, hs]
  exact hall

end Verdict.Json
