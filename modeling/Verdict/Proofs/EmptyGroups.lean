import Mathlib.Data.List.Chain
import Verdict.Proofs.Beginnings
import Verdict.Proofs.Parsing

/-!
# Groups of nothing

No text with an empty group stands for a formula, whatever else is in it. `hasEmptyGroup_iff` takes
the characters of an empty group, which may have blanks between its parentheses, to two lexemes
side by side; `Derives.not_hasBareGroup` says that no phrase of the grammar has such two, and
`Pending.hasBareGroup` that a slot without a formula comes from such two.
-/

namespace Verdict

/-- A parenthesis is opened, and the next character that is not blank closes it. -/
def HasEmptyGroup (text : List Char) : Prop :=
  ∃ before blanks after, text = before ++ '(' :: (blanks ++ ')' :: after) ∧
    ∀ c ∈ blanks, Text.isBlank c = true

theorem HasEmptyGroup.mono {text more : List Char} (h : HasEmptyGroup text) (hle : text <+: more) :
    HasEmptyGroup more := by
  obtain ⟨before, blanks, after, rfl, hblanks⟩ := h
  obtain ⟨rest, rfl⟩ := hle
  exact ⟨before, blanks, after ++ rest, by simp, hblanks⟩

section Characters

variable {start : Nat} {c d : Char} {rest gap : List Char} {l : Lexeme} {more found : List Lexeme}

theorem Lexed.blanks (hgap : ∀ c ∈ gap, Text.isBlank c = true)
    (h : Lexed (start + gap.length) rest found) : Lexed start (gap ++ rest) found := by
  induction gap generalizing start with
  | nil => exact h
  | cons c gap ih =>
      apply Lexed.blank (hgap c (List.mem_cons_self ..))
      apply ih fun d hd => hgap d (List.mem_cons_of_mem _ hd)
      rwa [List.length_cons, Nat.add_comm gap.length, ← Nat.add_assoc] at h

/-- A text without lexemes is blank. -/
theorem Lexed.isBlank_of_nil (h : Lexed start rest []) : ∀ c ∈ rest, Text.isBlank c = true := by
  generalize hfound : [] = found at h
  induction h with
  | done => simp
  | blank hc tail ih =>
      intro d hd
      rcases List.mem_cons.mp hd with rfl | hd
      · exact hc
      · exact ih hfound d hd
  | _ => contradiction

/-- A token is that of at most one character that is a token by itself. -/
theorem Token.Single.eq {t : Token} (h : Single c t) (h' : Single d t) : c = d := by
  cases h <;> cases h' <;> rfl

/-- A lexeme of one character that stands at the front of a text is its first character. -/
theorem Lexed.eq_of_single (h : Lexed start (c :: rest) (l :: more)) (hc : Text.isBlank c = false)
    (hd : Token.Single d l.token) : c = d ∧ Lexed (start + 1) rest more := by
  generalize hall : c :: rest = text at h
  cases h with
  | blank hblank =>
      cases hall
      exact absurd hblank (by simp [hc])
  | single hsingle tail =>
      cases hall
      exact ⟨hsingle.eq hd, tail⟩
  | _ => cases hd

/-- A character that is the only one of its lexeme, where the lexeme begins. -/
theorem eq_of_lexemes_cons {front : List Char} (hbefore : (Scan.ofChars front).Before [c])
    (hc : Text.isBlank c = false) (hd : Token.Single d l.token)
    (h : lexemes (front ++ c :: rest) = lexemes front ++ l :: more) :
    c = d ∧ ∃ found, Lexed (front.length + 1) rest found ∧ found.map Lexeme.capped = more := by
  obtain ⟨found, hlexed, -⟩ := existsUnique_lexed front.length (c :: rest)
  rw [lexemes_append (hbefore.of_head rest) hlexed, List.append_cancel_left_eq] at h
  obtain ⟨l', found, rfl, rfl, hmore⟩ := List.map_eq_cons_iff.mp h
  have hd' : Token.Single d l'.token := by
    obtain ⟨t, position⟩ := l'
    cases t with
    | number value => cases hd
    | _ => exact hd
  obtain ⟨hcd, htail⟩ := hlexed.eq_of_single hc hd'
  exact ⟨hcd, found, htail, hmore⟩

end Characters

/-- The characters of an empty group are two lexemes side by side. -/
theorem hasEmptyGroup_iff {text : List Char} :
    HasEmptyGroup text ↔ HasBareGroup ((lexemes text).map Lexeme.token) := by
  constructor
  · rintro ⟨front, gap, after, rfl, hgap⟩
    obtain ⟨found, hfound, -⟩ := existsUnique_lexed (front.length + 1 + gap.length + 1) after
    have hopening := Lexed.single .opening (Lexed.blanks hgap (.single .closing hfound))
    rw [lexemes_append (Scan.before_of_ne (by decide) (by decide) _ _) hopening, List.map_append]
    apply HasBareGroup.append_left
    exact (List.prefix_append [Token.opening, Token.closing] _).isInfix
  · rintro ⟨before, after, h⟩
    obtain ⟨upto, past, hsplit, hupto, -⟩ := List.map_eq_append_iff.mp h.symm
    obtain ⟨found, pair, rfl, -, hpair⟩ := List.map_eq_append_iff.mp hupto
    obtain ⟨lo, rest, rfl, hlo, hrest⟩ := List.map_eq_cons_iff.mp hpair
    obtain ⟨lc, rfl, hlc⟩ := List.map_eq_singleton_iff.mp hrest
    have hclose : lexemes text = (found ++ [lo]) ++ lc :: past := by simp [hsplit]
    obtain ⟨front, c, after, rfl, -, hfront, hcut, hc⟩ := exists_cut hclose
    rw [← hfront] at hclose
    have hshut : Token.Single ')' lc.token := hlc ▸ .closing
    obtain ⟨rfl, -⟩ := eq_of_lexemes_cons hcut hc hshut hclose
    obtain ⟨front', c', gap, rfl, -, hfront', hcut', hc'⟩ := exists_cut hfront
    rw [← hfront'] at hfront
    have hopened : Token.Single '(' lo.token := hlo ▸ .opening
    obtain ⟨rfl, inside, hinside, hnone⟩ := eq_of_lexemes_cons hcut' hc' hopened hfront
    rw [List.map_eq_nil_iff] at hnone
    subst hnone
    exact ⟨front', gap, after, by simp, hinside.isBlank_of_nil⟩

section Grammar

variable {a : Category} {tokens : List Token} {e : Formula}

theorem Derives.ne_nil (h : Derives a tokens e) : tokens ≠ [] := by
  obtain ⟨value, hv⟩ := h.exists_number
  exact List.ne_nil_of_mem hv

theorem Derives.head_ne_closing (h : Derives a tokens e) : ∀ t ∈ tokens.head?, t ≠ .closing := by
  induction h using Derives.byRows with
  | number f => simp
  | group => simp
  | weaken _ _ ih => exact ih
  | join row _ ih _ => rwa [List.head?_append_of_ne_nil _ row.ne_nil]

theorem Derives.getLast_ne_opening (h : Derives a tokens e) :
    ∀ t ∈ tokens.getLast?, t ≠ .opening := by
  induction h using Derives.byRows with
  | number f => simp
  | group =>
      rw [List.getLast?_append_of_ne_nil _ (List.cons_ne_nil _ _)]
      simp
  | weaken _ _ ih => exact ih
  | join _ item _ ih =>
      rwa [List.getLast?_append_of_ne_nil _ (List.cons_ne_nil _ _),
        List.getLast?_cons_of_ne_nil item.ne_nil]

/-- In a phrase no parenthesis is closed right after it was opened. -/
theorem Derives.isChain (h : Derives a tokens e) :
    tokens.IsChain fun t u => t = .opening → u ≠ .closing := by
  induction h using Derives.byRows with
  | number f => exact List.isChain_singleton _
  | group inner ih =>
      apply List.IsChain.append
      · exact ih.cons fun t ht _ => inner.head_ne_closing t ht
      · exact List.isChain_singleton _
      · rw [List.getLast?_cons_of_ne_nil inner.ne_nil]
        intro t ht _ _ hopening
        exact absurd hopening (inner.getLast_ne_opening t ht)
  | weaken _ _ ih => exact ih
  | join _ _ ihl ihr =>
      apply List.IsChain.append ihl
      · exact ihr.cons fun _ _ h => absurd h (by simp)
      · rintro _ - _ ⟨⟩ -
        simp

/-- No phrase has an empty group. -/
theorem Derives.not_hasBareGroup (h : Derives a tokens e) : ¬ HasBareGroup tokens := by
  rintro ⟨before, after, rfl⟩
  simpa [List.isChain_append] using h.isChain

end Grammar

/-- No text with an empty group stands for a formula. -/
theorem Formula.parse_ne_ok_of_hasEmptyGroup {text : String} (h : HasEmptyGroup text.toList)
    (e : Formula) : parse text ≠ .ok e := by
  intro hparse
  obtain ⟨made, hread⟩ := parse_eq_ok_iff_readLexemes.mp hparse
  exact (derives_of_readLexemes hread).not_hasBareGroup (hasEmptyGroup_iff.mp h)

section Stacks

variable {waiting : List Waiting} {slots : List (Option Formula)} {found : List Lexeme}

theorem Fills.hasBareGroup {a : Category} {before piece : List Lexeme}
    (h : Fills a before piece none) : HasBareGroup (piece.map Lexeme.token) := by
  cases h with
  | hollow hhollow _ => exact hhollow.hasBareGroup

/-- A slot without a formula comes from a group of nothing. -/
theorem Pending.hasBareGroup (h : Pending waiting slots found) (hnone : none ∈ slots) :
    HasBareGroup (found.map Lexeme.token) := by
  induction h with
  | start => exact absurd hnone List.not_mem_nil
  | group position _ ih =>
      rw [List.map_append]
      exact (ih hnone).append_right _
  | connective c position _ _ hfills ih =>
      rw [List.map_append, List.map_append]
      apply HasBareGroup.append_right
      rcases List.mem_cons.mp hnone with rfl | hnone
      · exact hfills.hasBareGroup.append_left _
      · exact (ih hnone).append_right _

theorem Held.hasBareGroup {a : Category} (h : Held a waiting slots found) (hnone : none ∈ slots) :
    HasBareGroup (found.map Lexeme.token) := by
  obtain ⟨below, -, hfills⟩ := h
  rw [List.map_append]
  rcases List.mem_cons.mp hnone with rfl | hnone
  · exact hfills.hasBareGroup.append_left _
  · exact (below.hasBareGroup hnone).append_right _

end Stacks

end Verdict
