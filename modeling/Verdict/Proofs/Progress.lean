import Verdict.Proofs.Parentheses

/-!
# What a reading remembers of the text

Besides its stacks a reading keeps three things: whether it awaits an operand, whether it has seen a
number, and how many groups are open. `Reading.Moves` says how a token changes them,
`Reading.Follows` says what they tell about the tokens that were read, and `Reading.Stands` what they
tell about the characters: an operand is awaited at the beginning of the text and after `(`, `&` and
`|`, and the open groups are the parentheses opened less those closed.
-/

namespace Verdict

namespace Reading

variable {r r' : Reading} {t : Token} {tokens : List Token} {l : Lexeme} {position : Nat}

/-- How a token that is read changes what is awaited, what was seen and how many groups are open. -/
def Moves (r r' : Reading) : Token → Prop
  | .number value => value < FactSet.width ∧ r'.awaiting = false ∧ r'.seen = true ∧
      r'.openGroups = r.openGroups
  | .opening => r'.awaiting = true ∧ r'.seen = r.seen ∧ r'.openGroups = r.openGroups + 1
  | .closing => r'.awaiting = false ∧ r'.seen = r.seen ∧ r'.openGroups + 1 = r.openGroups
  | .connective _ => r'.awaiting = true ∧ r'.seen = r.seen ∧ r'.openGroups = r.openGroups
  | .unknown _ => False

theorem moves_of_takeClosing (hr : r.takeClosing position = .ok r') : r.Moves r' .closing := by
  unfold takeClosing at hr
  split at hr
  · contradiction
  next hopen =>
  have hone : r.openGroups - 1 + 1 = r.openGroups := Nat.sub_add_cancel (Nat.pos_of_ne_zero hopen)
  split at hr
  · unfold passOver at hr
    split at hr
    · split at hr
      · contradiction
      · cases hr
        exact ⟨rfl, rfl, hone⟩
    · contradiction
  · next hawait =>
      unfold closeGroup at hr
      split at hr
      · cases hr
        exact ⟨Bool.eq_false_iff.mpr hawait, rfl, hone⟩
      · contradiction
      · contradiction

theorem moves_of_takeConnective {c : Connective} (hr : r.takeConnective c position = .ok r') :
    r.Moves r' (.connective c) := by
  unfold takeConnective at hr
  split at hr
  · contradiction
  · split at hr
    · cases hr
      exact ⟨rfl, rfl, rfl⟩
    · contradiction

theorem moves_of_take (hr : r.take l = .ok r') : r.Moves r' l.token := by
  obtain ⟨t, position⟩ := l
  cases t with
  | number value =>
      simp only [take, takeNumber] at hr
      split at hr
      · split at hr
        · next f hf =>
            cases hr
            rw [Fact.ofId_eq_ok_iff.mp hf]
            exact ⟨f.isLt, rfl, rfl, rfl⟩
        · contradiction
      · contradiction
  | opening =>
      simp only [take, takeOpening] at hr
      split at hr
      · next hawait =>
          cases hr
          exact ⟨hawait, rfl, rfl⟩
      · contradiction
  | closing => exact moves_of_takeClosing hr
  | connective c => exact moves_of_takeConnective hr
  | unknown c => contradiction

end Reading

namespace Token

/-- A token after which an operand has to begin. -/
def Leads (t : Token) : Prop := t = opening ∨ ∃ c, t = connective c

/-- A token with which an operand ends. -/
def Completes (t : Token) : Prop := t = closing ∨ ∃ value, t = number value

variable {t : Token} {c : Char}

theorem Leads.mem (h : t.Leads) (hc : t.Shows c) : c ∈ ['(', '&', '|'] := by
  rcases h with rfl | ⟨d, rfl⟩
  · obtain rfl := hc
    decide
  · cases d <;> (obtain rfl := hc; decide)

theorem Completes.isDigit_or (h : t.Completes) (hc : t.Shows c) : c.isDigit = true ∨ c = ')' := by
  rcases h with rfl | ⟨value, rfl⟩
  · exact .inr hc
  · exact .inl hc

end Token

namespace Reading

variable {r r' : Reading} {t : Token} {tokens : List Token} {found : List Lexeme} {l : Lexeme}

namespace Moves

theorem leads (h : r.Moves r' t) (hawait : r'.awaiting = true) : t.Leads := by
  cases t with
  | opening => exact .inl rfl
  | connective c => exact .inr ⟨c, rfl⟩
  | number value => simp [Moves, hawait] at h
  | closing => simp [Moves, hawait] at h
  | unknown c => exact absurd h id

theorem completes (h : r.Moves r' t) (hawait : r'.awaiting = false) : t.Completes := by
  cases t with
  | number value => exact .inr ⟨value, rfl⟩
  | closing => exact .inl rfl
  | opening => simp [Moves, hawait] at h
  | connective c => simp [Moves, hawait] at h
  | unknown c => exact absurd h id

theorem seen_iff (h : r.Moves r' t) :
    r'.seen = true ↔ r.seen = true ∨ ∃ value, t = .number value := by
  cases t with
  | number value => simp [h.2.2.1]
  | opening => simp [h.2.1]
  | closing => simp [h.2.1]
  | connective c => simp [h.2.1]
  | unknown c => exact absurd h id

theorem openGroups (h : r.Moves r' t) :
    r'.openGroups + t.parens.count ')' = r.openGroups + t.parens.count '(' := by
  cases t with
  | number value => exact h.2.2.2
  | opening => exact h.2.2
  | closing => exact h.2.2
  | connective c => exact h.2.2
  | unknown c => exact absurd h id

theorem known (h : r.Moves r' t) (c : Char) : t ≠ .unknown c := by
  rintro rfl
  exact h

end Moves

/-- What a reading remembers of the tokens that it has read. -/
structure Follows (r : Reading) (tokens : List Token) : Prop where
  awaiting : r.awaiting = true → ∀ t ∈ tokens.getLast?, t.Leads
  complete : r.awaiting = false → ∃ t ∈ tokens.getLast?, t.Completes
  seen : r.seen = true ↔ ∃ value, .number value ∈ tokens
  openGroups : r.openGroups + (tokens.flatMap Token.parens).count ')' =
    (tokens.flatMap Token.parens).count '('
  never : NeverOverclosed (tokens.flatMap Token.parens)
  known : ∀ t ∈ tokens, ∀ c, t ≠ .unknown c
  inRange : ∀ value, .number value ∈ tokens → value < FactSet.width

namespace Follows

theorem start : Follows {} [] where
  awaiting _ t ht := absurd ht (by simp)
  complete h := nomatch h
  seen := by simp
  openGroups := rfl
  never := neverOverclosed_nil
  known _ ht := absurd ht List.not_mem_nil
  inRange _ ht := absurd ht List.not_mem_nil

theorem openGroups_moves (h : r.Follows tokens) (hr : r.Moves r' t) :
    r'.openGroups + ((tokens ++ [t]).flatMap Token.parens).count ')' =
      ((tokens ++ [t]).flatMap Token.parens).count '(' := by
  have hopen := h.openGroups
  have hmoves := hr.openGroups
  simp only [List.flatMap_append, List.flatMap_singleton, List.count_append]
  omega

/-- A step: a token that is read is added to what the reading remembers. -/
theorem moves (h : r.Follows tokens) (hr : r.Moves r' t) : r'.Follows (tokens ++ [t]) where
  awaiting hawait u hu := by
    rw [List.getLast?_concat, Option.mem_some] at hu
    exact hu ▸ hr.leads hawait
  complete hawait := ⟨t, by simp, hr.completes hawait⟩
  seen := by
    rw [hr.seen_iff, h.seen]
    simp [exists_or, eq_comm]
  openGroups := h.openGroups_moves hr
  never := by
    have hopen := h.openGroups_moves hr
    rw [List.flatMap_append, List.flatMap_singleton] at hopen ⊢
    have hconcat : ∀ c, r'.openGroups + (tokens.flatMap Token.parens ++ [c]).count ')' =
        (tokens.flatMap Token.parens ++ [c]).count '(' →
        NeverOverclosed (tokens.flatMap Token.parens ++ [c]) := by
      intro c hc
      apply h.never.concat
      unfold Overclosed
      omega
    cases t with
    | opening => exact hconcat '(' hopen
    | closing => exact hconcat ')' hopen
    | _ =>
        rw [Token.parens, List.append_nil]
        exact h.never
  known u hu c := by
    rcases List.mem_append.mp hu with hu | hu
    · exact h.known u hu c
    · rw [List.mem_singleton.mp hu]
      exact hr.known c
  inRange value hvalue := by
    rcases List.mem_append.mp hvalue with hvalue | hvalue
    · exact h.inRange value hvalue
    · rw [← List.mem_singleton.mp hvalue] at hr
      exact hr.1

/-- A run: all tokens that are read are added. -/
theorem takeAll (h : r.Follows tokens) (hr : r.takeAll found = .ok r') :
    r'.Follows (tokens ++ found.map Lexeme.token) := by
  induction found generalizing r tokens with
  | nil =>
      cases hr
      rw [List.map_nil, List.append_nil]
      exact h
  | cons l rest ih =>
      unfold Reading.takeAll at hr
      split at hr
      · next next hnext =>
          rw [List.map_cons, List.append_cons]
          exact ih (h.moves (moves_of_take hnext)) hr
      · contradiction

end Follows

/-- What a reading remembers of the characters that it has read. -/
structure Stands (r : Reading) (front : List Char) : Prop where
  awaiting : r.awaiting = true → ∀ c ∈ lastVisible front, c ∈ ['(', '&', '|']
  complete : r.awaiting = false → ∃ c ∈ lastVisible front, c.isDigit = true ∨ c = ')'
  seen : r.seen = true ↔ ∃ c ∈ front, c.isDigit = true
  openGroups : r.openGroups + front.count ')' = front.count '('
  never : NeverOverclosed front
  legible : ∀ c ∈ front, Legible c
  inRange : ∀ before digits, IsRun front before digits → numeral digits < FactSet.width

theorem Follows.stands {front : List Char} (h : r.Follows ((lexemes front).map Lexeme.token)) :
    r.Stands front := by
  have hspelled := spelled_lexemes front
  have hparens := hspelled.filter_isParen
  rw [filter_isParen_visible] at hparens
  constructor
  · intro hawait c hc
    rw [lastVisible] at hc
    rcases hspelled.getLast? with ⟨-, hnone⟩ | ⟨t, d, ht, hd, hshows⟩
    · rw [hnone] at hc
      contradiction
    · rw [hd, Option.mem_some] at hc
      exact (h.awaiting hawait t ht).mem (hc ▸ hshows)
  · intro hawait
    obtain ⟨t, ht, hcompletes⟩ := h.complete hawait
    rcases hspelled.getLast? with ⟨hnone, -⟩ | ⟨u, d, hu, hd, hshows⟩
    · rw [hnone] at ht
      contradiction
    · rw [hu, Option.mem_some] at ht
      exact ⟨d, hd, hcompletes.isDigit_or (ht ▸ hshows)⟩
  · rw [h.seen]
    constructor
    · rintro ⟨value, hvalue⟩
      obtain ⟨c, hc, hdigit⟩ := hspelled.exists_char _ hvalue
      exact ⟨c, (mem_visible.mp hc).1, hdigit⟩
    · rintro ⟨c, hc, hdigit⟩
      obtain ⟨t, ht, hshows⟩ :=
        hspelled.exists_token c (mem_visible.mpr ⟨hc, isBlank_eq_false_of_isDigit hdigit⟩)
      obtain ⟨value, rfl⟩ := hshows.exists_number hdigit
      exact ⟨value, ht⟩
  · have hopen := h.openGroups
    rwa [← hparens, List.count_filter (by decide), List.count_filter (by decide)] at hopen
  · have hnever := h.never
    rw [← hparens] at hnever
    exact hnever.of_filter
  · intro c hc
    cases hblank : Text.isBlank c with
    | true => exact .inl hblank
    | false =>
        obtain ⟨t, ht, hshows⟩ := hspelled.exists_token c (mem_visible.mpr ⟨hc, hblank⟩)
        exact hshows.legible (h.known t ht)
  · intro before digits hrun
    have hlt := h.inRange _ (List.mem_map_of_mem hrun.mem_lexemes)
    rwa [min_ceiling_eq hlt] at hlt

end Reading

end Verdict
