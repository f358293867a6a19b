import Mathlib.Data.List.ReduceOption
import Verdict.Proofs.Unwinding

/-!
# What the stacks of a reading stand for

The lexemes read so far are cut along the stack of waiting connectives. Every connective closes a
piece to its left, which is a row it may continue, and every open group begins the cut anew. What
follows the last entry is either nothing, when an operand is awaited, or the piece that was read
last. `Pending` and `Held` are these two cuts, and `HasRead` says that a reading is at one of them.

A piece is a phrase of the grammar, and its formula lies on the stack of operands, or it is a group
of nothing and left no operand. So a cut has a slot for every piece, `none` for a group of nothing,
and the operands are the formulas in the slots. A group of nothing is only passed over while no
number has been read, so no formula lies below an empty slot; this is why a connective beside such
a group always finds too few operands, and why a reading with an empty slot never succeeds.
-/

namespace Verdict

/-- No number has been read. -/
def Unnumbered (found : List Lexeme) : Prop := ∀ l ∈ found, ∀ value, l.token ≠ .number value

theorem Unnumbered.nil : Unnumbered [] := by
  intro l hl
  exact absurd hl List.not_mem_nil

theorem Unnumbered.left {found more : List Lexeme} (h : Unnumbered (found ++ more)) :
    Unnumbered found := by
  intro l hl
  exact h l (List.mem_append_left _ hl)

theorem Unnumbered.right {found more : List Lexeme} (h : Unnumbered (found ++ more)) :
    Unnumbered more := by
  intro l hl
  exact h l (List.mem_append_right _ hl)

theorem Unnumbered.snoc {found : List Lexeme} {l : Lexeme} (h : Unnumbered found)
    (hl : ∀ value, l.token ≠ .number value) : Unnumbered (found ++ [l]) := by
  intro l' hl'
  rcases List.mem_append.mp hl' with hmem | hmem
  · exact h l' hmem
  · rw [List.mem_singleton.mp hmem]
    exact hl

theorem Derives.not_unnumbered {a : Category} {piece : List Lexeme} {e : Formula}
    (h : Derives a (piece.map Lexeme.token) e) : ¬ Unnumbered piece := by
  intro hpiece
  obtain ⟨value, hv⟩ := h.exists_number
  obtain ⟨l, hl, ht⟩ := List.mem_map.mp hv
  exact hpiece l hl value ht

/-- A group of nothing, in any number of further parentheses. -/
inductive Hollow : List Token → Prop where
  | bare : Hollow [.opening, .closing]
  | group {tokens} (inner : Hollow tokens) : Hollow (.opening :: tokens ++ [.closing])

/-- Somewhere a group is closed right after it was opened. -/
def HasBareGroup (tokens : List Token) : Prop := [.opening, .closing] <:+: tokens

theorem HasBareGroup.append_left {tokens : List Token} (h : HasBareGroup tokens)
    (before : List Token) : HasBareGroup (before ++ tokens) :=
  h.trans (List.suffix_append _ _).isInfix

theorem HasBareGroup.append_right {tokens : List Token} (h : HasBareGroup tokens)
    (after : List Token) : HasBareGroup (tokens ++ after) :=
  h.trans (List.prefix_append _ _).isInfix

theorem Hollow.hasBareGroup {tokens : List Token} (h : Hollow tokens) : HasBareGroup tokens := by
  induction h with
  | bare => exact List.infix_refl _
  | group _ ih => exact (ih.append_left [.opening]).append_right _

/-- A connective stands at this position right after a group of nothing, and no number stands
before the group. -/
def Starved (position : Nat) (found : List Lexeme) : Prop :=
  ∃ c before piece after, found = before ++ piece ++ ⟨.connective c, position⟩ :: after ∧
    Hollow (piece.map Lexeme.token) ∧ Unnumbered before

/-- What may stand in the slot of a piece that was read after the lexemes `before`. -/
inductive Fills (a : Category) (before piece : List Lexeme) : Option Formula → Prop where
  | phrase {e} (h : Derives a (piece.map Lexeme.token) e) : Fills a before piece (some e)
  | hollow (h : Hollow (piece.map Lexeme.token)) (hbefore : Unnumbered before) :
      Fills a before piece none

/-- The cut of what was read when an operand is awaited. -/
inductive Pending : List Waiting → List (Option Formula) → List Lexeme → Prop where
  | start : Pending [] [] []
  | group {waiting slots found} (position : Nat) (below : Pending waiting slots found) :
      Pending (.group position :: waiting) slots (found ++ [⟨.opening, position⟩])
  | connective {waiting slots before piece slot} (c : Connective) (position : Nat)
      (below : Pending waiting slots before) (hadmits : Admits c.row.rank waiting)
      (hfills : Fills c.row before piece slot) :
      Pending (.connective c position :: waiting) (slot :: slots)
        (before ++ piece ++ [⟨.connective c, position⟩])

/-- The cut of what was read when the last piece is of category `a`. -/
inductive Held (a : Category) : List Waiting → List (Option Formula) → List Lexeme → Prop where
  | mk {waiting slots before piece slot} (below : Pending waiting slots before)
      (hadmits : Admits a.rank waiting) (hfills : Fills a before piece slot) :
      Held a waiting (slot :: slots) (before ++ piece)

/-- Without a number there is no operand. -/
theorem Pending.operands_eq_nil {waiting : List Waiting} {slots : List (Option Formula)}
    {found : List Lexeme} (h : Pending waiting slots found) (hfound : Unnumbered found) :
    slots.reduceOption = [] := by
  induction h with
  | start => rfl
  | group position below ih => exact ih hfound.left
  | connective c position below hadmits hfills ih =>
      cases hfills with
      | phrase hphrase => exact absurd hfound.left.right hphrase.not_unnumbered
      | hollow => exact ih hfound.left.left

theorem Held.weaken {a b : Category} {waiting : List Waiting} {slots : List (Option Formula)}
    {found : List Lexeme} (h : Held a waiting slots found) (hle : b.rank ≤ a.rank)
    (hadmits : Admits b.rank waiting) : Held b waiting slots found := by
  obtain ⟨below, -, hfills⟩ := h
  refine ⟨below, hadmits, ?_⟩
  cases hfills with
  | phrase hphrase => exact .phrase (hphrase.weaken hle)
  | hollow hhollow hbefore => exact .hollow hhollow hbefore

/-- A connective closes the piece to its left. -/
theorem Held.connective {c : Connective} {waiting : List Waiting} {slots : List (Option Formula)}
    {found : List Lexeme} (h : Held c.row waiting slots found) (position : Nat) :
    Pending (.connective c position :: waiting) slots (found ++ [⟨.connective c, position⟩]) := by
  obtain ⟨below, hadmits, hfills⟩ := h
  exact .connective c position below hadmits hfills

/-- A parenthesis closes the group that its piece stands in, and the group is an operand. -/
theorem Held.close {position stop : Nat} {waiting : List Waiting}
    {slots : List (Option Formula)} {found : List Lexeme}
    (h : Held .orExpr (.group position :: waiting) slots found) :
    Held .operand waiting slots (found ++ [⟨.closing, stop⟩]) := by
  cases h with
  | @mk _ _ piece _ below _ hfills =>
      cases below with
      | @group _ _ before _ below =>
          have hassoc : before ++ [⟨.opening, position⟩] ++ piece ++ [⟨.closing, stop⟩] =
              before ++ (⟨.opening, position⟩ :: piece ++ [⟨.closing, stop⟩]) := by simp
          rw [hassoc]
          refine ⟨below, admits_operand _, ?_⟩
          cases hfills with
          | phrase hphrase => exact .phrase (by simpa using hphrase.group)
          | hollow hhollow hbefore => exact .hollow (by simpa using hhollow.group) hbefore.left

/-- Two pieces with a connective between them make one piece. -/
theorem Held.join {a : Category} {c : Connective} {position : Nat} {waiting : List Waiting}
    {slots : List (Option Formula)} {left right : Formula} {found : List Lexeme}
    (h : Held a (.connective c position :: waiting) (some right :: some left :: slots) found) :
    Held c.row waiting (some (.join c left right) :: slots) found := by
  cases h with
  | @mk _ _ last _ below habove hright =>
      cases below with
      | @connective _ _ before piece _ _ _ below hadmits hleft =>
          have hassoc : before ++ piece ++ [⟨.connective c, position⟩] ++ last =
              before ++ (piece ++ ⟨.connective c, position⟩ :: last) := by simp
          rw [hassoc]
          refine ⟨below, hadmits, ?_⟩
          obtain ⟨hleft⟩ := hleft
          obtain ⟨hright⟩ := hright
          have hitem : Derives c.item (last.map Lexeme.token) right := by
            apply hright.weaken
            rw [Connective.rank_item]
            exact habove
          exact .phrase (by simpa using hleft.join c hitem)

/-- Only a group of nothing starves a connective of its operands: either both slots beside the
connective have a formula, or fewer than two operands are left. -/
theorem Held.slots_of_connective {a : Category} {c : Connective} {position : Nat}
    {waiting : List Waiting} {slots : List (Option Formula)} {found : List Lexeme}
    (h : Held a (.connective c position :: waiting) slots found) :
    (∃ left right rest, slots = some right :: some left :: rest) ∨
      Starved position found ∧ slots.reduceOption.length < 2 := by
  cases h with
  | @mk _ _ last slot below _ hright =>
      cases below with
      | @connective _ rest before piece _ _ _ below _ hleft =>
          cases hleft with
          | hollow hhollow hbefore =>
              refine .inr ⟨⟨c, before, piece, last, by simp, hhollow, hbefore⟩, ?_⟩
              have hnone : (none :: rest).reduceOption = [] := by
                rw [List.reduceOption_cons_of_none, below.operands_eq_nil hbefore]
              cases slot with
              | none => simp [List.reduceOption_cons_of_none, hnone]
              | some e => simp [List.reduceOption_cons_of_some, hnone]
          | phrase hleft =>
              cases hright with
              | hollow _ hbefore => exact absurd hbefore.left.right hleft.not_unnumbered
              | phrase hright => exact .inl ⟨_, _, _, rfl⟩

/-- Reducing all that is due either leaves one piece of the category it was due for, or fails at a
connective that a group of nothing starved. -/
theorem Held.unwind {a b : Category} {waiting : List Waiting} {slots : List (Option Formula)}
    {found : List Lexeme} (h : Held a waiting slots found) (hle : b.rank ≤ a.rank)
    (reductions : List Reduction) :
    (∃ s slots', Stacks.unwind b.due waiting slots.reduceOption reductions = .ok s ∧
      s.operands = slots'.reduceOption ∧ Held b s.waiting slots' found) ∨
    ∃ position made, Starved position found ∧
      Stacks.unwind b.due waiting slots.reduceOption reductions =
        .error ⟨.missingOperand position, made⟩ := by
  induction waiting generalizing a slots reductions with
  | nil => exact .inl ⟨_, slots, Stacks.unwind_of_admits trivial, rfl, h.weaken hle trivial⟩
  | cons entry waiting ih =>
      by_cases hadmits : Admits b.rank (entry :: waiting)
      · exact .inl ⟨_, slots, Stacks.unwind_of_admits hadmits, rfl, h.weaken hle hadmits⟩
      obtain ⟨c, position, rfl, hdue⟩ := exists_connective_of_not_admits hadmits
      rcases h.slots_of_connective with ⟨left, right, rest, rfl⟩ | ⟨hstarved, hfew⟩
      · rw [List.reduceOption_cons_of_some, List.reduceOption_cons_of_some,
          Stacks.unwind_due hdue]
        rw [← Connective.rank_row] at hdue
        exact ih h.join hdue (⟨c, position⟩ :: reductions)
      · exact .inr ⟨position, reductions, hstarved, Stacks.unwind_starved hdue hfew⟩

theorem Held.admits {a : Category} {waiting : List Waiting} {slots : List (Option Formula)}
    {found : List Lexeme} (h : Held a waiting slots found) : Admits a.rank waiting := by
  obtain ⟨-, hadmits, -⟩ := h
  exact hadmits

/-- With nothing waiting and one operand, the whole of what was read is a phrase. -/
theorem Held.derives_of_nil {a : Category} {slots : List (Option Formula)} {found : List Lexeme}
    {e : Formula} (h : Held a [] slots found) (hslots : slots.reduceOption = [e]) :
    Derives a (found.map Lexeme.token) e := by
  obtain ⟨below, -, hfills⟩ := h
  cases below
  cases hfills with
  | phrase hphrase =>
      cases hslots
      exact hphrase
  | hollow => cases hslots

/-- The stacks of a reading stand for the lexemes `found`, cut into the given slots. -/
structure Reading.HasRead (r : Reading) (found : List Lexeme) (slots : List (Option Formula)) :
    Prop where
  operands : r.operands = slots.reduceOption
  pending : r.awaiting = true → Pending r.waiting slots found
  held : r.awaiting = false → Held .operand r.waiting slots found
  unnumbered : r.seen = false → Unnumbered found

namespace Reading.HasRead

variable {r r' : Reading} {found : List Lexeme} {slots : List (Option Formula)}

theorem start : HasRead {} [] [] where
  operands := rfl
  pending _ := .start
  held h := nomatch h
  unnumbered _ := .nil

theorem takeNumber {value position : Nat} (h : r.HasRead found slots)
    (hr : r.takeNumber value position = .ok r') :
    ∃ slots', r'.HasRead (found ++ [⟨.number value, position⟩]) slots' := by
  unfold Reading.takeNumber at hr
  split at hr
  · next hawait =>
      split at hr
      · next f hf =>
          cases hr
          cases Fact.ofId_eq_ok_iff.mp hf
          refine ⟨some (.fact f) :: slots, ?_⟩
          constructor
          · rw [List.reduceOption_cons_of_some, h.operands]
          · intro hpending
            contradiction
          · intro _
            exact ⟨h.pending hawait, admits_operand _, .phrase (.fact f)⟩
          · intro hseen
            contradiction
      · contradiction
  · cases hr

theorem takeOpening {position : Nat} (h : r.HasRead found slots)
    (hr : r.takeOpening position = .ok r') :
    r'.HasRead (found ++ [⟨.opening, position⟩]) slots := by
  unfold Reading.takeOpening at hr
  split at hr
  · next hawait =>
      cases hr
      constructor
      · exact h.operands
      · intro _
        exact (h.pending hawait).group position
      · intro hheld
        exact absurd hawait (Bool.eq_false_iff.mp hheld)
      · intro hseen
        exact (h.unnumbered hseen).snoc (by simp)
  · contradiction

/-- The group that is passed over fills a slot without an operand. -/
theorem passOver {position : Nat} (h : r.HasRead found slots) (hawait : r.awaiting = true)
    (hr : r.passOver position = .ok r') :
    r'.HasRead (found ++ [⟨.closing, position⟩]) (none :: slots) := by
  unfold Reading.passOver at hr
  split at hr
  · next start waiting hwaiting =>
      split at hr
      · contradiction
      · next hseen =>
          cases hr
          have hfound := h.unnumbered (Bool.eq_false_iff.mpr hseen)
          have hpending := h.pending hawait
          rw [hwaiting] at hpending
          constructor
          · rw [List.reduceOption_cons_of_none, h.operands]
          · intro hpending
            contradiction
          · intro _
            cases hpending with
            | group _ below =>
                rw [List.append_assoc]
                exact ⟨below, admits_operand _, .hollow .bare hfound.left⟩
          · intro _
            exact hfound.snoc (by simp)
  · contradiction

theorem closeGroup {position : Nat} (h : r.HasRead found slots) (hawait : r.awaiting = false)
    (hr : r.closeGroup position = .ok r') :
    ∃ slots', r'.HasRead (found ++ [⟨.closing, position⟩]) slots' := by
  unfold Reading.closeGroup at hr
  rw [← Category.due_orExpr, h.operands] at hr
  rcases (h.held hawait).unwind (Category.rank_orExpr_le _) r.reductions with
    ⟨s, slots', hunwind, hoperands, hheld⟩ | ⟨_, _, -, hunwind⟩
  · rw [hunwind] at hr
    split at hr
    · next start waiting operands reductions hs =>
        cases hr
        cases hs
        refine ⟨slots', ?_⟩
        constructor
        · exact hoperands
        · intro hpending
          exact absurd hpending (Bool.eq_false_iff.mp hawait)
        · intro _
          exact hheld.close
        · intro hseen
          exact (h.unnumbered hseen).snoc (by simp)
    · contradiction
    · cases hr
  · rw [hunwind] at hr
    contradiction

theorem takeClosing {position : Nat} (h : r.HasRead found slots)
    (hr : r.takeClosing position = .ok r') :
    ∃ slots', r'.HasRead (found ++ [⟨.closing, position⟩]) slots' := by
  unfold Reading.takeClosing at hr
  split at hr
  · contradiction
  · split at hr
    · next hawait => exact ⟨_, h.passOver hawait hr⟩
    · next hawait => exact h.closeGroup (Bool.eq_false_iff.mpr hawait) hr

theorem takeConnective {c : Connective} {position : Nat} (h : r.HasRead found slots)
    (hr : r.takeConnective c position = .ok r') :
    ∃ slots', r'.HasRead (found ++ [⟨.connective c, position⟩]) slots' := by
  unfold Reading.takeConnective at hr
  split at hr
  · contradiction
  · next hawait =>
      rw [Bool.not_eq_true] at hawait
      rw [← Connective.due_row, h.operands] at hr
      rcases (h.held hawait).unwind c.row.rank_le_operand r.reductions with
        ⟨s, slots', hunwind, hoperands, hheld⟩ | ⟨_, _, -, hunwind⟩
      · rw [hunwind] at hr
        cases hr
        refine ⟨slots', ?_⟩
        constructor
        · exact hoperands
        · intro _
          exact hheld.connective position
        · intro hheld
          contradiction
        · intro hseen
          exact (h.unnumbered hseen).snoc (by simp)
      · rw [hunwind] at hr
        contradiction

/-- A step: a lexeme that is read is added to what the stacks stand for. -/
theorem take {l : Lexeme} (h : r.HasRead found slots) (hr : r.take l = .ok r') :
    ∃ slots', r'.HasRead (found ++ [l]) slots' := by
  obtain ⟨t, position⟩ := l
  cases t with
  | number value => exact h.takeNumber hr
  | opening => exact ⟨_, h.takeOpening hr⟩
  | closing => exact h.takeClosing hr
  | connective c => exact h.takeConnective hr
  | unknown c => contradiction

/-- A run: all lexemes that are read are added. -/
theorem takeAll {more : List Lexeme} (h : r.HasRead found slots)
    (hr : r.takeAll more = .ok r') : ∃ slots', r'.HasRead (found ++ more) slots' := by
  induction more generalizing r found slots with
  | nil =>
      cases hr
      rw [List.append_nil]
      exact ⟨slots, h⟩
  | cons l rest ih =>
      unfold Reading.takeAll at hr
      split at hr
      · next next hnext =>
          obtain ⟨slots', hstep⟩ := h.take hnext
          rw [List.append_cons]
          exact ih hstep hr
      · contradiction

/-- What a reading ends with is a phrase for all that it has read. -/
theorem finish {length : Nat} {e : Formula} {made : List Reduction} (h : r.HasRead found slots)
    (hr : r.finish length = .ok (e, made)) : Derives .orExpr (found.map Lexeme.token) e := by
  unfold Reading.finish at hr
  split at hr
  · contradiction
  split at hr
  · contradiction
  next hawait =>
  rw [← Category.due_orExpr, h.operands] at hr
  rcases (h.held (Bool.eq_false_iff.mpr hawait)).unwind (Category.rank_orExpr_le _) r.reductions
    with ⟨s, slots', hunwind, hoperands, hheld⟩ | ⟨_, _, -, hunwind⟩
  · rw [hunwind] at hr
    split at hr
    · contradiction
    · cases hr
    · next waiting last reductions hgroup hs =>
        cases hr
        cases hs
        rcases waiting with _ | ⟨⟨position⟩ | ⟨c, position⟩, rest⟩
        · exact hheld.derives_of_nil hoperands.symm
        · exact absurd rfl (hgroup position rest)
        · exact absurd hheld.admits (not_admits_orExpr c)
    · contradiction
    · cases hr
  · rw [hunwind] at hr
    contradiction

end Reading.HasRead

end Verdict
