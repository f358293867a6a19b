import Verdict.Proofs.EmptyGroups
import Verdict.Proofs.RoundTrip

/-!
# What was read can be completed

A reading that has come some way is never at a loss: unless it has passed over an empty group,
there are tokens that make a phrase of what it has read. A number completes the piece that is
awaited, and parentheses close the groups that are open. `HasRead.exists_derives` says so of
lexemes, and `exists_parse_of_derives` writes such tokens down after the characters that were read.
-/

namespace Verdict

section Stacks

variable {a : Category} {waiting : List Waiting} {slots : List (Option Formula)}
  {found : List Lexeme}

theorem Held.exists_slots {c : Connective} {position : Nat}
    (h : Held a (.connective c position :: waiting) slots found) :
    ∃ right left rest, slots = right :: left :: rest := by
  obtain ⟨below, -, -⟩ := h
  cases below
  exact ⟨_, _, _, rfl⟩

/-- Closing the open groups makes a phrase of what was read. -/
theorem Held.exists_derives (h : Held a waiting slots found) (hslots : none ∉ slots) :
    ∃ n e, Derives .orExpr (found.map Lexeme.token ++ List.replicate n .closing) e := by
  -- Along the entries from the top: a group takes one parenthesis, a connective its two operands.
  induction waiting generalizing a slots found with
  | nil =>
      obtain ⟨below, -, hfills⟩ := h
      cases below
      cases hfills with
      | @phrase e hphrase =>
          refine ⟨0, e, ?_⟩
          simpa using hphrase.weaken a.rank_orExpr_le
      | hollow => simp at hslots
  | cons entry waiting ih =>
      cases entry with
      | group position =>
          have hrow : Held .orExpr (.group position :: waiting) slots found :=
            h.weaken a.rank_orExpr_le trivial
          have hclosed : Held .operand waiting slots (found ++ [⟨.closing, 0⟩]) := hrow.close
          obtain ⟨n, e, hderives⟩ := ih hclosed hslots
          refine ⟨n + 1, e, ?_⟩
          simpa [List.replicate_succ] using hderives
      | connective c position =>
          obtain ⟨right, left, rest, rfl⟩ := h.exists_slots
          cases right with
          | none => simp at hslots
          | some right =>
              cases left with
              | none => simp at hslots
              | some left => exact ih h.join (by simpa using hslots)

/-- Some tokens make a phrase of what a reading has read, if no group in it is empty. -/
theorem Reading.HasRead.exists_derives {r : Reading} (h : r.HasRead found slots)
    (hbare : ¬ HasBareGroup (found.map Lexeme.token)) :
    ∃ more e, Derives .orExpr (found.map Lexeme.token ++ more) e := by
  cases hawait : r.awaiting with
  | true =>
      have hpending := h.pending hawait
      have hnumber : Held .operand r.waiting (some (.fact 0) :: slots)
          (found ++ [⟨.number 0, 0⟩]) :=
        ⟨hpending, admits_operand _, .phrase (.fact 0)⟩
      have hslots : none ∉ some (Formula.fact 0) :: slots := by
        simpa using mt hpending.hasBareGroup hbare
      obtain ⟨n, e, hderives⟩ := hnumber.exists_derives hslots
      exact ⟨.number 0 :: List.replicate n .closing, e, by simpa using hderives⟩
  | false =>
      have hheld := h.held hawait
      obtain ⟨n, e, hderives⟩ := hheld.exists_derives (mt hheld.hasBareGroup hbare)
      exact ⟨_, e, hderives⟩

end Stacks

theorem Separated.right {left right : List Token} (h : Separated (left ++ right)) :
    Separated right where
  known t ht := h.known t (List.mem_append_right _ ht)
  apart := h.apart.right_of_append

namespace Formula

/-- Tokens that make a phrase of the lexemes of some characters can be written after them. -/
theorem exists_parse_of_derives {front : List Char} {more : List Token} {e : Formula}
    (h : Derives .orExpr ((lexemes front).map Lexeme.token ++ more) e) :
    ∃ text : String, front <+: text.toList ∧ parse text = .ok e := by
  obtain ⟨found, hlexed, hfound⟩ := h.separated.right.exists_lexed (front.length + 1)
  have hcapped : found.map Lexeme.capped = found := by
    apply Lexeme.map_capped
    intro l hl value ht
    have hlt : value < FactSet.width := by
      apply h.number_lt
      rw [← hfound, ← ht]
      exact List.mem_append_right _ (List.mem_map_of_mem hl)
    exact Nat.lt_of_le_of_lt (Nat.min_le_right _ _) hlt
  -- The blank keeps the last token before it apart from the first one after it.
  let text : String := .ofList (front ++ ' ' :: spelling more)
  have htext : text.toList = front ++ ' ' :: spelling more := String.toList_ofList
  have hlexemes : lexemes text.toList = lexemes front ++ found := by
    rw [htext, lexemes_append (Scan.before_of_ne (by decide) (by decide) _ _)
      (Lexed.blank isBlank_space hlexed), hcapped]
  refine ⟨text, ?_, ?_⟩
  · rw [htext]
    exact List.prefix_append _ _
  · rw [parse_eq_ok_iff_readLexemes, hlexemes]
    apply exists_readLexemes
    rwa [List.map_append, hfound]

end Formula

end Verdict
