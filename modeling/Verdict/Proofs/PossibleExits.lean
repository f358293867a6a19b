import Verdict.Proofs.Progress
import Verdict.Proofs.StackCounts

/-!
# The exits that are possible

A reading has more ways to give up than texts can lead to. `Exit.Possible` lists those that remain,
after a number of groups of nothing that were discarded: where the stacks fit together a closing
parenthesis finds its group, exactly one operand is left at the end, and only a discarded group can
have cost a connective its operand. Each of the functions that read gives up in a possible way, and
so does the reading of a text. `Formula.stacks_fit` puts this beside what holds of the stacks at
every point of a text.
-/

namespace Verdict

/-- The exits that a reading may take after it has discarded `n` groups of nothing. -/
def Exit.Possible (n : Nat) : Exit → Prop
  | refused _ | unclosed _ => True
  | underflow _ => 0 < n
  | reducedGroup _ | noGroup _ | noOperand | leftOver _ => False

namespace Reading.Fits

variable {r : Reading} {l : Lexeme} {halt : Halt} {stops : Waiting → Bool} {position length n : Nat}

theorem possible_of_ofRefusal {α : Type} {read : Except Refusal α}
    (hr : read.mapError Halt.ofRefusal = .error halt) : halt.exit.Possible n := by
  cases read with
  | ok a => contradiction
  | error refusal =>
      rw [← Except.error.inj hr]
      trivial

/-- Reducing gives up only after a group was discarded. -/
theorem possible_of_unwind (h : r.Fits n) (hawait : r.awaiting = false)
    (due : Connective → Bool) (hgroup : ∀ position, stops (.group position) = true)
    (hdue : ∀ c position, stops (.connective c position) = !due c)
    (hr : Exits.unwind stops r.waiting r.operands r.reductions = .error halt) :
    halt.exit.Possible n := by
  obtain ⟨place, hplace⟩ := Exits.exists_underflow_of_unwind hgroup hr
  have herased : (Exits.unwind stops r.waiting r.operands r.reductions).mapError Halt.refusal =
      Stacks.unwind due r.waiting r.operands r.reductions := Exits.refusal_unwind hgroup hdue
  rw [hr] at herased
  rw [hplace]
  exact h.pos_of_unwind_eq_error hawait herased.symm

theorem unwound_of_exits {s : Stacks}
    (hr : Exits.unwind Waiting.isGroup r.waiting r.operands r.reductions = .ok s) :
    Stacks.Unwound (fun _ => true) r.waiting r.operands s := by
  have herased := Exits.refusal_unwind_isGroup r.toStacks
  rw [hr] at herased
  exact Stacks.unwound_of_unwind herased.symm

theorem possible_of_closeGroup (h : r.Fits n) (hopen : r.openGroups ≠ 0)
    (hawait : r.awaiting = false) (hr : Exits.closeGroup r position = .error halt) :
    halt.exit.Possible n := by
  unfold Exits.closeGroup at hr
  split at hr
  · contradiction
  · next operands reductions hunwind =>
      have hgroups := (unwound_of_exits hunwind).groups
      rw [← h.openGroups] at hgroups
      exact absurd hgroups.symm hopen
  · next halt' hunwind =>
      rw [← Except.error.inj hr]
      exact h.possible_of_unwind hawait (fun _ => true) (fun _ => rfl) (fun _ _ => rfl) hunwind

theorem possible_of_takeClosing (h : r.Fits n)
    (hr : Exits.takeClosing r position = .error halt) : halt.exit.Possible n := by
  unfold Exits.takeClosing at hr
  split at hr
  · rw [← Except.error.inj hr]
    trivial
  next hopen =>
  split at hr
  · exact possible_of_ofRefusal hr
  · next hawait => exact h.possible_of_closeGroup hopen (Bool.eq_false_iff.mpr hawait) hr

theorem possible_of_takeConnective {c : Connective} (h : r.Fits n)
    (hr : Exits.takeConnective r c position = .error halt) : halt.exit.Possible n := by
  unfold Exits.takeConnective at hr
  split at hr
  · rw [← Except.error.inj hr]
    trivial
  next hawait =>
  split at hr
  · contradiction
  · next halt' hunwind =>
      rw [← Except.error.inj hr]
      exact h.possible_of_unwind (Bool.eq_false_iff.mpr hawait) _ (fun _ => rfl)
        (Waiting.staysBelow_connective c) hunwind

theorem possible_of_take (h : r.Fits n) (hr : Exits.take r l = .error halt) :
    halt.exit.Possible n := by
  obtain ⟨t, start⟩ := l
  cases t with
  | number value => exact possible_of_ofRefusal hr
  | opening => exact possible_of_ofRefusal hr
  | closing => exact h.possible_of_takeClosing hr
  | connective c => exact h.possible_of_takeConnective hr
  | unknown c =>
      rw [← Except.error.inj hr]
      trivial

theorem possible_of_takeAll {found : List Lexeme} (h : r.Fits n)
    (hr : Exits.takeAll r found = .error halt) : halt.exit.Possible (n + r.discarded found) := by
  induction found generalizing r n with
  | nil => contradiction
  | cons l rest ih =>
      have herased := Exits.refusal_take r l
      unfold Exits.takeAll at hr
      split at hr
      · next next hnext =>
          rw [hnext] at herased
          rw [discarded, ← herased]
          simp only [Except.mapError]
          rw [← Nat.add_assoc]
          exact ih (h.take herased.symm) hr
      · next halt' hhalt =>
          rw [hhalt] at herased
          rw [discarded, ← herased, ← Except.error.inj hr]
          exact h.possible_of_take hhalt

theorem possible_of_finish (h : r.Fits n) (hr : Exits.finish r length = .error halt) :
    halt.exit.Possible n := by
  unfold Exits.finish at hr
  split at hr
  · rw [← Except.error.inj hr]
    trivial
  next hseen =>
  split at hr
  · rw [← Except.error.inj hr]
    trivial
  next hawait =>
  rw [Bool.not_eq_true] at hawait
  rw [Classical.not_not] at hseen
  have hoperands := h.operands_of_complete hawait
  split at hr
  · rw [← Except.error.inj hr]
    trivial
  · next reductions hunwind =>
      exact absurd rfl ((unwound_of_exits hunwind).operands_ne_nil (h.seen hseen))
  · contradiction
  · next operands reductions hnone hsingle hunwind =>
      have hbalance := (unwound_of_exits hunwind).balance
      match operands, hnone, hsingle, hbalance with
      | [], hnone, _, _ => exact absurd rfl hnone
      | [e], _, hsingle, _ => exact absurd rfl (hsingle e)
      | _ :: _ :: rest, _, _, hbalance =>
          simp only [List.length_cons, Waiting.connectives_nil] at hbalance
          omega
  · next halt' hunwind =>
      rw [← Except.error.inj hr]
      exact h.possible_of_unwind hawait (fun _ => true) (fun _ => rfl) (fun _ _ => rfl) hunwind

/-- What a text can run into: the exits that are possible after the groups that were discarded
before. -/
theorem possible_of_readLexemes {found : List Lexeme}
    (hr : Exits.readLexemes found length = .error halt) :
    halt.exit.Possible (Reading.discarded {} found) := by
  unfold Exits.readLexemes at hr
  split at hr
  · rw [← Except.error.inj hr]
    trivial
  · split at hr
    · next r htakeAll =>
        have herased := Exits.refusal_takeAll {} found
        rw [htakeAll] at herased
        have hfits := Fits.start.takeAll herased.symm
        rw [Nat.zero_add] at hfits
        exact hfits.possible_of_finish hr
    · next halt' hhalt =>
        have hpossible := Fits.start.possible_of_takeAll hhalt
        rw [Nat.zero_add] at hpossible
        rw [← Except.error.inj hr]
        exact hpossible

end Reading.Fits

/-- What was read before a point between two lexemes is a beginning of the text. -/
theorem exists_front {text : List Char} {found more : List Lexeme}
    (h : lexemes text = found ++ more) :
    ∃ front rest, text = front ++ rest ∧ lexemes front = found := by
  cases more with
  | nil => exact ⟨text, [], (List.append_nil _).symm, h.trans (List.append_nil _)⟩
  | cons l after =>
      obtain ⟨front, word, rest, hat⟩ := exists_word h
      exact ⟨front, word ++ rest, hat.text_eq, hat.lexemes_front⟩

/-- At every point of a text between two lexemes, as long as none was refused, the number of open
groups is that of the groups on the stack, and that of the parentheses opened less those closed.
Between two groups, above the topmost and below the first, the connectives on the stack bind ever
tighter, so at most an `or` waits with an `and` above it. Operands and discarded groups together are
as many as the connectives, and one more after an operand. So of the places where the reading of a
text might give up some are never reached: a closing parenthesis that finds no group, no operand or
several at the end, and an open group that is reduced. And a connective lacks an operand only if a
group was discarded before. -/
theorem Formula.stacks_fit (text : String) :
    (∀ found more r, lexemes text.toList = found ++ more → Reading.takeAll {} found = .ok r →
      r.openGroups = Waiting.groups r.waiting ∧
      (∃ front rest, text.toList = front ++ rest ∧ lexemes front = found ∧
        r.openGroups + front.count ')' = front.count '(') ∧
      Ascending r.waiting ∧
      (∀ row, row <:+: r.waiting → (∀ entry ∈ row, entry.isGroup = false) →
        (row.filterMap Waiting.connective?).Sublist [.and, .or]) ∧
      r.operands.length + Reading.discarded {} found =
        Waiting.connectives r.waiting + if r.awaiting then 0 else 1) ∧
    (Exits.readLexemes (lexemes text.toList) text.length).mapError Halt.refusal =
      readLexemes (lexemes text.toList) text.length ∧
    ∀ halt, Exits.readLexemes (lexemes text.toList) text.length = .error halt →
      halt.exit.Possible (Reading.discarded {} (lexemes text.toList)) := by
  refine ⟨?_, Exits.refusal_readLexemes _ _, fun halt => Reading.Fits.possible_of_readLexemes⟩
  intro found more r hfound hr
  have hfits := Reading.Fits.start.takeAll hr
  rw [Nat.zero_add] at hfits
  obtain ⟨front, rest, htext, hfront⟩ := exists_front hfound
  have hfollows : r.Follows ((lexemes front).map Lexeme.token) :=
    hfront ▸ Reading.Follows.start.takeAll hr
  exact ⟨hfits.openGroups, ⟨front, rest, htext, hfront, hfollows.stands.openGroups⟩,
    hfits.ascending, fun row hrow hgroup => hfits.ascending.row_sublist hrow hgroup,
    hfits.operands⟩

/-- After `((()) & 2` a group is open, and the connective in it has one operand and a group that was
discarded. The parenthesis that follows finds the connective without its left operand. -/
theorem Formula.stacks_fit_starved :
    let found : List Lexeme :=
      [⟨.opening, 0⟩, ⟨.opening, 1⟩, ⟨.opening, 2⟩, ⟨.closing, 3⟩, ⟨.closing, 4⟩,
        ⟨.connective .and, 6⟩, ⟨.number 2, 8⟩]
    let more : List Lexeme := [⟨.closing, 9⟩, ⟨.connective .or, 11⟩, ⟨.number 3, 13⟩]
    let r : Reading := {
      waiting := [.connective .and 6, .group 0], operands := [.fact 2], awaiting := false,
      seen := true, openGroups := 1 }
    lexemes "((()) & 2) | 3".toList = found ++ more ∧ Reading.takeAll {} found = .ok r ∧
      r.openGroups = Waiting.groups r.waiting ∧ Reading.discarded {} found = 1 ∧
      Exits.readLexemes (lexemes "((()) & 2) | 3".toList) 14 = .error ⟨.underflow 6, []⟩ ∧
      0 < Reading.discarded {} (lexemes "((()) & 2) | 3".toList) := by
  intro found more r
  have hsplit : lexemes "((()) & 2) | 3".toList = found ++ more := rfl
  have hread : Reading.takeAll {} found = .ok r := rfl
  have hexit : Exits.readLexemes (lexemes "((()) & 2) | 3".toList) 14 =
      .error ⟨.underflow 6, []⟩ := rfl
  obtain ⟨hpoints, -, hexits⟩ := stacks_fit "((()) & 2) | 3"
  exact ⟨hsplit, hread, (hpoints found more r hsplit hread).1, rfl, hexit, hexits _ hexit⟩

end Verdict
