import Verdict.Proofs.Placed
import Verdict.Proofs.Unwinding

/-!
# Every phrase of the grammar is read

The lexemes of a phrase are read without an error from any reading that awaits an operand. Some
connectives of the phrase may still wait afterwards, so the statement is about the stacks once
everything due for the phrase's category is reduced: then there is just one more operand, the
formula of the phrase. `Yields` says so, each rule of the grammar preserves it, and the induction
over the derivation is `exists_yields`.
-/

namespace Verdict

namespace Reading

theorem takeAll_append {r r' : Reading} {found more : List Lexeme}
    (h : r.takeAll found = .ok r') : r.takeAll (found ++ more) = r'.takeAll more := by
  induction found generalizing r with
  | nil =>
      rw [takeAll] at h
      rw [List.nil_append, Except.ok.inj h]
  | cons l rest ih =>
      rw [List.cons_append]
      cases hl : r.take l with
      | ok next =>
          rw [takeAll, hl] at h
          rw [takeAll, hl]
          exact ih h
      | error refusal => simp [takeAll, hl] at h

theorem exists_of_takeAll_append {r s : Reading} {found more : List Lexeme}
    (h : r.takeAll (found ++ more) = .ok s) :
    ∃ r', r.takeAll found = .ok r' ∧ r'.takeAll more = .ok s := by
  induction found generalizing r with
  | nil => exact ⟨r, rfl, h⟩
  | cons l rest ih =>
      rw [List.cons_append, takeAll] at h
      cases hl : r.take l with
      | ok next =>
          rw [hl] at h
          obtain ⟨r', hrest, hmore⟩ := ih h
          refine ⟨r', ?_, hmore⟩
          rw [takeAll, hl]
          exact hrest
      | error refusal =>
          rw [hl] at h
          contradiction

/-- After `r'` the stacks of `r` have one more operand `e`, once all that is due for category `a`
is reduced; by then `made` has been reduced since `r`. -/
structure Adds (a : Category) (e : Formula) (made : List Reduction) (r r' : Reading) : Prop where
  awaiting : r'.awaiting = false
  seen : r'.seen = true
  openGroups : r'.openGroups = r.openGroups
  unwound : Stacks.unwind a.due r'.waiting r'.operands r'.reductions =
    .ok ⟨r.waiting, e :: r.operands, made.reverse ++ r.reductions⟩

/-- The lexemes are read as an operand of category `a` wherever such an operand may stand. -/
def Yields (a : Category) (found : List Lexeme) (e : Formula) (made : List Reduction) : Prop :=
  ∀ r : Reading, r.awaiting = true → Admits a.rank r.waiting →
    ∃ r', r.takeAll found = .ok r' ∧ Adds a e made r r'

theorem yields_number (f : Fact) (position : Nat) :
    Yields .operand [⟨.number f.val, position⟩] (.fact f) [] := by
  intro r hawait hadmits
  refine ⟨{ r with operands := .fact f :: r.operands, awaiting := false, seen := true }, ?_, ?_⟩
  · simp [takeAll, take, takeNumber, hawait]
  · constructor
    · rfl
    · rfl
    · rfl
    · exact Stacks.unwind_of_admits hadmits

theorem Yields.weaken {a b : Category} {found : List Lexeme} {e : Formula}
    {made : List Reduction} (h : Yields a found e made) (hle : b.rank ≤ a.rank) :
    Yields b found e made := by
  intro r hawait hadmits
  obtain ⟨r', hread, hadds⟩ := h r hawait (hadmits.mono hle)
  refine ⟨r', hread, hadds.awaiting, hadds.seen, hadds.openGroups, ?_⟩
  rw [Stacks.unwind_unwind hle hadds.unwound]
  exact Stacks.unwind_of_admits hadmits

/-- In parentheses a whole row is read as an operand. -/
theorem Yields.group {found : List Lexeme} {e : Formula} {made : List Reduction}
    (h : Yields .orExpr found e made) (start stop : Nat) :
    Yields .operand (⟨.opening, start⟩ :: found ++ [⟨.closing, stop⟩]) e made := by
  intro r hawait _
  let opened : Reading :=
    { r with waiting := .group start :: r.waiting, openGroups := r.openGroups + 1 }
  obtain ⟨inner, hread, hadds⟩ := h opened hawait trivial
  have hopen : r.take ⟨.opening, start⟩ = .ok opened := by
    simp [take, takeOpening, hawait, opened]
  let closed : Reading :=
    { inner with
      waiting := r.waiting
      operands := e :: r.operands
      reductions := made.reverse ++ r.reductions
      openGroups := r.openGroups }
  have hclose : inner.take ⟨.closing, stop⟩ = .ok closed := by
    have hunwound := hadds.unwound
    rw [Category.due_orExpr] at hunwound
    simp [take, takeClosing, closeGroup, hadds.openGroups, hadds.awaiting, hunwound, opened,
      closed]
  refine ⟨closed, ?_, hadds.awaiting, hadds.seen, rfl,
    Stacks.unwind_of_admits (admits_operand _)⟩
  calc
    r.takeAll (⟨.opening, start⟩ :: found ++ [⟨.closing, stop⟩])
      = opened.takeAll (found ++ [⟨.closing, stop⟩]) := by rw [List.cons_append, takeAll, hopen]
    _ = inner.takeAll [⟨.closing, stop⟩] := takeAll_append hread
    _ = .ok closed := by
      rw [takeAll, hclose]
      rfl

/-- A row and one more item are read as a longer row: the connective between them reduces the row
to its formula before it waits itself. -/
theorem Yields.join {c : Connective} {found more : List Lexeme} {left right : Formula}
    {made made' : List Reduction} (hrow : Yields c.row found left made)
    (hitem : Yields c.item more right made') (position : Nat) :
    Yields c.row (found ++ ⟨.connective c, position⟩ :: more) (.join c left right)
      (made ++ made' ++ [⟨c, position⟩]) := by
  intro r hawait hadmits
  obtain ⟨r₁, hread₁, hadds₁⟩ := hrow r hawait hadmits
  let r₂ : Reading :=
    { r₁ with
      waiting := .connective c position :: r.waiting
      operands := left :: r.operands
      reductions := made.reverse ++ r.reductions
      awaiting := true }
  have hconnective : r₁.take ⟨.connective c, position⟩ = .ok r₂ := by
    have hunwound := hadds₁.unwound
    rw [Connective.due_row] at hunwound
    simp [take, takeConnective, hadds₁.awaiting, hunwound, r₂]
  have hbelow : Admits c.item.rank r₂.waiting := by
    rw [Connective.rank_item]
    exact Nat.lt_succ_self _
  obtain ⟨r₃, hread₃, hadds₃⟩ := hitem r₂ rfl hbelow
  refine ⟨r₃, ?_, hadds₃.awaiting, hadds₃.seen, hadds₃.openGroups.trans hadds₁.openGroups, ?_⟩
  · rw [takeAll_append hread₁, takeAll, hconnective]
    exact hread₃
  · have hle : c.row.rank ≤ c.item.rank := by
      rw [Connective.rank_row, Connective.rank_item]
      exact Nat.le_succ _
    let last : Reduction := ⟨c, position⟩
    have hmade : (made ++ made' ++ [last]).reverse ++ r.reductions =
        last :: (made'.reverse ++ r₂.reductions) := by simp [r₂]
    rw [hmade]
    calc
      Stacks.unwind c.row.due r₃.waiting r₃.operands r₃.reductions
        = Stacks.unwind c.row.due r₂.waiting (right :: r₂.operands)
            (made'.reverse ++ r₂.reductions) := Stacks.unwind_unwind hle hadds₃.unwound
      _ = Stacks.unwind c.row.due r.waiting (.join c left right :: r.operands)
            (last :: (made'.reverse ++ r₂.reductions)) :=
          Stacks.unwind_due (Connective.rank_row c).le
      _ = .ok ⟨r.waiting, .join c left right :: r.operands,
            last :: (made'.reverse ++ r₂.reductions)⟩ := Stacks.unwind_of_admits hadmits

/-- A phrase is read wherever its category may stand, and its connectives are reduced each after
those of its operands. -/
theorem exists_yields {a : Category} {tokens : List Token} {e : Formula}
    (h : Derives a tokens e) {found : List Lexeme} (hfound : found.map Lexeme.token = tokens) :
    ∃ p : Placed, p.formula = e ∧ p.inorder = connectives found ∧
      Yields a found e p.postorder := by
  induction h using Derives.byRows generalizing found with
  | number f =>
      obtain ⟨⟨t, position⟩, rfl, ht⟩ := List.map_eq_singleton_iff.mp hfound
      cases ht
      exact ⟨.fact f, rfl, rfl, yields_number f position⟩
  | group _ ih =>
      obtain ⟨front, back, rfl, hfront, hback⟩ := List.map_eq_append_iff.mp hfound
      obtain ⟨⟨t, start⟩, inner, rfl, ht, hinner⟩ := List.map_eq_cons_iff.mp hfront
      obtain ⟨⟨t', stop⟩, rfl, ht'⟩ := List.map_eq_singleton_iff.mp hback
      cases ht
      cases ht'
      obtain ⟨p, hformula, hinorder, hyields⟩ := ih hinner
      refine ⟨p, hformula, ?_, hyields.group start stop⟩
      rw [connectives_append, hinorder]
      exact (List.append_nil _).symm
  | weaken _ hle ih =>
      obtain ⟨p, hformula, hinorder, hyields⟩ := ih hfound
      exact ⟨p, hformula, hinorder, hyields.weaken hle⟩
  | join _ _ ihl ihr =>
      obtain ⟨front, back, rfl, hfront, hback⟩ := List.map_eq_append_iff.mp hfound
      obtain ⟨⟨t, position⟩, more, rfl, ht, hmore⟩ := List.map_eq_cons_iff.mp hback
      cases ht
      obtain ⟨left, rfl, hleft, hrow⟩ := ihl hfront
      obtain ⟨right, rfl, hright, hitem⟩ := ihr hmore
      refine ⟨.join ⟨_, position⟩ left right, rfl, ?_, hrow.join hitem position⟩
      rw [connectives_append, connectives_cons, ← hleft, ← hright, Placed.inorder]

end Reading

end Verdict
