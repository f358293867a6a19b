import Verdict.Formula.Basic

/-!
# Walks over a formula

A walk gives a formula a value from the values of its facts and operands, the left operand first.
It may be content with the value of the left operand and leave the right one alone. `Walk.run`
keeps the operands that are still to be visited in a list of frames, so its call stack does not
grow with the nesting; `Walk.recurse` is the same walk by recursion on the operands, and
`Walk.run_eq_recurse` says that the two agree on every formula.
-/

namespace Verdict

/-- How a walk values facts and joined operands. -/
structure Walk (α : Type) where
  /-- The value of a fact. -/
  leaf : Fact → α
  /-- The value of a joined formula when the value of its left operand settles it. -/
  shortcut : Connective → α → Option α := fun _ _ => none
  /-- The value of a joined formula from the values of both operands. -/
  join : Connective → α → α → α

namespace Walk

variable {α : Type} (w : Walk α)

/-- The walk by recursion on the operands. -/
def recurse : Formula → α
  | .fact f => w.leaf f
  | .join c left right =>
      let a := recurse left
      match w.shortcut c a with
      | some b => b
      | none => w.join c a (recurse right)

/-- What waits for the value of an operand. -/
inductive Frame (α : Type) where
  /-- The operand is a left one, and this is the right one. -/
  | right (c : Connective) (operand : Formula)
  /-- The operand is a right one, and the left one had this value. -/
  | join (c : Connective) (left : α)

/-- The size of what a frame has still to visit. -/
def Frame.pending : Frame α → Nat
  | right _ operand => operand.size
  | join _ _ => 0

/-- The size of what a list of frames has still to visit. -/
def pending : List (Frame α) → Nat
  | [] => 0
  | frame :: rest => frame.pending + pending rest

/-- Hand a value to the frames that wait for it, up to the first one with an operand to visit. -/
def resume (a : α) : List (Frame α) → α ⊕ Formula × List (Frame α)
  | [] => .inl a
  | .right c operand :: rest =>
      match w.shortcut c a with
      | some b => resume b rest
      | none => .inr (operand, .join c a :: rest)
  | .join c b :: rest => resume (w.join c b a) rest

theorem pending_of_resume {a : α} {frames : List (Frame α)} {e : Formula}
    {rest : List (Frame α)} (h : w.resume a frames = .inr (e, rest)) :
    e.size + pending rest ≤ pending frames := by
  induction frames generalizing a with
  | nil => simp [resume] at h
  | cons frame frames ih =>
      cases frame with
      | right c operand =>
          cases hs : w.shortcut c a with
          | none =>
              simp only [resume, hs, Sum.inr.injEq, Prod.mk.injEq] at h
              obtain ⟨rfl, rfl⟩ := h
              simp [pending, Frame.pending]
          | some b =>
              simp only [resume, hs] at h
              have := ih h
              simp only [pending]
              omega
      | join c b =>
          have := ih h
          simp only [pending]
          omega

/-- Walk a formula whose value the given frames wait for. -/
def loop (e : Formula) (frames : List (Frame α)) : α :=
  match e with
  | .fact f =>
      match _h : w.resume (w.leaf f) frames with
      | .inl a => a
      | .inr (next, rest) => loop next rest
  | .join c left right => loop left (.right c right :: frames)
termination_by e.size + pending frames
decreasing_by
  · have := w.pending_of_resume _h
    simp only [Formula.size]
    omega
  · simp only [Formula.size, pending, Frame.pending]
    omega

/-- The walk over a formula. -/
def run (e : Formula) : α := w.loop e []

/-- The value that comes out of a list of frames, by recursion. -/
def settle (a : α) : List (Frame α) → α
  | [] => a
  | .right c operand :: rest =>
      match w.shortcut c a with
      | some b => settle b rest
      | none => settle (w.join c a (w.recurse operand)) rest
  | .join c b :: rest => settle (w.join c b a) rest

private theorem settle_of_resume (a : α) (frames : List (Frame α)) :
    w.settle a frames =
      match w.resume a frames with
      | .inl b => b
      | .inr (e, rest) => w.settle (w.recurse e) rest := by
  induction frames generalizing a with
  | nil => rfl
  | cons frame frames ih =>
      cases frame with
      | right c operand =>
          cases hs : w.shortcut c a with
          | none => simp [settle, resume, hs]
          | some b => simpa [settle, resume, hs] using ih b
      | join c b => exact ih (w.join c b a)

theorem loop_eq_settle (e : Formula) (frames : List (Frame α)) :
    w.loop e frames = w.settle (w.recurse e) frames := by
  fun_induction loop w e frames with
  | case1 frames f a h => rw [recurse, settle_of_resume, h]
  | case2 frames f next rest h ih => rw [recurse, settle_of_resume, h, ih]
  | case3 frames c left right ih =>
      rw [ih, settle, recurse]
      cases w.shortcut c (w.recurse left) <;> rfl

theorem run_eq_recurse (e : Formula) : w.run e = w.recurse e := w.loop_eq_settle e []

end Walk

namespace Formula

/-- A formula built anew from its facts and connectives. -/
def copy (e : Formula) : Formula := Walk.run { leaf := .fact, join := .join } e

/-- The facts that occur in a formula. -/
def facts (e : Formula) : FactSet :=
  Walk.run { leaf := fun f => {f}, join := fun _ s t => s ∪ t } e

end Formula

end Verdict
