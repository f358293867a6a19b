import Mathlib.Logic.Function.Iterate
import Verdict.Formula.Walk

/-!
# A walk, one step at a time

A walk goes through moments. At each it either visits a formula or hands a value to the frames
that wait, and it rests when a value is handed to no frame. Every moment has an outcome, the value
that `loop` gives when it is entered there, and a bound on the steps that are left. A step keeps
the outcome and uses up some of the bound, so every walk comes to rest, with the value of `run`.
-/

namespace Verdict.Walk

variable {α : Type} (w : Walk α)

/-- A moment of a walk. -/
inductive Moment (α : Type) where
  /-- A formula is to be visited, and its value goes to the frames. -/
  | visit (e : Formula) (frames : List (Frame α))
  /-- A value goes to the frames. -/
  | hand (a : α) (frames : List (Frame α))

/-- The moment after a moment. The left operand is visited first; its value decides whether the
right one is. -/
def step : Moment α → Moment α
  | .visit (.fact f) frames => .hand (w.leaf f) frames
  | .visit (.join c left right) frames => .visit left (.right c right :: frames)
  | .hand a (.right c operand :: frames) =>
      match w.shortcut c a with
      | some b => .hand b frames
      | none => .visit operand (.join c a :: frames)
  | .hand a (.join c b :: frames) => .hand (w.join c b a) frames
  | .hand a [] => .hand a []

/-- The value that the loop gives from a moment on. -/
def outcome : Moment α → α
  | .visit e frames => w.loop e frames
  | .hand a frames =>
      match w.resume a frames with
      | .inl b => b
      | .inr (e, rest) => w.loop e rest

/-- The number of steps that a frame may still cause. -/
def Frame.work : Frame α → Nat
  | right _ operand => 3 * operand.size + 2
  | join _ _ => 1

/-- The number of steps that may still follow a moment. -/
def Moment.work : Moment α → Nat
  | visit e frames => 3 * e.size + workload Frame.work frames
  | hand _ frames => workload Frame.work frames

/-- The loop takes these steps: from the next moment on it gives the same value. -/
theorem outcome_step (m : Moment α) : w.outcome (w.step m) = w.outcome m := by
  match m with
  | .visit (.fact f) frames =>
      simp only [step, outcome]
      rw [loop]
      cases w.resume (w.leaf f) frames with
      | inl b => rfl
      | inr next => rfl
  | .visit (.join c left right) frames =>
      simp only [step, outcome]
      rw [loop.eq_2]
  | .hand a (.right c operand :: frames) =>
      simp only [step, outcome, resume]
      cases w.shortcut c a with
      | some b => rfl
      | none => rfl
  | .hand a (.join c b :: frames) => rfl
  | .hand a [] => rfl

theorem work_step_lt (m : Moment α) (h : 0 < m.work) : (w.step m).work < m.work := by
  match m with
  | .visit (.fact f) frames =>
      simp only [step, Moment.work, Formula.size]
      omega
  | .visit (.join c left right) frames =>
      simp only [step, Moment.work, Frame.work, Formula.size, workload_cons]
      omega
  | .hand a (.right c operand :: frames) =>
      simp only [step]
      cases w.shortcut c a with
      | some b =>
          simp only [Moment.work, Frame.work, workload_cons]
          omega
      | none =>
          simp only [Moment.work, Frame.work, workload_cons]
          omega
  | .hand a (.join c b :: frames) =>
      simp only [step, Moment.work, Frame.work, workload_cons]
      omega
  | .hand a [] => exact absurd h (Nat.lt_irrefl 0)

/-- With no work left a walk rests with its outcome. -/
theorem eq_hand_of_work_eq_zero {m : Moment α} (h : m.work = 0) : m = .hand (w.outcome m) [] := by
  match m with
  | .visit e frames =>
      have := e.size_pos
      simp only [Moment.work] at h
      omega
  | .hand a (.right c operand :: frames) =>
      simp only [Moment.work, Frame.work, workload_cons] at h
      omega
  | .hand a (.join c b :: frames) =>
      simp only [Moment.work, Frame.work, workload_cons] at h
      omega
  | .hand a [] => rfl

/-- From every moment a walk comes to rest within its work, with the outcome of that moment. -/
theorem exists_iterate_step (m : Moment α) :
    ∃ n ≤ m.work, w.step^[n] m = .hand (w.outcome m) [] := by
  induction hwork : m.work using Nat.strongRecOn generalizing m with
  | ind work ih =>
    rcases Nat.eq_zero_or_pos m.work with hzero | hpos
    · exact ⟨0, Nat.zero_le _, w.eq_hand_of_work_eq_zero hzero⟩
    · have hlt := w.work_step_lt m hpos
      obtain ⟨n, hn, hrest⟩ := ih _ (hwork ▸ hlt) (w.step m) rfl
      refine ⟨n + 1, by omega, ?_⟩
      calc
        w.step^[n + 1] m = w.step^[n] (w.step m) := Function.iterate_succ_apply ..
        _ = .hand (w.outcome (w.step m)) [] := hrest
        _ = .hand (w.outcome m) [] := by rw [outcome_step]

/-- The walk over a formula comes to rest with its value within three steps for each part. -/
theorem exists_iterate_step_run (e : Formula) :
    ∃ n ≤ 3 * e.size, w.step^[n] (.visit e []) = .hand (w.run e) [] :=
  w.exists_iterate_step (.visit e [])

end Verdict.Walk
