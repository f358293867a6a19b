import Verdict.Proofs.Exits

/-!
# How the stacks of a reading fit together

Three things hold of the stacks between any two lexemes. The number of open groups that a reading
keeps is that of the groups on the stack. Between two groups the connectives that wait bind ever
tighter, so there are two of them at most. And every connective but the last one read has its left
operand on the other stack, where a group of nothing that was discarded counts for an operand it did
not leave.

`Reading.Fits` says so after a number of discarded groups. A lexeme keeps it, by what reducing does
to the stacks, and so does a run. As long as no group was discarded there are more operands than
connectives when anything is reduced, so that no connective lacks one.
-/

namespace Verdict

/-! ### Stacks -/

namespace Waiting

/-- The connective that an entry is. -/
def connective? : Waiting → Option Connective
  | connective c _ => some c
  | group _ => none

/-- How many groups are on the stack. -/
def groups (waiting : List Waiting) : Nat := waiting.countP isGroup

/-- How many connectives are on the stack. -/
def connectives (waiting : List Waiting) : Nat := waiting.countP fun entry => !entry.isGroup

variable (c : Connective) (position : Nat) (waiting : List Waiting)

@[simp] theorem connectives_nil : connectives [] = 0 := rfl

@[simp] theorem groups_group : groups (group position :: waiting) = groups waiting + 1 :=
  List.countP_cons_of_pos rfl

@[simp] theorem groups_connective : groups (connective c position :: waiting) = groups waiting :=
  List.countP_cons_of_neg Bool.false_ne_true

@[simp] theorem connectives_group :
    connectives (group position :: waiting) = connectives waiting :=
  List.countP_cons_of_neg Bool.false_ne_true

@[simp] theorem connectives_connective :
    connectives (connective c position :: waiting) = connectives waiting + 1 :=
  List.countP_cons_of_pos rfl

end Waiting

/-- From every open group on, and from the bottom, each connective binds tighter than the one
below. -/
def Ascending : List Waiting → Prop
  | [] => True
  | .group _ :: waiting => Ascending waiting
  | .connective c _ :: waiting => Admits c.precedence waiting ∧ Ascending waiting

namespace Ascending

variable {above row below waiting : List Waiting}

theorem of_append (h : Ascending (above ++ below)) : Ascending below := by
  induction above with
  | nil => exact h
  | cons entry above ih =>
      cases entry with
      | group position => exact ih h
      | connective c position => exact ih h.2

theorem of_suffix (h : Ascending waiting) (hbelow : below <:+ waiting) : Ascending below := by
  obtain ⟨above, rfl⟩ := hbelow
  exact h.of_append

/-- Between two groups at most an `or` waits with an `and` above it. -/
theorem row_sublist (h : Ascending waiting) (hrow : row <:+: waiting)
    (hgroup : ∀ entry ∈ row, entry.isGroup = false) :
    (row.filterMap Waiting.connective?).Sublist [.and, .or] := by
  obtain ⟨above, below, rfl⟩ := hrow
  rw [List.append_assoc] at h
  replace h := h.of_append
  match row, hgroup with
  | [], _ => exact List.nil_sublist _
  | .group _ :: _, hgroup => simp [Waiting.isGroup] at hgroup
  | [.connective c _], _ => cases c <;> simp [Waiting.connective?]
  | .connective _ _ :: .group _ :: _, hgroup => simp [Waiting.isGroup] at hgroup
  | [.connective c _, .connective d _], _ =>
      have hdc : d.precedence < c.precedence := h.1
      cases c <;> cases d <;> simp_all [Connective.precedence, Waiting.connective?]
  | .connective c _ :: .connective d _ :: .group _ :: _, hgroup => simp [Waiting.isGroup] at hgroup
  | .connective c _ :: .connective d _ :: .connective e _ :: _, _ =>
      have hdc : d.precedence < c.precedence := h.1
      have hed : e.precedence < d.precedence := h.2.1
      cases c <;> cases d <;> cases e <;> simp_all [Connective.precedence]

end Ascending

namespace Stacks

variable {due : Connective → Bool} {waiting : List Waiting} {operands : List Formula}
  {reductions : List Reduction} {s : Stacks}

/-- What reducing does to the two stacks. -/
structure Unwound (due : Connective → Bool) (waiting : List Waiting) (operands : List Formula)
    (s : Stacks) : Prop where
  suffix : s.waiting <:+ waiting
  groups : Waiting.groups s.waiting = Waiting.groups waiting
  /-- A connective and an operand go at a time. -/
  balance : s.operands.length + Waiting.connectives waiting =
    operands.length + Waiting.connectives s.waiting
  operands_ne_nil : operands ≠ [] → s.operands ≠ []
  stays : ∀ c position below, s.waiting = .connective c position :: below → due c = false

theorem unwound_of_unwind (h : unwind due waiting operands reductions = .ok s) :
    Unwound due waiting operands s := by
  fun_induction unwind due waiting operands reductions with
  | case1 c position waiting reductions hdue right left rest ih =>
      have hrest := ih h
      have hbalance := hrest.balance
      rw [List.length_cons] at hbalance
      constructor
      · exact hrest.suffix.trans (List.suffix_cons _ _)
      · rw [hrest.groups, Waiting.groups_connective]
      · rw [Waiting.connectives_connective, List.length_cons, List.length_cons]
        omega
      · exact fun _ => hrest.operands_ne_nil (List.cons_ne_nil _ _)
      · exact hrest.stays
  | case2 => contradiction
  | case3 c position waiting operands reductions hdue =>
      rw [← Except.ok.inj h]
      constructor
      · exact List.suffix_refl _
      · rfl
      · rfl
      · exact id
      · rintro d start below ⟨⟩
        exact Bool.eq_false_iff.mpr hdue
  | case4 waiting operands reductions hnone =>
      rw [← Except.ok.inj h]
      constructor
      · exact List.suffix_refl _
      · rfl
      · rfl
      · exact id
      · rintro d start below rfl
        exact absurd rfl (hnone d start below)

/-- Reducing what binds as tightly as a connective leaves only what binds less tightly. -/
theorem Unwound.admits {c : Connective}
    (h : Unwound (fun d => c.precedence ≤ d.precedence) waiting operands s) :
    Admits c.precedence s.waiting := by
  have hstays := h.stays
  match s.waiting, hstays with
  | [], _ => trivial
  | .group _ :: _, _ => trivial
  | .connective d start :: below, hstays =>
      exact Nat.lt_of_not_le (of_decide_eq_false (hstays d start below rfl))

/-- With more operands than connectives, reducing succeeds. -/
theorem exists_unwind (due : Connective → Bool) (reductions : List Reduction)
    (h : Waiting.connectives waiting < operands.length) :
    ∃ s, unwind due waiting operands reductions = .ok s := by
  fun_induction unwind due waiting operands reductions with
  | case1 c position waiting reductions hdue right left rest ih =>
      apply ih
      simp only [Waiting.connectives_connective, List.length_cons] at h ⊢
      omega
  | case2 c position waiting operands reductions hdue hfew =>
      rw [Waiting.connectives_connective] at h
      obtain _ | ⟨right, _ | ⟨left, rest⟩⟩ := operands
      · contradiction
      · simp at h
      · exact absurd rfl (hfew right left rest)
  | case3 => exact ⟨_, rfl⟩
  | case4 => exact ⟨_, rfl⟩

end Stacks

/-! ### Readings -/

namespace Reading

/-- How many groups of nothing a lexeme discards, when it is read: a closing parenthesis where an
operand is awaited discards one. -/
def discards (r : Reading) (l : Lexeme) : Nat :=
  if l.token = .closing ∧ r.awaiting = true then 1 else 0

/-- How many groups of nothing are discarded before a lexeme is refused. -/
def discarded : Reading → List Lexeme → Nat
  | _, [] => 0
  | r, l :: rest =>
      match r.take l with
      | .ok r' => r.discards l + r'.discarded rest
      | .error _ => 0

/-- The stacks of a reading that has discarded `n` groups of nothing. -/
structure Fits (r : Reading) (n : Nat) : Prop where
  openGroups : r.openGroups = Waiting.groups r.waiting
  ascending : Ascending r.waiting
  operands : r.operands.length + n =
    Waiting.connectives r.waiting + if r.awaiting then 0 else 1
  seen : r.seen = true → r.operands ≠ []

variable {r r' : Reading} {l : Lexeme} {position n : Nat}

namespace Fits

theorem start : Fits {} 0 where
  openGroups := rfl
  ascending := trivial
  operands := rfl
  seen h := nomatch h

theorem operands_of_awaiting (h : r.Fits n) (hawait : r.awaiting = true) :
    r.operands.length + n = Waiting.connectives r.waiting := by
  simpa [hawait] using h.operands

theorem operands_of_complete (h : r.Fits n) (hawait : r.awaiting = false) :
    r.operands.length + n = Waiting.connectives r.waiting + 1 := by
  simpa [hawait] using h.operands

theorem takeNumber {value : Nat} (h : r.Fits n) (hr : r.takeNumber value position = .ok r') :
    r'.Fits n := by
  unfold Reading.takeNumber at hr
  split at hr
  · next hawait =>
      have hoperands := h.operands_of_awaiting hawait
      split at hr
      · cases hr
        constructor
        · exact h.openGroups
        · exact h.ascending
        · simp only [List.length_cons, Bool.false_eq_true, if_false]
          omega
        · exact fun _ => List.cons_ne_nil _ _
      · contradiction
  · contradiction

theorem takeOpening (h : r.Fits n) (hr : r.takeOpening position = .ok r') : r'.Fits n := by
  unfold Reading.takeOpening at hr
  split at hr
  · cases hr
    constructor
    · rw [Waiting.groups_group, h.openGroups]
    · exact h.ascending
    · rw [Waiting.connectives_group]
      exact h.operands
    · exact h.seen
  · contradiction

/-- The group that is discarded counts for an operand. -/
theorem passOver (h : r.Fits n) (hawait : r.awaiting = true)
    (hr : r.passOver position = .ok r') : r'.Fits (n + 1) := by
  have hopen := h.openGroups
  have hascending := h.ascending
  have hoperands := h.operands_of_awaiting hawait
  unfold Reading.passOver at hr
  split at hr
  · next start waiting hwaiting =>
      rw [hwaiting] at hopen hascending hoperands
      rw [Waiting.groups_group] at hopen
      rw [Waiting.connectives_group] at hoperands
      split at hr
      · contradiction
      · cases hr
        constructor
        · exact Nat.sub_eq_of_eq_add hopen
        · exact hascending
        · exact congrArg (· + 1) hoperands
        · exact h.seen
  · contradiction

theorem closeGroup (h : r.Fits n) (hawait : r.awaiting = false)
    (hr : r.closeGroup position = .ok r') : r'.Fits n := by
  have hopen := h.openGroups
  have hoperands := h.operands_of_complete hawait
  unfold Reading.closeGroup at hr
  split at hr
  · next start waiting operands reductions hunwind =>
      cases hr
      have hunwound := Stacks.unwound_of_unwind hunwind
      have hgroups := hunwound.groups
      have hbalance := hunwound.balance
      simp only [Waiting.groups_group, Waiting.connectives_group] at hgroups hbalance
      constructor
      · exact Nat.sub_eq_of_eq_add (hopen.trans hgroups.symm)
      · exact h.ascending.of_suffix ((List.suffix_cons _ _).trans hunwound.suffix)
      · simp only [hawait, Bool.false_eq_true, if_false]
        omega
      · exact fun hseen => hunwound.operands_ne_nil (h.seen hseen)
  · contradiction
  · contradiction

theorem takeConnective {c : Connective} (h : r.Fits n)
    (hr : r.takeConnective c position = .ok r') : r'.Fits n := by
  unfold Reading.takeConnective at hr
  split at hr
  · contradiction
  next hawait =>
  have hoperands := h.operands_of_complete (Bool.eq_false_iff.mpr hawait)
  split at hr
  · next s hunwind =>
      cases hr
      have hunwound := Stacks.unwound_of_unwind hunwind
      have hbalance := hunwound.balance
      constructor
      · rw [Waiting.groups_connective, hunwound.groups]
        exact h.openGroups
      · exact ⟨hunwound.admits, h.ascending.of_suffix hunwound.suffix⟩
      · simp only [Waiting.connectives_connective, if_true]
        omega
      · exact fun hseen => hunwound.operands_ne_nil (h.seen hseen)
  · contradiction

theorem takeClosing (h : r.Fits n) (hr : r.takeClosing position = .ok r') :
    r'.Fits (n + r.discards ⟨.closing, position⟩) := by
  unfold Reading.takeClosing at hr
  split at hr
  · contradiction
  · split at hr
    · next hawait =>
        rw [discards, if_pos ⟨rfl, hawait⟩]
        exact h.passOver hawait hr
    · next hawait =>
        rw [discards, if_neg fun hclosing => hawait hclosing.2]
        exact h.closeGroup (Bool.eq_false_iff.mpr hawait) hr

/-- A step: the stacks fit together after each lexeme. -/
theorem take (h : r.Fits n) (hr : r.take l = .ok r') : r'.Fits (n + r.discards l) := by
  obtain ⟨t, start⟩ := l
  cases t with
  | number value => exact h.takeNumber hr
  | opening => exact h.takeOpening hr
  | closing => exact h.takeClosing hr
  | connective c => exact h.takeConnective hr
  | unknown c => contradiction

/-- A run: the stacks fit together as long as no lexeme is refused. -/
theorem takeAll {found : List Lexeme} (h : r.Fits n) (hr : r.takeAll found = .ok r') :
    r'.Fits (n + r.discarded found) := by
  induction found generalizing r n with
  | nil =>
      rw [← Except.ok.inj hr]
      exact h
  | cons l rest ih =>
      unfold Reading.takeAll at hr
      split at hr
      · next next hnext =>
          rw [discarded, hnext]
          simp only
          rw [← Nat.add_assoc]
          exact ih (h.take hnext) hr
      · contradiction

/-- As long as no group was discarded, no connective lacks an operand. -/
theorem pos_of_unwind_eq_error {due : Connective → Bool} {refusal : Refusal} (h : r.Fits n)
    (hawait : r.awaiting = false)
    (hr : Stacks.unwind due r.waiting r.operands r.reductions = .error refusal) : 0 < n := by
  apply Nat.pos_of_ne_zero
  rintro rfl
  have hoperands := h.operands_of_complete hawait
  obtain ⟨s, hs⟩ := Stacks.exists_unwind due r.reductions
    (show Waiting.connectives r.waiting < r.operands.length by omega)
  rw [hs] at hr
  contradiction

end Fits

end Reading

end Verdict
