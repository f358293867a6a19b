/-!
# Fact sets

A fact is a number below `FactSet.width`. A fact set is one word with a bit for each fact, and it
is used as a set: membership, union, inclusion and the empty set are bit operations. The main
statements are `ext`, two sets with the same members are equal, and `subset_iff`, the word test
for inclusion says that every member of the one is a member of the other.

## Implementation notes

Numbers that come from outside are checked once, by `Fact.ofId`; from there on a fact is in range
by its type.
-/

namespace Verdict

/-- The number of facts that a fact set has room for. -/
abbrev FactSet.width : Nat := 64

/-- A fact, known by its number. -/
abbrev Fact := Fin FactSet.width

/-- A number that is too large to be a fact. -/
structure OutOfRange where
  id : Nat
  deriving DecidableEq, Repr

/-- The wording of the refusal. -/
def OutOfRange.message (e : OutOfRange) : String :=
  "Proposition " ++ toString e.id ++ " out of range (must be below " ++
    toString FactSet.width ++ ")"

namespace Fact

/-- The fact with a given number, if there is one. -/
def ofId (id : Nat) : Except OutOfRange Fact :=
  if h : id < FactSet.width then .ok ⟨id, h⟩ else .error ⟨id⟩

theorem ofId_eq_ok_iff {id : Nat} {f : Fact} : ofId id = .ok f ↔ id = f.val := by
  unfold ofId
  split
  · simp [Fin.ext_iff]
  · next h => simp only [reduceCtorEq, false_iff]; omega

theorem ofId_eq_error_iff {id : Nat} {e : OutOfRange} :
    ofId id = .error e ↔ FactSet.width ≤ id ∧ e = ⟨id⟩ := by
  unfold ofId
  split
  · simp only [reduceCtorEq, false_iff]; omega
  · next h => simp only [Except.error.injEq, eq_comm, Nat.le_of_not_lt h, true_and]

@[simp] theorem ofId_val (f : Fact) : ofId f.val = .ok f := ofId_eq_ok_iff.mpr rfl

end Fact

/-- A set of facts, as a word in which bit `i` stands for fact `i`. -/
structure FactSet where
  bits : BitVec FactSet.width
  deriving DecidableEq, Repr

namespace FactSet

/-- The word of a set as a number. -/
def toNat (s : FactSet) : Nat := s.bits.toNat

/-- The set whose word is a given number, if the number fits in a word. -/
def ofNat? (n : Nat) : Option FactSet :=
  if n < UInt64.size then some ⟨BitVec.ofNat width n⟩ else none

theorem toNat_lt (s : FactSet) : s.toNat < UInt64.size := s.bits.isLt

theorem ofNat?_toNat (s : FactSet) : ofNat? s.toNat = some s := by
  rw [ofNat?, if_pos s.toNat_lt, toNat, BitVec.ofNat_toNat, BitVec.setWidth_eq]

/-- Fact `f` is in `s` when its bit is set. -/
instance : Membership Fact FactSet := ⟨fun s f => s.bits.getLsbD f.val = true⟩

instance (s : FactSet) (f : Fact) : Decidable (f ∈ s) :=
  inferInstanceAs (Decidable (s.bits.getLsbD f.val = true))

theorem mem_def {s : FactSet} {f : Fact} : f ∈ s ↔ s.bits.getLsbD f.val = true := Iff.rfl

/-- The set without members. -/
instance : EmptyCollection FactSet := ⟨⟨BitVec.zero width⟩⟩

instance : Union FactSet := ⟨fun s t => ⟨s.bits ||| t.bits⟩⟩

instance : Inter FactSet := ⟨fun s t => ⟨s.bits &&& t.bits⟩⟩

instance : Singleton Fact FactSet := ⟨fun f => ⟨BitVec.twoPow width f.val⟩⟩

instance : Insert Fact FactSet := ⟨fun f s => {f} ∪ s⟩

/-- A set lies in another when meeting it with the other leaves it as it is. -/
instance : HasSubset FactSet := ⟨fun s t => s ∩ t = s⟩

instance (s t : FactSet) : Decidable (s ⊆ t) := inferInstanceAs (Decidable (s ∩ t = s))

@[simp] theorem bits_empty : (∅ : FactSet).bits = BitVec.zero width := rfl

@[simp] theorem bits_union (s t : FactSet) : (s ∪ t).bits = s.bits ||| t.bits := rfl

@[simp] theorem bits_inter (s t : FactSet) : (s ∩ t).bits = s.bits &&& t.bits := rfl

@[simp] theorem bits_singleton (f : Fact) :
    ({f} : FactSet).bits = BitVec.twoPow width f.val := rfl

@[ext] theorem ext {s t : FactSet} (h : ∀ f : Fact, f ∈ s ↔ f ∈ t) : s = t := by
  have hbits : s.bits = t.bits := by
    apply BitVec.eq_of_getLsbD_eq
    intro i hi
    exact Bool.eq_iff_iff.mpr (h ⟨i, hi⟩)
  cases s
  cases t
  exact congrArg FactSet.mk hbits

@[simp] theorem not_mem_empty (f : Fact) : f ∉ (∅ : FactSet) := by
  rw [mem_def, bits_empty, BitVec.zero_eq, BitVec.getLsbD_zero]
  exact Bool.false_ne_true

@[simp] theorem mem_union {s t : FactSet} {f : Fact} : f ∈ s ∪ t ↔ f ∈ s ∨ f ∈ t := by
  rw [mem_def, bits_union, BitVec.getLsbD_or, Bool.or_eq_true]
  exact Iff.rfl

@[simp] theorem mem_inter {s t : FactSet} {f : Fact} : f ∈ s ∩ t ↔ f ∈ s ∧ f ∈ t := by
  rw [mem_def, bits_inter, BitVec.getLsbD_and, Bool.and_eq_true]
  exact Iff.rfl

@[simp] theorem mem_singleton {f g : Fact} : f ∈ ({g} : FactSet) ↔ f = g := by
  rw [mem_def, bits_singleton, BitVec.getLsbD_twoPow, Fin.ext_iff]
  simp [eq_comm]

@[simp] theorem mem_insert {f g : Fact} {s : FactSet} :
    f ∈ (insert g s : FactSet) ↔ f = g ∨ f ∈ s :=
  mem_union.trans (or_congr mem_singleton Iff.rfl)

theorem subset_iff {s t : FactSet} : s ⊆ t ↔ ∀ f : Fact, f ∈ s → f ∈ t := by
  change s ∩ t = s ↔ _
  constructor
  · intro h f hf
    rw [← h] at hf
    exact (mem_inter.mp hf).2
  · intro h
    ext f
    rw [mem_inter]
    exact ⟨And.left, fun hf => ⟨hf, h f hf⟩⟩

/-- Add the facts with the given numbers to a set, stopping at the first number out of range. -/
def insertIds (s : FactSet) (ids : List Nat) : Except OutOfRange FactSet :=
  ids.foldlM (fun t id => (Fact.ofId id).map (insert · t)) s

/-- The set of the facts with the given numbers. -/
def ofIds (ids : List Nat) : Except OutOfRange FactSet := insertIds ∅ ids

@[simp] theorem insertIds_nil (s : FactSet) : s.insertIds [] = .ok s := rfl

theorem insertIds_cons (s : FactSet) (id : Nat) (ids : List Nat) :
    s.insertIds (id :: ids) =
      match Fact.ofId id with
      | .ok f => (insert f s : FactSet).insertIds ids
      | .error e => .error e := by
  cases h : Fact.ofId id <;> simp [insertIds, h, Except.map, bind, Except.bind]

end FactSet

end Verdict
