import Mathlib.Data.List.Nodup
import Mathlib.Order.Bounds.Defs
import Verdict.Proofs.SoundStore

/-!
# When rules can be compiled

Rules can be compiled when no number is given twice and every text stands for a formula. Then the
rulebook has the rules in their order, each with the formula of its text. Otherwise the first rule
at fault decides the error, and a number that was given before counts before a text that cannot be
read. `Rulebook.Holds` says what a rulebook holds after some rules; adding a rule keeps it, and
`Rulebook.outcome_extend` follows the rules to their end or to the first one that is refused.
-/

namespace Verdict

namespace Rule

/-- Rules that can be compiled together. -/
structure Compilable (rules : List Rule) : Prop where
  nodup : (rules.map Rule.id).Nodup
  readable : ∀ rule ∈ rules, ∃ e, Formula.parse rule.expression = .ok e

/-- What is wrong with a rule after those before it. A number that was given before counts first. -/
inductive Refused (before : List Rule) (rule : Rule) : RulebookError → Prop where
  | duplicate (h : rule.id ∈ before.map Rule.id) : Refused before rule (.duplicate rule.id)
  | invalid {cause} (h : rule.id ∉ before.map Rule.id)
      (hparse : Formula.parse rule.expression = .error cause) :
      Refused before rule (.invalid rule.name cause)

/-- The rule at this place has a number that was given before, or a text that cannot be read. -/
def FaultyAt (rules : List Rule) (i : Nat) : Prop :=
  ∃ rule, rules[i]? = some rule ∧
    (rule.id ∈ (rules.take i).map Rule.id ∨
      ∃ cause, Formula.parse rule.expression = .error cause)

variable {rules before after : List Rule} {rule : Rule} {error : RulebookError} {i : Nat}

/-- Among rules that can be compiled none is at fault. -/
theorem Compilable.not_faultyAt (h : Compilable rules) (i : Nat) : ¬ FaultyAt rules i := by
  rintro ⟨rule, hget, hid | ⟨cause, hparse⟩⟩
  · obtain ⟨hi, rfl⟩ := List.getElem?_eq_some_iff.mp hget
    have hnodup := h.nodup
    rw [← List.take_append_drop i rules, List.drop_eq_getElem_cons hi, List.map_append,
      List.map_cons] at hnodup
    exact (List.nodup_append.mp hnodup).2.2 _ hid _ (List.mem_cons_self ..) rfl
  · obtain ⟨e, hok⟩ := h.readable rule (List.mem_of_getElem? hget)
    rw [hok] at hparse
    contradiction

/-- Whether a rule is at fault does not depend on the rules after it. -/
theorem FaultyAt.of_append (h : FaultyAt (before ++ after) i) (hi : i < before.length) :
    FaultyAt before i := by
  obtain ⟨rule, hget, hfault⟩ := h
  rw [List.getElem?_append_left hi] at hget
  rw [List.take_append_of_le_length (Nat.le_of_lt hi)] at hfault
  exact ⟨rule, hget, hfault⟩

theorem Refused.faultyAt (h : Refused before rule error) :
    FaultyAt (before ++ rule :: after) before.length := by
  refine ⟨rule, by simp, ?_⟩
  rw [List.take_left]
  cases h with
  | duplicate hid => exact .inl hid
  | invalid _ hparse => exact .inr ⟨_, hparse⟩

/-- The first rule that is refused is the first one at fault. -/
theorem Refused.isLeast (h : Refused before rule error) (hbefore : Compilable before) :
    IsLeast {i | FaultyAt (before ++ rule :: after) i} before.length := by
  refine ⟨h.faultyAt, fun i hfaulty => Nat.le_of_not_lt fun hlt => ?_⟩
  exact hbefore.not_faultyAt i (hfaulty.of_append hlt)

end Rule

namespace Rulebook

open Rule (Compilable Refused FaultyAt)

/-- The rulebook holds these rules in this order, each with the formula of its text, and knows
their numbers. -/
structure Holds (book : Rulebook) (rules : List Rule) : Prop where
  rules_eq : book.toList.map Clause.rule = rules
  formulas : ∀ clause ∈ book.toList,
    Formula.parse clause.rule.expression = .ok clause.shared.formula
  index : ∀ id, book.index.contains id = true ↔ id ∈ rules.map Rule.id
  nodup : (rules.map Rule.id).Nodup

/-- What compiling rules comes to: a rulebook that holds them, or the error of the first rule that
is refused. -/
inductive Outcome (rules : List Rule) : Except RulebookError Rulebook → Prop where
  | ok {book : Rulebook} (h : book.Holds rules) : Outcome rules (.ok book)
  | error {before after rule error} (hrules : rules = before ++ rule :: after)
      (hbefore : Compilable before) (h : Refused before rule error) :
      Outcome rules (.error error)

variable {store : Store} {book : Rulebook} {rules done : List Rule} {rule : Rule}

theorem holds_nil : Holds {} [] where
  rules_eq := rfl
  formulas _ h := absurd h List.not_mem_nil
  index id := by simp
  nodup := List.nodup_nil

theorem Holds.compilable (h : book.Holds rules) : Compilable rules where
  nodup := h.nodup
  readable rule hrule := by
    rw [← h.rules_eq] at hrule
    obtain ⟨clause, hclause, rfl⟩ := List.mem_map.mp hrule
    exact ⟨_, h.formulas clause hclause⟩

theorem toList_add (book : Rulebook) (clause : Clause) :
    (book.add clause).toList = book.toList ++ [clause] :=
  Array.toList_push

theorem contains_index_add (book : Rulebook) (clause : Clause) (id : UInt32) :
    (book.add clause).index.contains id = true ↔
      clause.rule.id = id ∨ book.index.contains id = true := by
  simp only [add, Std.TreeMap.contains_insert, Bool.or_eq_true, beq_iff_eq,
    Std.LawfulEqCmp.compare_eq_iff_eq]

/-- A step: a rule with a new number and a text that can be read is added at the end. -/
theorem Holds.add (h : book.Holds rules) {shared : Shared} (hid : rule.id ∉ rules.map Rule.id)
    (hparse : Formula.parse rule.expression = .ok shared.formula) :
    (book.add ⟨rule, shared⟩).Holds (rules ++ [rule]) where
  rules_eq := by rw [toList_add, List.map_append, h.rules_eq]; rfl
  formulas clause hclause := by
    rw [toList_add, List.mem_append, List.mem_singleton] at hclause
    rcases hclause with hclause | rfl
    · exact h.formulas clause hclause
    · exact hparse
  index id := by
    rw [contains_index_add, h.index, List.map_append, List.mem_append, List.map_singleton,
      List.mem_singleton, or_comm, eq_comm]
  nodup := by
    rw [List.map_append, List.map_singleton, ← List.concat_eq_append, List.nodup_concat]
    exact ⟨hid, h.nodup⟩

/-- A run: the rules that are left are added one after the other, until one is refused. -/
theorem outcome_extend (hstore : store.Sound) (hbook : book.Holds done) (rest : List Rule) :
    Outcome (done ++ rest) (extend book rest store).1 := by
  induction rest generalizing book done store with
  | nil =>
      rw [List.append_nil]
      exact .ok hbook
  | cons rule rest ih =>
      have hparse := hstore.map_fetch rule.expression
      have hsound := hstore.fetch rule.expression
      unfold extend
      split
      · next hknown => exact .error rfl hbook.compilable (.duplicate ((hbook.index _).mp hknown))
      · next hnew =>
          have hid : rule.id ∉ done.map Rule.id := fun hmem => hnew ((hbook.index _).mpr hmem)
          split
          · next hfetch =>
              rw [hfetch] at hparse hsound
              rw [List.append_cons]
              exact ih hsound (hbook.add hid hparse.symm)
          · next hfetch =>
              rw [hfetch] at hparse
              exact .error rfl hbook.compilable (.invalid hid hparse.symm)

theorem fst_compile (rules : List Rule) (store : Store) :
    (compile rules store).1 = (extend {} rules store).1 := by
  unfold compile
  split
  · next hok => rw [hok]
  · next herror => rw [herror]

theorem outcome_compile (hstore : store.Sound) (rules : List Rule) :
    Outcome rules (compile rules store).1 := by
  rw [fst_compile]
  exact outcome_extend hstore holds_nil rules

theorem holds_of_compile (hstore : store.Sound) (hbook : (compile rules store).1 = .ok book) :
    book.Holds rules := by
  have houtcome := outcome_compile hstore rules
  rw [hbook] at houtcome
  cases houtcome with
  | ok h => exact h

/-- Whatever was fetched before, rules are compiled exactly when their numbers are pairwise
different and all their texts can be read. A compiled rulebook has the rules in their order, each
with the formula of its text. Otherwise the first rule at fault decides: a number that was given
before is reported as such, whatever the text; else the error names the rule and says why its text
cannot be read. -/
theorem compile_or_first_fault (hstore : store.Reachable) (rules : List Rule) :
    ((∃ book, (compile rules store).1 = .ok book) ↔
      (rules.map Rule.id).Nodup ∧
        ∀ rule ∈ rules, ∃ e, Formula.parse rule.expression = .ok e) ∧
    (∀ book, (compile rules store).1 = .ok book →
      book.toList.map Clause.rule = rules ∧
        ∀ clause ∈ book.toList,
          Formula.parse clause.rule.expression = .ok clause.shared.formula) ∧
    ∀ error, (compile rules store).1 = .error error →
      ∃ i rule, rules[i]? = some rule ∧ IsLeast {j | FaultyAt rules j} i ∧
        (rule.id ∈ (rules.take i).map Rule.id → error = .duplicate rule.id) ∧
        (rule.id ∉ (rules.take i).map Rule.id →
          ∃ cause, Formula.parse rule.expression = .error cause ∧
            error = .invalid rule.name cause ∧
            error.message = "Invalid rule '" ++ rule.name ++ "': " ++ cause.message) := by
  have houtcome := outcome_compile hstore.sound rules
  generalize (compile rules store).1 = result at houtcome ⊢
  cases houtcome with
  | @ok book h =>
      refine ⟨?_, ?_, ?_⟩
      · exact ⟨fun _ => ⟨h.nodup, h.compilable.readable⟩, fun _ => ⟨book, rfl⟩⟩
      · rintro _ ⟨⟩
        exact ⟨h.rules_eq, h.formulas⟩
      · rintro _ ⟨⟩
  | @error before after rule error hrules hbefore h =>
      subst hrules
      have hleast : IsLeast {j | FaultyAt (before ++ rule :: after) j} before.length :=
        h.isLeast hbefore
      refine ⟨⟨?_, ?_⟩, ?_, ?_⟩
      · rintro ⟨_, ⟨⟩⟩
      · rintro ⟨hnodup, hreadable⟩
        exact absurd hleast.1 (Compilable.not_faultyAt ⟨hnodup, hreadable⟩ _)
      · rintro _ ⟨⟩
      · rintro _ ⟨⟩
        refine ⟨before.length, rule, by simp, hleast, ?_⟩
        rw [List.take_left]
        cases h with
        | duplicate hid => exact ⟨fun _ => rfl, fun hnew => absurd hid hnew⟩
        | @invalid cause hid hparse =>
            exact ⟨fun hknown => absurd hknown hid, fun _ => ⟨cause, hparse, rfl, rfl⟩⟩

/-- The second rule has the number of the first and a text that cannot be read. The number
counts. -/
theorem compile_repeated_number :
    (Session.after {} [.fetch "1 | 2"]).store.Reachable ∧
      (compile [⟨7, "first", "", "1 | 2"⟩, ⟨7, "second", "", "1 &"⟩]
        (Session.after {} [.fetch "1 | 2"]).store).1 = .error (.duplicate 7) := by
  have hstore : (Session.after {} [.fetch "1 | 2"]).store.Reachable := ⟨_, rfl⟩
  have hfirst : Formula.parse "1 | 2" = .ok (.join .or (.fact 1) (.fact 2)) := rfl
  refine ⟨hstore, ?_⟩
  obtain ⟨hok, -, herror⟩ :=
    compile_or_first_fault hstore [⟨7, "first", "", "1 | 2"⟩, ⟨7, "second", "", "1 &"⟩]
  rcases hresult : (compile _ _).1 with error | book
  · obtain ⟨i, rule, hget, hleast, hduplicate, -⟩ := herror error hresult
    have hi : i ≤ 1 := hleast.2 ⟨_, rfl, .inl (by decide)⟩
    -- The first rule is not at fault.
    have hne : i ≠ 0 := by
      rintro rfl
      obtain ⟨_, hget, hid | ⟨cause, hparse⟩⟩ := hleast.1
      · exact absurd hid List.not_mem_nil
      · cases hget
        rw [hfirst] at hparse
        contradiction
    obtain rfl : i = 1 := by omega
    cases hget
    rw [hduplicate (by decide)]
  · have hnodup := (hok.mp ⟨book, hresult⟩).1
    exact absurd hnodup (by decide)

end Rulebook

end Verdict
