import Verdict.Proofs.Answers
import Verdict.Proofs.RefusedRules
import Verdict.Proofs.RuleIndex
import Verdict.Proofs.Transparency

/-!
# The order of rules

Rules that are compiled in another order are refused or not all the same, though maybe with another
error. The rulebooks have the same clauses in two orders, up to serial numbers
(`Rulebook.Reordered`), so only the order of the matches tells them apart, and with it the first
match. The store has the same texts afterwards.
-/

namespace Verdict

namespace Rule

variable {rules others : List Rule}

theorem Compilable.perm (h : Compilable rules) (hperm : rules.Perm others) :
    Compilable others where
  nodup := (hperm.map Rule.id).nodup_iff.mp h.nodup
  readable rule hrule := h.readable rule (hperm.mem_iff.mpr hrule)

/-- The clause of a rule when its text is read anew. -/
def clause? (rule : Rule) : Option Clause :=
  match Formula.parse rule.expression with
  | .ok e => some ⟨rule, ⟨0, e⟩⟩
  | .error _ => none

end Rule

namespace Rulebook

open Rule (Compilable)

variable {store : Store} {book book' : Rulebook} {rules others : List Rule}

/-- The rulebooks have the same rules with the same formulas, in orders that may differ. -/
def Reordered (book book' : Rulebook) : Prop := book.plain.toList.Perm book'.plain.toList

theorem Indexed.plain (h : book.Indexed) : book.plain.Indexed := by
  intro id place
  have hplace : book.plain.index[id]? = book.index[id]? := rfl
  rw [hplace, h id place, toList_plain]
  simp [Clause.plain]

namespace Reordered

theorem allMatches (h : book.Reordered book') (held : FactSet) :
    (book.allMatches held).Perm (book'.allMatches held) := by
  have hmatches := h.filterMap (Clause.match? held)
  rw [toList_plain, toList_plain, List.filterMap_map, List.filterMap_map] at hmatches
  exact hmatches

/-- The justification is a union, so the order does not matter to it. -/
theorem justification (h : book.Reordered book') (held : FactSet) :
    book.justification held = book'.justification held := by
  ext f
  simp only [justification_eq_foldl_allMatches, mem_foldl_union, (h.allMatches held).mem_iff]

theorem get? (h : book.Reordered book') (hbook : book.Indexed) (hbook' : book'.Indexed)
    (id : UInt32) : (book.get? id).map Clause.plain = (book'.get? id).map Clause.plain := by
  rw [← get?_plain, ← get?_plain]
  ext clause
  rw [hbook.plain.get?_eq_some_iff, hbook'.plain.get?_eq_some_iff, h.mem_iff]

end Reordered

/-- The clauses of a rulebook are those of its rules when their texts are read anew. -/
theorem Holds.toList_plain (h : book.Holds rules) :
    book.plain.toList = rules.filterMap Rule.clause? := by
  rw [Rulebook.toList_plain, ← h.rules_eq, List.filterMap_map]
  symm
  apply List.filterMap_eq_map_iff_forall_eq_some.mpr
  intro clause hclause
  rw [Function.comp_apply, Rule.clause?, h.formulas clause hclause]
  rfl

theorem Holds.reordered (h : book.Holds rules) (h' : book'.Holds others)
    (hperm : rules.Perm others) : book.Reordered book' := by
  unfold Reordered
  rw [h.toList_plain, h'.toList_plain]
  exact hperm.filterMap Rule.clause?

/-- What compiling comes to when no rule is refused. -/
theorem exists_compile_eq (hstore : store.Sound) (hrules : Compilable rules) :
    ∃ book, compile rules store =
      (.ok book, (store.fetchAll (rules.map Rule.expression)).note (.compiled book.size)) := by
  obtain ⟨book, -, hextend⟩ :=
    exists_extend_append hstore holds_nil (by rwa [List.nil_append])
  have hdone := hextend []
  rw [List.append_nil] at hdone
  exact ⟨book, by rw [compile, hdone]; rfl⟩

theorem exists_compile_iff (hstore : store.Sound) :
    (∃ book, (compile rules store).1 = .ok book) ↔ Compilable rules := by
  constructor
  · rintro ⟨book, hbook⟩
    exact (holds_of_compile hstore hbook).compilable
  · intro hrules
    obtain ⟨book, hcompile⟩ := exists_compile_eq hstore hrules
    exact ⟨book, congrArg Prod.fst hcompile⟩

/-- After rules were compiled the store has their texts and those it had before. -/
theorem contains_compile_iff (hstore : store.Sound) (hrules : Compilable rules) (source : String) :
    (compile rules store).2.entries.contains source = true ↔
      store.entries.contains source = true ∨ source ∈ rules.map Rule.expression := by
  obtain ⟨book, hcompile⟩ := exists_compile_eq hstore hrules
  rw [hcompile]
  exact Store.contains_fetchAll_iff (List.forall_mem_map.mpr hrules.readable) source

/-- The same rules in two orders, compiled with the same store, whatever was fetched before: both
orders are compiled or none of them is. When they are, the justifications are the same and the
matches are the same up to their order, whatever facts hold. Looking a number up finds the same rule
with the same formula, or nothing in both. And the store has the same texts afterwards. -/
theorem compile_perm (hstore : store.Reachable) (hperm : rules.Perm others) :
    ((∃ book, (compile rules store).1 = .ok book) ↔
      ∃ book, (compile others store).1 = .ok book) ∧
    ∀ book book', (compile rules store).1 = .ok book → (compile others store).1 = .ok book' →
      (∀ held, book.justification held = book'.justification held) ∧
      (∀ held, (book.allMatches held).Perm (book'.allMatches held)) ∧
      (∀ id, (book.get? id).map Clause.plain = (book'.get? id).map Clause.plain) ∧
      ∀ source, (compile rules store).2.entries.contains source =
        (compile others store).2.entries.contains source := by
  have hsound := hstore.sound
  constructor
  · rw [exists_compile_iff hsound, exists_compile_iff hsound]
    exact ⟨fun h => h.perm hperm, fun h => h.perm hperm.symm⟩
  · intro book book' hbook hbook'
    have hholds := holds_of_compile hsound hbook
    have hholds' := holds_of_compile hsound hbook'
    have hreordered : book.Reordered book' := hholds.reordered hholds' hperm
    refine ⟨hreordered.justification, hreordered.allMatches, ?_, ?_⟩
    · exact hreordered.get? (indexed_compile hbook).1 (indexed_compile hbook').1
    · intro source
      rw [Bool.eq_iff_iff, contains_compile_iff hsound hholds.compilable,
        contains_compile_iff hsound hholds'.compilable, (hperm.map Rule.expression).mem_iff]

/-- Two rules in both orders. The text of one of them was fetched before. -/
theorem compile_perm_swap :
    let rules : List Rule := [⟨7, "a", "", "1 | 2"⟩, ⟨3, "b", "", "2 & 4"⟩]
    let others : List Rule := [⟨3, "b", "", "2 & 4"⟩, ⟨7, "a", "", "1 | 2"⟩]
    let store := (Session.after {} [.fetch "1 | 2"]).store
    rules.Perm others ∧ ∃ book book',
      (compile rules store).1 = .ok book ∧ (compile others store).1 = .ok book' ∧
      book.justification {2, 4} = book'.justification {2, 4} ∧
      (book.allMatches {2, 4}).Perm (book'.allMatches {2, 4}) ∧
      (book.get? 3).map Clause.plain = (book'.get? 3).map Clause.plain ∧
      (compile others store).2.entries.contains "2 & 4" = true := by
  intro rules others store
  have hstore : store.Reachable := ⟨_, rfl⟩
  have hperm : rules.Perm others := List.Perm.swap _ _ []
  obtain ⟨hcompiles, hsame⟩ := compile_perm hstore hperm
  obtain ⟨book, hbook⟩ : ∃ book, (compile rules store).1 = .ok book := ⟨_, rfl⟩
  obtain ⟨book', hbook'⟩ := hcompiles.mp ⟨book, hbook⟩
  obtain ⟨hjustification, hmatches, hget, hcached⟩ := hsame book book' hbook hbook'
  refine ⟨hperm, book, book', hbook, hbook', hjustification {2, 4}, hmatches {2, 4}, hget 3, ?_⟩
  rw [← hcached]
  rfl

end Rulebook

end Verdict
