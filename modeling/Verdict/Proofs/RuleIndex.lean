import Verdict.Proofs.StoreGrowth

/-!
# The index of a rulebook

The index of a rulebook has exactly the numbers of its rules, each with the place of the rule that
has the number. So no two rules have the same number, every place in the index is one of the
rulebook, and looking a number up finds the one rule that has it. `Rulebook.Indexed` is the
invariant: adding a rule with a new number keeps it, so compiling does, whatever is in the store.
-/

namespace Verdict

namespace Rulebook

/-- The index gives the number of every rule its place, and gives no other number a place. -/
def Indexed (book : Rulebook) : Prop :=
  ∀ (id : UInt32) (place : Nat), book.index[id]? = some place ↔
    ∃ clause, book.toList[place]? = some clause ∧ clause.rule.id = id

variable {book book' : Rulebook} {clause : Clause} {id : UInt32} {place : Nat} {store : Store}
  {rules : List Rule}

theorem indexed_empty : Indexed {} := by
  intro id place
  simp [toList]

theorem length_toList (book : Rulebook) : book.toList.length = book.size := Array.length_toList

theorem getElem?_index_add (book : Rulebook) (clause : Clause) (id : UInt32) :
    (book.add clause).index[id]? =
      if clause.rule.id = id then some book.size else book.index[id]? := by
  simp only [add, Std.TreeMap.getElem?_insert, Std.LawfulEqCmp.compare_eq_iff_eq]
  rfl

theorem getElem?_toList_add (book : Rulebook) (clause : Clause) (place : Nat) :
    (book.add clause).toList[place]? =
      if place = book.size then some clause else book.toList[place]? := by
  rw [toList_add, ← length_toList]
  split
  · next hplace => rw [hplace, List.getElem?_concat_length]
  · next hplace =>
      rcases Nat.lt_or_gt_of_ne hplace with hlt | hgt
      · rw [List.getElem?_append_left hlt]
      · rw [List.getElem?_eq_none (by simp; omega), List.getElem?_eq_none (by omega)]

/-- Looking a number up gives the rule at the place from the index. -/
theorem get?_eq_getElem? (hplace : book.index[id]? = some place) :
    book.get? id = book.toList[place]? := by
  rw [get?, hplace]
  exact Array.getElem?_toList.symm

namespace Indexed

/-- The places in the index are places of the rulebook. -/
theorem lt_size (h : book.Indexed) (hplace : book.index[id]? = some place) :
    place < book.size := by
  obtain ⟨clause, hclause, -⟩ := (h id place).mp hplace
  rw [← length_toList]
  exact (List.getElem?_eq_some_iff.mp hclause).1

/-- A step: a rule with a new number is added at the end. -/
theorem add (h : book.Indexed) (hnew : book.index[clause.rule.id]? = none) :
    (book.add clause).Indexed := by
  intro id place
  rw [getElem?_index_add, getElem?_toList_add]
  constructor
  · split
    · next hid =>
        rintro ⟨rfl⟩
        exact ⟨clause, if_pos rfl, hid⟩
    · intro hplace
      rw [if_neg (Nat.ne_of_lt (h.lt_size hplace))]
      exact (h id place).mp hplace
  · rintro ⟨other, hother, rfl⟩
    split at hother
    · next hplace =>
        cases hother
        rw [if_pos rfl, hplace]
    · have hplace := (h other.rule.id place).mpr ⟨other, hother, rfl⟩
      rw [if_neg, hplace]
      intro hsame
      rw [← hsame, hnew] at hplace
      contradiction

/-- No two rules have the same number. -/
theorem nodup (h : book.Indexed) : (book.toList.map fun clause => clause.rule.id).Nodup := by
  rw [List.nodup_iff_getElem?_ne_getElem?]
  intro i j hlt hj hsame
  rw [List.length_map] at hj
  have hi : i < book.toList.length := Nat.lt_trans hlt hj
  simp only [List.getElem?_map, List.getElem?_eq_getElem hi, List.getElem?_eq_getElem hj,
    Option.map_some, Option.some.injEq] at hsame
  have hplace := (h _ i).mpr ⟨_, List.getElem?_eq_getElem hi, rfl⟩
  have hplace' := (h _ j).mpr ⟨_, List.getElem?_eq_getElem hj, rfl⟩
  rw [hsame, hplace'] at hplace
  have hji : j = i := Option.some.inj hplace
  omega

/-- Looking a number up finds the rule that has it, and nothing else. -/
theorem get?_eq_some_iff (h : book.Indexed) :
    book.get? id = some clause ↔ clause ∈ book.toList ∧ clause.rule.id = id := by
  constructor
  · intro hget
    cases hindex : book.index[id]? with
    | none =>
        rw [get?, hindex] at hget
        contradiction
    | some place =>
        obtain ⟨found, hfound, hid⟩ := (h id place).mp hindex
        rw [get?_eq_getElem? hindex, hfound] at hget
        cases hget
        exact ⟨List.mem_of_getElem? hfound, hid⟩
  · rintro ⟨hmem, hid⟩
    obtain ⟨place, hplace⟩ := List.mem_iff_getElem?.mp hmem
    rw [get?_eq_getElem? ((h id place).mpr ⟨clause, hplace, hid⟩), hplace]

theorem get?_eq_find? (h : book.Indexed) (id : UInt32) :
    book.get? id = book.toList.find? fun clause => clause.rule.id = id := by
  cases hfind : book.toList.find? fun clause => clause.rule.id = id with
  | none =>
      rw [Option.eq_none_iff_forall_ne_some]
      intro clause hget
      obtain ⟨hmem, hid⟩ := h.get?_eq_some_iff.mp hget
      exact List.find?_eq_none.mp hfind clause hmem (decide_eq_true hid)
  | some clause =>
      have hid : clause.rule.id = id := by simpa using List.find?_some hfind
      exact h.get?_eq_some_iff.mpr ⟨List.mem_of_find?_eq_some hfind, hid⟩

/-- A run: rules that are compiled at the end of a rulebook are found there, after those that were
in it. -/
theorem extend (h : book.Indexed) (hbook : (extend book rules store).1 = .ok book') :
    book'.Indexed ∧ book'.toList.map Clause.rule = book.toList.map Clause.rule ++ rules := by
  induction rules generalizing book store with
  | nil =>
      cases hbook
      exact ⟨h, (List.append_nil _).symm⟩
  | cons rule rest ih =>
      unfold Rulebook.extend at hbook
      split at hbook
      · cases hbook
      · next hnew =>
          split at hbook
          · next shared next _ =>
              rw [Std.TreeMap.contains_eq_isSome_getElem?, Option.not_isSome_iff_eq_none] at hnew
              have hadd : (book.add ⟨rule, shared⟩).Indexed := h.add hnew
              obtain ⟨hindexed, hrules⟩ := ih hadd hbook
              rw [toList_add, List.map_append, List.append_assoc] at hrules
              exact ⟨hindexed, hrules⟩
          · cases hbook

end Indexed

theorem indexed_compile (hbook : (compile rules store).1 = .ok book) :
    book.Indexed ∧ book.toList.map Clause.rule = rules := by
  rw [fst_compile] at hbook
  exact indexed_empty.extend hbook

/-- The rulebook comes from these rules: they were compiled, by themselves or from a document that
lists them, or there are none. -/
inductive ComesFrom : Rulebook → List Rule → Prop where
  | compiled {rules : List Rule} {store : Store} {book : Rulebook}
      (h : (compile rules store).1 = .ok book) : ComesFrom book rules
  | loaded {rules : List Rule} {document : String} {store : Store} {book : Rulebook}
      (hdocument : Rule.ofDocument? document = some rules)
      (h : (ofDocument document store).1 = .ok book) : ComesFrom book rules
  | empty : ComesFrom {} []

theorem ComesFrom.indexed (h : book.ComesFrom rules) :
    book.Indexed ∧ book.toList.map Clause.rule = rules := by
  cases h with
  | compiled h => exact indexed_compile h
  | loaded hdocument h =>
      rw [ofDocument, hdocument] at h
      exact indexed_compile h
  | empty => exact ⟨indexed_empty, rfl⟩

end Rulebook

namespace Session

variable {s : Session} {command : Command} {name : String} {book : Rulebook}

theorem keeps_of_installCompiled {compiled : Except RulebookError Rulebook × Store}
    {target : String} (h : (s.installCompiled target compiled).2.books[name]? = some book) :
    s.books[name]? = some book ∨ compiled.1 = .ok book := by
  obtain ⟨result, store⟩ := compiled
  cases result with
  | error e => exact .inl h
  | ok made =>
      simp only [installCompiled, install, getElem?_insert] at h
      split at h
      · cases h
        exact .inr rfl
      · exact .inl h

/-- A step: a rulebook was there before, maybe under another name, or comes from the rules of the
command. -/
theorem keeps_or_comesFrom (h : (s.step command).2.Keeps book) :
    s.Keeps book ∨ ∃ rules, book.ComesFrom rules := by
  obtain ⟨name, h⟩ := h
  by_cases htarget : command.target? = some name
  · change (s.perform command).2.books[name]? = some book at h
    cases command with
    | load target document =>
        rcases keeps_of_installCompiled h with hold | hmade
        · exact .inl ⟨name, hold⟩
        · cases hdocument : Rule.ofDocument? document with
          | none =>
              rw [Rulebook.ofDocument, hdocument] at hmade
              contradiction
          | some rules => exact .inr ⟨rules, .loaded hdocument hmade⟩
    | compile target rules =>
        rcases keeps_of_installCompiled h with hold | hmade
        · exact .inl ⟨name, hold⟩
        · exact .inr ⟨rules, .compiled hmade⟩
    | reset target =>
        obtain rfl : target = name := Option.some.inj htarget
        simp only [perform, install, getElem?_insert, if_pos] at h
        cases h
        exact .inr ⟨[], .empty⟩
    | copy origin target =>
        simp only [perform] at h
        split at h
        · next hbook =>
            simp only [install, getElem?_insert] at h
            split at h
            · cases h
              exact .inl ⟨origin, hbook⟩
            · exact .inl ⟨name, h⟩
        · exact .inl ⟨name, h⟩
    | drop target =>
        obtain rfl : target = name := Option.some.inj htarget
        simp only [perform, getElem?_erase, if_pos] at h
        contradiction
    | _ => contradiction
  · rw [(effect_step s command).books_eq htarget] at h
    exact .inl ⟨name, h⟩

/-- A run: every rulebook of a session comes from some rules. -/
theorem exists_comesFrom (commands : List Command) (h : (after {} commands).Keeps book) :
    ∃ rules, book.ComesFrom rules := by
  induction commands using List.reverseRecOn with
  | nil =>
      obtain ⟨name, h⟩ := h
      simp [after] at h
  | append_singleton commands command ih =>
      rw [after_concat] at h
      rcases keeps_or_comesFrom h with hold | hcomes
      · exact ih hold
      · exact hcomes

end Session

namespace Rulebook

/-- However a rulebook came about, it has the rules that were declared, no two of them with the same
number, and its index gives the number of each rule its place and no other number a place. So a
place from the index is never out of bounds, and looking a number up finds the rule that was
declared with it, or nothing if there is none. The rulebooks of a session, copies and rulebooks
without rules included, have all come about so. -/
theorem index_exact :
    (∀ (book : Rulebook) rules, book.ComesFrom rules →
      book.toList.map Clause.rule = rules ∧
      (rules.map Rule.id).Nodup ∧
      (∀ (id : UInt32) (place : Nat), book.index[id]? = some place ↔
        ∃ rule, rules[place]? = some rule ∧ rule.id = id) ∧
      (∀ (id : UInt32) (place : Nat), book.index[id]? = some place →
        ∃ h : place < book.clauses.size, book.clauses[place].rule.id = id ∧
          book.get? id = some book.clauses[place]) ∧
      ∀ id, (book.get? id).map Clause.rule = rules.find? fun rule => rule.id = id) ∧
    ∀ commands book, (Session.after {} commands).Keeps book →
      ∃ rules, book.ComesFrom rules := by
  refine ⟨?_, fun commands book => Session.exists_comesFrom commands⟩
  intro book rules hcomes
  obtain ⟨hindexed, rfl⟩ := hcomes.indexed
  refine ⟨rfl, ?_, ?_, ?_, ?_⟩
  · rw [List.map_map]
    exact hindexed.nodup
  · intro id place
    rw [hindexed id place]
    simp
  · intro id place hplace
    obtain ⟨clause, hclause, hid⟩ := (hindexed id place).mp hplace
    have hget := get?_eq_getElem? hplace
    rw [hclause] at hget
    rw [toList, Array.getElem?_toList] at hclause
    obtain ⟨hlt, rfl⟩ := Array.getElem?_eq_some_iff.mp hclause
    exact ⟨hlt, hid, hget⟩
  · intro id
    rw [hindexed.get?_eq_find?, List.find?_map]
    rfl

/-- Two rules, the second one with the lower number, under a second name. -/
theorem index_exact_copy :
    let rules : List Rule := [⟨7, "a", "", "1"⟩, ⟨3, "b", "", "2 & 1"⟩]
    let commands : List Command := [.compile "book" rules, .copy "book" "copy", .clear]
    ∃ book, (Session.after {} commands).books["copy"]? = some book ∧ book.ComesFrom rules ∧
      book.index[(3 : UInt32)]? = some 1 ∧
      (book.get? 3).map Clause.rule = some ⟨3, "b", "", "2 & 1"⟩ ∧
      (book.get? 4).map Clause.rule = none ∧ ∃ rules, book.ComesFrom rules := by
  intro rules commands
  obtain ⟨book, hbook⟩ : ∃ book, (compile rules {}).1 = .ok book := ⟨_, rfl⟩
  have hcomes : book.ComesFrom rules := .compiled hbook
  have hcopy : (Session.after {} commands).books["copy"]? = some book := by
    cases hbook
    rfl
  obtain ⟨hexact, hkept⟩ := index_exact
  obtain ⟨-, -, hplace, -, hget⟩ := hexact book rules hcomes
  refine ⟨book, hcopy, hcomes, ?_, hget 3, hget 4, hkept commands book ⟨"copy", hcopy⟩⟩
  exact (hplace 3 1).mpr ⟨⟨3, "b", "", "2 & 1"⟩, rfl, rfl⟩

end Rulebook

end Verdict
