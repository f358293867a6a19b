import Verdict.Untyped
import Verdict.Proofs.AscendingMembers
import Verdict.Proofs.WrittenNumbers

/-!
# Calls with unchecked arguments and typed ones

`perform_agrees` says what a call comes to whose arguments have the right types: what the typed
operation comes to, with the wording of its error. Only rules with a number that is given twice end
in a key fault. Reading a text leaves every store as it is, and a rule document changes it as the
typed operation does.

A list of numbers is converted before it is looked at, so an element that is no word ends the call
even if a number before it is too large for a fact. `words_or_first` splits a list at its first
element that is no word, and the two phases follow from `ids_append_cons` and `ids_words`.
-/

namespace Verdict.Untyped

namespace Argument

/-- An argument that is a number below `2 ^ 32`. -/
def IsWord (a : Argument) : Prop := ∃ n < UInt32.size, a = integer (Int.ofNat n)

/-- What is wrong with an argument that is no number in range. -/
def conversionFault : Argument → Fault
  | integer _ => .overflow
  | text _ | list _ | other => .wrongType

/-- The arguments that some numbers are. -/
def ofIds (ids : List Nat) : List Argument := ids.map fun id => integer (Int.ofNat id)

/-- The number of a set's word. -/
def ofFacts (held : FactSet) : Argument := integer (Int.ofNat held.toNat)

theorem natBelow_of_lt {n bound : Nat} (h : n < bound) :
    (integer (Int.ofNat n)).natBelow bound = .ok n := by
  have hrange : (0 : Int) ≤ Int.ofNat n ∧ Int.ofNat n < bound :=
    ⟨Int.natCast_nonneg n, Int.ofNat_lt.mpr h⟩
  rw [natBelow, if_pos hrange]
  rfl

theorem natBelow_of_not_isWord {a : Argument} (h : ¬ a.IsWord) :
    a.natBelow UInt32.size = .error a.conversionFault := by
  cases a with
  | integer n =>
      apply if_neg
      rintro ⟨hnonneg, hlt⟩
      refine h ⟨n.toNat, (Int.toNat_lt hnonneg).mpr hlt, ?_⟩
      rw [Int.ofNat_eq_natCast, Int.toNat_of_nonneg hnonneg]
  | text | list | other => rfl

@[simp] theorem facts_ofFacts (held : FactSet) : (ofFacts held).facts = .ok held := by
  rw [facts, ofFacts, natBelow_of_lt held.toNat_lt, Except.map, FactSet.toNat, BitVec.ofNat_toNat,
    BitVec.setWidth_eq]

theorem mapM_natBelow_words {ids : List Nat} (h : ∀ id ∈ ids, id < UInt32.size) :
    (ofIds ids).mapM (natBelow UInt32.size) = .ok ids := by
  induction ids with
  | nil => rfl
  | cons id ids ih =>
      obtain ⟨hid, hids⟩ := List.forall_mem_cons.mp h
      have hhead : (integer (Int.ofNat id)).natBelow UInt32.size = .ok id := natBelow_of_lt hid
      rw [ofIds, List.map_cons, List.mapM_cons, hhead, ← ofIds, ih hids]
      rfl

/-- Words are converted to the numbers that they are. -/
theorem ids_words {ids : List Nat} (h : ∀ id ∈ ids, id < UInt32.size) :
    (list (ofIds ids)).ids = .ok ids :=
  mapM_natBelow_words h

/-- The first element that is no word ends the conversion, whatever the words before it. -/
theorem ids_append_cons {before : List Nat} {a : Argument} {after : List Argument}
    (hbefore : ∀ id ∈ before, id < UInt32.size) (ha : ¬ a.IsWord) :
    (list (ofIds before ++ a :: after)).ids = .error a.conversionFault := by
  rw [ids, List.mapM_append, mapM_natBelow_words hbefore, List.mapM_cons,
    natBelow_of_not_isWord ha]
  rfl

/-- Arguments are words, or there is a first one among them that is not. -/
theorem words_or_first (items : List Argument) :
    (∃ ids, items = ofIds ids ∧ ∀ id ∈ ids, id < UInt32.size) ∨
      ∃ before a after, items = ofIds before ++ a :: after ∧
        (∀ id ∈ before, id < UInt32.size) ∧ ¬ a.IsWord := by
  induction items with
  | nil => exact .inl ⟨[], rfl, by simp⟩
  | cons item items ih =>
      by_cases hword : item.IsWord
      · obtain ⟨n, hn, rfl⟩ := hword
        obtain ⟨ids, rfl, hids⟩ | ⟨before, a, after, rfl, hbefore, ha⟩ := ih
        · exact .inl ⟨n :: ids, rfl, List.forall_mem_cons.mpr ⟨hn, hids⟩⟩
        · exact .inr ⟨n :: before, a, after, rfl, List.forall_mem_cons.mpr ⟨hn, hbefore⟩, ha⟩
      · exact .inr ⟨[], item, items, rfl, by simp, hword⟩

end Argument

open Argument

variable (store : Store) (held : FactSet)

theorem evaluate_ofFacts (e : Formula) : evaluate e (ofFacts held) = .ok (e.findEvidence held) := by
  rw [evaluate, facts_ofFacts, Except.map]

theorem isMatched_ofFacts (e : Formula) :
    isMatched e (ofFacts held) = .ok (e.findEvidence held).isSome := by
  rw [isMatched, facts_ofFacts, Except.map, Formula.isMatched_eq_isSome]

/-- A rulebook answers as the typed one does. -/
theorem perform_ask (book : Rulebook) :
    perform store (.allMatches book (ofFacts held)) =
        (.ok (.allMatches (book.allMatches held)), store) ∧
      perform store (.firstMatch book (ofFacts held)) =
        (.ok (.firstMatch (book.firstMatch? held)), store) ∧
      perform store (.justification book (ofFacts held)) =
        (.ok (.facts (book.justification held)), store) ∧
      perform store (.size book) = (.ok (.size book.size), store) := by
  refine ⟨?_, ?_, ?_, rfl⟩
  · rw [perform, allMatches, facts_ofFacts]
    rfl
  · rw [perform, firstMatch?, facts_ofFacts]
    rfl
  · rw [perform, justification, facts_ofFacts]
    rfl

/-- Reading a text comes to what the typed operation comes to. -/
theorem perform_parse (source : String) :
    perform store (.parse (.text source)) =
      (match Formula.parse source with
        | .ok e => .ok (.formula e)
        | .error e => .error (.value e.message), store) := by
  have hparse : parse (.text source) = (Formula.parse source).mapError Fault.ofParseError := rfl
  rw [perform, hparse]
  cases Formula.parse source with
  | ok e => rfl
  | error e => rfl

/-- Loading rules comes to what the typed operation comes to, and does the same to the store. -/
theorem perform_loadRules (document : String) :
    perform store (.loadRules (.text document)) =
      (match (Rulebook.ofDocument document store).1 with
        | .ok book => .ok (.book book)
        | .error (.duplicate id) => .error (.key (RulebookError.duplicate id).message)
        | .error e => .error (.value e.message),
      (Rulebook.ofDocument document store).2) := by
  have hload : loadRules (.text document) store =
      ((Rulebook.ofDocument document store).1.mapError Fault.ofRulebookError,
        (Rulebook.ofDocument document store).2) := rfl
  rw [perform, hload]
  cases (Rulebook.ofDocument document store).1 with
  | ok book => rfl
  | error e =>
      cases e with
      | malformed | duplicate | invalid => rfl

/-! ### Masks -/

/-- Once every element is a word, a mask comes to what the typed operation comes to. -/
theorem perform_mask_words {ids : List Nat} (h : ∀ id ∈ ids, id < UInt32.size) :
    perform store (.mask (.list (Argument.ofIds ids))) =
      (match FactSet.ofIds ids with
        | .ok s => .ok (.facts s)
        | .error e => .error (.value e.message), store) := by
  have hmask : mask (.list (Argument.ofIds ids)) =
      (FactSet.ofIds ids).mapError fun refusal => .ofParseError (.outOfRange refusal) := by
    rw [mask, ids_words h]
    rfl
  rw [perform, hmask]
  cases FactSet.ofIds ids with
  | ok s => rfl
  | error e => rfl

theorem perform_mask_other {before : List Nat} {a : Argument} {after : List Argument}
    (hbefore : ∀ id ∈ before, id < UInt32.size) (ha : ¬ a.IsWord) :
    perform store (.mask (.list (Argument.ofIds before ++ a :: after))) =
      (.error a.conversionFault, store) := by
  rw [perform, mask, ids_append_cons hbefore ha]
  rfl

/-- A mask of arbitrary elements: the fault of the first element that is no word, else the refusal
of the first number that is too large, else the set. -/
theorem perform_mask (items : List Argument) :
    (∃ before a after, items = Argument.ofIds before ++ a :: after ∧
      (∀ id ∈ before, id < UInt32.size) ∧ ¬ a.IsWord ∧
      perform store (.mask (.list items)) = (.error a.conversionFault, store)) ∨
    (∃ before id after, items = Argument.ofIds (before ++ id :: after) ∧
      (∀ i ∈ before ++ id :: after, i < UInt32.size) ∧
      (∀ i ∈ before, i < FactSet.width) ∧ FactSet.width ≤ id ∧
      FactSet.ofIds (before ++ id :: after) = .error ⟨id⟩ ∧
      perform store (.mask (.list items)) = (.error (.value (OutOfRange.mk id).message), store)) ∨
    ∃ ids s, items = Argument.ofIds ids ∧ (∀ id ∈ ids, id < FactSet.width) ∧
      FactSet.ofIds ids = .ok s ∧
      perform store (.mask (.list items)) = (.ok (.facts s), store) := by
  obtain ⟨ids, rfl, hids⟩ | ⟨before, a, after, rfl, hbefore, ha⟩ := words_or_first items
  · refine .inr ?_
    by_cases hlarge : ∃ id ∈ ids, FactSet.width ≤ id
    · obtain ⟨before, id, after, rfl, hbefore, hid⟩ := FactSet.exists_first_large hlarge
      have hrefused : FactSet.ofIds (before ++ id :: after) = .error ⟨id⟩ :=
        FactSet.ofIds_append_cons hbefore hid
      refine .inl ⟨before, id, after, rfl, hids, hbefore, hid, hrefused, ?_⟩
      rw [perform_mask_words store hids, hrefused]
    · have hsmall : ∀ id ∈ ids, id < FactSet.width := by simpa using hlarge
      obtain ⟨s, hs, -⟩ := FactSet.exists_ofIds hsmall
      refine .inr ⟨ids, s, rfl, hsmall, hs, ?_⟩
      rw [perform_mask_words store hids, hs]
  · exact .inl ⟨before, a, after, rfl, hbefore, ha, perform_mask_other store hbefore ha⟩

/-- Calls agree with the typed operations, for every store. Reading a text gives the same formula or
a value fault with the wording of the same error, and leaves the store alone. A formula's evidence
and both ways to ask whether it has any agree with the evidence that is found. A rule document gives
the same rulebook, or a key fault exactly where a number is given twice and a value fault for every
other error, and the same store; rulebooks answer as they do. A mask ends with the conversion fault
of the first element that is no word, even if a number before it is too large, else with a value
fault for the first number that is too large, else it is the same set. -/
theorem perform_agrees :
    (∀ source,
      perform store (.parse (.text source)) =
        (match Formula.parse source with
          | .ok e => .ok (.formula e)
          | .error e => .error (.value e.message), store)) ∧
    (∀ e : Formula,
      perform store (.evaluate e (ofFacts held)) = (.ok (.evidence (e.findEvidence held)), store) ∧
      perform store (.method e (ofFacts held)) =
        (.ok (.truth (e.findEvidence held).isSome), store) ∧
      perform store (.function e (ofFacts held)) =
        (.ok (.truth (e.findEvidence held).isSome), store)) ∧
    (∀ document,
      perform store (.loadRules (.text document)) =
        (match (Rulebook.ofDocument document store).1 with
          | .ok book => .ok (.book book)
          | .error (.duplicate id) => .error (.key (RulebookError.duplicate id).message)
          | .error e => .error (.value e.message),
        (Rulebook.ofDocument document store).2)) ∧
    (∀ book : Rulebook,
      perform store (.allMatches book (ofFacts held)) =
        (.ok (.allMatches (book.allMatches held)), store) ∧
      perform store (.firstMatch book (ofFacts held)) =
        (.ok (.firstMatch (book.firstMatch? held)), store) ∧
      perform store (.justification book (ofFacts held)) =
        (.ok (.facts (book.justification held)), store) ∧
      perform store (.size book) = (.ok (.size book.size), store)) ∧
    ∀ items : List Argument,
      (∃ before a after, items = Argument.ofIds before ++ a :: after ∧
        (∀ id ∈ before, id < UInt32.size) ∧ ¬ a.IsWord ∧
        perform store (.mask (.list items)) = (.error a.conversionFault, store)) ∨
      (∃ before id after, items = Argument.ofIds (before ++ id :: after) ∧
        (∀ i ∈ before ++ id :: after, i < UInt32.size) ∧
        (∀ i ∈ before, i < FactSet.width) ∧ FactSet.width ≤ id ∧
        FactSet.ofIds (before ++ id :: after) = .error ⟨id⟩ ∧
        perform store (.mask (.list items)) =
          (.error (.value (OutOfRange.mk id).message), store)) ∨
      ∃ ids s, items = Argument.ofIds ids ∧ (∀ id ∈ ids, id < FactSet.width) ∧
        FactSet.ofIds ids = .ok s ∧
        perform store (.mask (.list items)) = (.ok (.facts s), store) := by
  refine ⟨perform_parse store, ?_, perform_loadRules store, perform_ask store held,
    perform_mask store⟩
  intro e
  refine ⟨?_, ?_, ?_⟩
  · rw [perform, evaluate_ofFacts, Except.map]
  · rw [perform, isMatched_ofFacts, Except.map]
  · rw [perform, isMatched_ofFacts, Except.map]

/-- An element that is no word is refused even behind one that is too large for a fact. -/
example : mask (.list [.integer 1, .integer 64, .integer (-1), .text "2"]) = .error .overflow := rfl

end Verdict.Untyped
