import Verdict.Proofs.Json.RoundTrip
import Verdict.Proofs.Numerals
import Verdict.Rulebook.Compile

/-!
# The documents of rules

The compact document of a list of rules has the fields of every rule in their order. It is read back
as the same rules, whatever stands in their texts, so that a document of rules is worth as much to a
rulebook as the rules themselves.
-/

namespace Verdict

namespace Json.Value

theorem text?_ofString (text : String) : (ofString text).text? = some text := rfl

/-- A number that fits in a word is read back from its digits. -/
theorem word?_ofNat (n : UInt32) : (ofNat n.toNat).word? = some n := by
  have hdigits : ∀ c ∈ Nat.toDigits 10 n.toNat, c.isDigit = true := isDigit_toDigits n.toNat
  have hsize : n.toNat < UInt32.size := n.toNat_lt
  have hcapped : Text.Decimal.capped UInt32.size (Nat.toDigits 10 n.toNat) = n.toNat := by
    rw [Text.Decimal.capped_eq_min, Text.Decimal.value_eq_numeral hdigits, numeral_toDigits]
    omega
  rw [ofNat, word?, Nat.toString_eq_ofList_toDigits, String.toList_ofList]
  simp only [hcapped]
  rw [if_pos ⟨List.all_eq_true.mpr hdigits, hsize⟩, UInt32.ofNat_toNat]

end Json.Value

namespace Rule

open Json (Value writtenString)

/-- The compact form of a rule. -/
def form (rule : Rule) : String :=
  "\x7b\"id\":" ++ toString rule.id.toNat ++
    ",\"name\":" ++ writtenString (some rule.name) ++
    ",\"description\":" ++ writtenString (some rule.description) ++
    ",\"expression\":" ++ writtenString (some rule.expression) ++ "\x7d"

theorem write_toValue (rule : Rule) : rule.toValue.write = rule.form := by
  have hid : writtenString (some "id") = "\"id\"" := rfl
  have hname : writtenString (some "name") = "\"name\"" := rfl
  have hdescription : writtenString (some "description") = "\"description\"" := rfl
  have hexpression : writtenString (some "expression") = "\"expression\"" := rfl
  rw [toValue, Value.write_ofFields]
  delta form
  apply String.toList_inj.mp
  simp [Value.writtenField, Value.write_ofNat, Value.write_ofString, hid, hname, hdescription,
    hexpression, String.intercalate_cons_cons]

theorem proper_toValue (rule : Rule) : rule.toValue.Proper := by
  apply Value.proper_ofFields
  simp only [List.forall_mem_cons]
  exact ⟨Value.proper_ofNat _, Value.proper_ofString _, Value.proper_ofString _,
    Value.proper_ofString _, List.forall_mem_nil _⟩

theorem document_eq (rules : List Rule) :
    document rules = "\x7b\"rules\":[" ++ ",".intercalate (rules.map form) ++ "]\x7d" := by
  have hname : writtenString (some "rules") = "\"rules\"" := rfl
  have hwrite : Value.write ∘ toValue = form := funext write_toValue
  rw [document, documentValue, Value.write_ofFields, List.map_singleton,
    String.intercalate_singleton, Value.writtenField, Value.write_array, List.map_map, hwrite,
    hname]
  apply String.toList_inj.mp
  simp

theorem proper_documentValue (rules : List Rule) : (documentValue rules).Proper := by
  apply Value.proper_ofFields
  rw [List.forall_mem_singleton]
  apply Value.Proper.array
  intro v hv
  obtain ⟨rule, -, rfl⟩ := List.mem_map.mp hv
  exact rule.proper_toValue

/-- The value of a rule stands for the rule. -/
theorem ofValue?_toValue (rule : Rule) : ofValue? rule.toValue = some rule := by
  have hrecord : rule.toValue.record? fieldNames =
      some [some (.ofNat rule.id.toNat), some (.ofString rule.name),
        some (.ofString rule.description), some (.ofString rule.expression)] := by
    simp [toValue, Value.ofFields, Value.record?, Value.knownFields?, fieldNames, List.lookup_cons]
  rw [ofValue?, hrecord]
  simp [Value.word?_ofNat, Value.text?_ofString]

theorem mapM_ofValue?_toValue (rules : List Rule) :
    (rules.map toValue).mapM ofValue? = some rules := by
  induction rules with
  | nil => rfl
  | cons rule rest ih => simp [ofValue?_toValue, ih]

theorem ofDocumentValue?_documentValue (rules : List Rule) :
    ofDocumentValue? (documentValue rules) = some rules := by
  have hrecord : (documentValue rules).record? ["rules"] =
      some [some (.array (rules.map toValue))] := by
    simp [documentValue, Value.ofFields, Value.record?, Value.knownFields?]
  rw [ofDocumentValue?, hrecord]
  exact mapM_ofValue?_toValue rules

/-- The document of any rules lists their fields in order, each text with its escapes and everything
else as it is, without blanks. Reading it gives the same rules, so that a rulebook of the document
is the rulebook of the rules, or is refused for the same reason. -/
theorem read_document (rules : List Rule) :
    document rules = "\x7b\"rules\":[" ++ ",".intercalate (rules.map form) ++ "]\x7d" ∧
      ofDocument? (document rules) = some rules ∧
      ∀ store, Rulebook.ofDocument (document rules) store = Rulebook.compile rules store := by
  have hread : ofDocument? (document rules) = some rules := by
    rw [ofDocument?, document, (proper_documentValue rules).read?_write, Option.bind_some,
      ofDocumentValue?_documentValue]
  refine ⟨document_eq rules, hread, fun store => ?_⟩
  rw [Rulebook.ofDocument, hread]

end Rule

end Verdict
