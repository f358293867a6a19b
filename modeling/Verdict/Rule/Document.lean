import Verdict.Json.Record
import Verdict.Rule.Basic

/-!
# Rule documents

A rule document is a JSON record with the one field `rules`, an array of records with the fields
`id`, `name`, `description` and `expression`. The list of rules and every description may be left
out when they are empty. What a formula's text says, and whether a number occurs twice, does not
matter to a document.
-/

namespace Verdict.Rule

open Json (Value)

/-- The names of a rule's fields. -/
def fieldNames : List String := ["id", "name", "description", "expression"]

/-- The value of a rule. -/
def toValue (rule : Rule) : Value :=
  .ofFields
    [("id", .ofNat rule.id.toNat), ("name", .ofString rule.name),
      ("description", .ofString rule.description), ("expression", .ofString rule.expression)]

/-- The rule that a value stands for. -/
def ofValue? (v : Value) : Option Rule := do
  match ← v.record? fieldNames with
  | [some id, some name, description, some expression] =>
      let id ← id.word?
      let name ← name.text?
      let description ← description.elim (some "") Value.text?
      let expression ← expression.text?
      return { id, name, description, expression }
  | _ => none

/-- The value of a rule document. -/
def documentValue (rules : List Rule) : Value :=
  .ofFields [("rules", .array (rules.map toValue))]

/-- The rules that the value of a document stands for. -/
def ofDocumentValue? (v : Value) : Option (List Rule) := do
  match ← v.record? ["rules"] with
  | [none] => some []
  | [some (.array items)] => items.mapM ofValue?
  | _ => none

/-- The compact document of a list of rules. -/
def document (rules : List Rule) : String := (documentValue rules).write

/-- The rules that a document lists. -/
def ofDocument? (document : String) : Option (List Rule) :=
  (Value.read? document).bind ofDocumentValue?

end Verdict.Rule
