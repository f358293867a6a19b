import Verdict.Json.Value
import Verdict.Text.Decimal

/-!
# Records in JSON

A record has named fields in a fixed order. It is written as an object, whose other keys mean
nothing, or as the array of its leading fields. `record?` finds the values of the fields in either
layout; what a value has to be is for the reader of the record to say.
-/

namespace Verdict.Json.Value

/-- The fields of an object that have one of the given names. Every key has to have a text, and no
name may occur twice. -/
def knownFields? (names : List String) (fields : List (Option String × Value)) :
    Option (List (String × Value)) := do
  let named ← fields.mapM fun field => field.1.map fun key => (key, field.2)
  let known := named.filter fun field => names.contains field.1
  if (known.map Prod.fst).Nodup then some known else none

/-- The values of the fields with the given names, in that order, where fields may be missing. -/
def record? (names : List String) : Value → Option (List (Option Value))
  | .object fields => (knownFields? names fields).map fun known => names.map fun name => known.lookup name
  | .array items =>
      if items.length ≤ names.length then
        some (items.map some ++ List.replicate (names.length - items.length) none)
      else none
  | .null | .bool _ | .number _ | .string _ => none

/-- The text that a value is. -/
def text? : Value → Option String
  | .string content => content
  | _ => none

/-- The number below `2 ^ 32` that a value is: a number written with digits alone. -/
def word? : Value → Option UInt32
  | .number literal =>
      let digits := literal.toList
      let n := Text.Decimal.capped UInt32.size digits
      if digits.all Char.isDigit ∧ n < UInt32.size then some (UInt32.ofNat n) else none
  | _ => none

end Verdict.Json.Value
