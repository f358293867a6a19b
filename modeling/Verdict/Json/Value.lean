import Verdict.Json.Token

/-!
# JSON values

A value is read from the tokens of a document by a machine that takes one token at a time and
keeps the arrays and objects that are still open in a list, so that values nested as deep as
memory allows can be read. An object keeps its fields in the order of the document, repeated keys
included. `Value.write` is the compact form of a value, without blanks.
-/

namespace Verdict.Json

/-- A JSON value. Numbers are kept as they are written; the content of a string or key is `none`
if it has no text. -/
inductive Value where
  | null
  | bool (b : Bool)
  | number (literal : String)
  | string (content : Option String)
  | array (items : List Value)
  | object (fields : List (Option String × Value))

/-- What waits for a value: the array or object it belongs to, with the items or fields before it,
latest first. -/
inductive Frame where
  | item (before : List Value)
  | field (before : List (Option String × Value)) (name : Option String)

/-- What may come next in a document, in the context of the open arrays and objects. -/
inductive State where
  | value (context : List Frame)
  /-- An array has just been opened. -/
  | firstItem (context : List Frame)
  /-- An item of an array has just ended. -/
  | afterItem (items : List Value) (context : List Frame)
  /-- An object has just been opened. -/
  | firstKey (context : List Frame)
  /-- A comma has been read in an object. -/
  | key (fields : List (Option String × Value)) (context : List Frame)
  /-- A key has been read. -/
  | colon (fields : List (Option String × Value)) (name : Option String) (context : List Frame)
  /-- A field of an object has just ended. -/
  | afterField (fields : List (Option String × Value)) (context : List Frame)
  /-- The value of the document has ended. -/
  | finished (v : Value)

namespace State

/-- A value has ended. -/
def place (v : Value) : List Frame → State
  | [] => finished v
  | .item before :: context => afterItem (v :: before) context
  | .field before name :: context => afterField ((name, v) :: before) context

/-- Read the first token of a value. -/
def begin (context : List Frame) : Token → Option State
  | .null => some (place .null context)
  | .bool b => some (place (.bool b) context)
  | .number literal => some (place (.number literal) context)
  | .string content => some (place (.string content) context)
  | .openArray => some (firstItem context)
  | .openObject => some (firstKey context)
  | .closeArray | .closeObject | .colon | .comma => none

/-- Read a token. -/
def next : State → Token → Option State
  | value context, token => begin context token
  | firstItem context, .closeArray => some (place (.array []) context)
  | firstItem context, token => begin (.item [] :: context) token
  | afterItem items context, .comma => some (value (.item items :: context))
  | afterItem items context, .closeArray => some (place (.array items.reverse) context)
  | firstKey context, .closeObject => some (place (.object []) context)
  | firstKey context, .string name => some (colon [] name context)
  | key fields context, .string name => some (colon fields name context)
  | colon fields name context, .colon => some (value (.field fields name :: context))
  | afterField fields context, .comma => some (key fields context)
  | afterField fields context, .closeObject => some (place (.object fields.reverse) context)
  | _, _ => none

/-- The value of a document that has been read to its end. -/
def value? : State → Option Value
  | finished v => some v
  | _ => none

end State

namespace Value

/-- The value that a sequence of tokens stands for. -/
def ofTokens? (tokens : List Token) : Option Value :=
  (tokens.foldlM State.next (.value [])).bind State.value?

/-- The value that a document stands for. -/
def read? (document : String) : Option Value := (tokens? document.toList).bind ofTokens?

mutual

/-- Write a value after what has been written already. -/
def writeOnto (written : String) : Value → String
  | .null => written ++ "null"
  | .bool true => written ++ "true"
  | .bool false => written ++ "false"
  | .number literal => written ++ literal
  | .string content => written ++ writtenString content
  | .array items => writeItemsOnto (written ++ "[") items
  | .object fields => writeFieldsOnto (written ++ "\x7b") fields

/-- Write items of an array and the end of the array. -/
def writeItemsOnto (written : String) : List Value → String
  | [] => written ++ "]"
  | [v] => writeOnto written v ++ "]"
  | v :: rest => writeItemsOnto (writeOnto written v ++ ",") rest

/-- Write fields of an object and the end of the object. -/
def writeFieldsOnto (written : String) : List (Option String × Value) → String
  | [] => written ++ "\x7d"
  | [(key, v)] => writeOnto (written ++ writtenString key ++ ":") v ++ "\x7d"
  | (key, v) :: rest =>
      writeFieldsOnto (writeOnto (written ++ writtenString key ++ ":") v ++ ",") rest

end

/-- The compact form of a value. -/
def write (v : Value) : String := writeOnto "" v

/-- The value of a natural number. -/
def ofNat (n : Nat) : Value := .number (toString n)

/-- The value of a text. -/
def ofString (text : String) : Value := .string (some text)

/-- The object with given fields. -/
def ofFields (fields : List (String × Value)) : Value :=
  .object (fields.map fun field => (some field.1, field.2))

end Value

end Verdict.Json
