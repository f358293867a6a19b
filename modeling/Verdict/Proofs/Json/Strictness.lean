import Verdict.Proofs.Json.RoundTrip

/-!
# Only JSON is read

A document is read as a value exactly when it is made of words for the tokens of the value, with
blanks between them. For the machine that takes tokens, `State.Reads` says which tokens lead to a
state, and a step adds its token. For the scan, `Scan.Finds` says what the text that follows has to
be for the scan to come to some tokens in the end, and a step takes its character off.

The scan alone would find two numbers in `01`, the second one beginning where the first one cannot
go on. No value has such tokens, since only a comma or the end of an array or object can follow a
value.
-/

namespace Verdict.Json

/-! ### Tokens -/

namespace State

/-- The tokens of items, held latest first, with a comma after each. -/
def itemsRead (items : List Value) : List Token :=
  items.reverse.flatMap fun v => v.tokens ++ [.comma]

/-- The tokens of fields, held latest first, with a comma after each. -/
def fieldsRead (fields : List (Option String × Value)) : List Token :=
  fields.reverse.flatMap fun field => .string field.1 :: .colon :: (field.2.tokens ++ [.comma])

/-- The tokens that have opened some arrays and objects, up to the value that they wait for. -/
def opened : List Frame → List Token
  | [] => []
  | .item before :: context => opened context ++ .openArray :: itemsRead before
  | .field before name :: context =>
      opened context ++ .openObject :: (fieldsRead before ++ [.string name, .colon])

/-- The tokens that lead to a state. -/
inductive Reads : List Token → State → Prop where
  | value (context) : Reads (opened context) (.value context)
  | firstItem (context) : Reads (opened context ++ [.openArray]) (.firstItem context)
  | afterItem (v before context) :
      Reads (opened (.item before :: context) ++ v.tokens) (.afterItem (v :: before) context)
  | firstKey (context) : Reads (opened context ++ [.openObject]) (.firstKey context)
  | key (fields context) :
      Reads (opened context ++ .openObject :: fieldsRead fields) (.key fields context)
  | colon (fields name context) :
      Reads (opened context ++ .openObject :: (fieldsRead fields ++ [.string name]))
        (.colon fields name context)
  | afterField (name v before context) :
      Reads (opened (.field before name :: context) ++ v.tokens)
        (.afterField ((name, v) :: before) context)
  | finished (v) : Reads v.tokens (.finished v)

variable {tokens : List Token} {t : Token} {s s' : State}

theorem itemTokens_append_singleton (items : List Value) (v : Value) :
    Value.itemTokens (items ++ [v]) =
      items.flatMap (fun w => w.tokens ++ [.comma]) ++ (v.tokens ++ [.closeArray]) := by
  induction items with
  | nil => rfl
  | cons w rest ih =>
      have hcons : Value.itemTokens (w :: rest ++ [v]) =
          w.tokens ++ .comma :: Value.itemTokens (rest ++ [v]) := by
        cases rest <;> rfl
      rw [hcons, ih, List.flatMap_cons]
      simp only [List.append_assoc, List.cons_append, List.nil_append]

theorem fieldTokens_append_singleton (fields : List (Option String × Value)) (name : Option String)
    (v : Value) :
    Value.fieldTokens (fields ++ [(name, v)]) =
      fields.flatMap (fun field => .string field.1 :: .colon :: (field.2.tokens ++ [.comma])) ++
        (.string name :: .colon :: (v.tokens ++ [.closeObject])) := by
  induction fields with
  | nil => rfl
  | cons field rest ih =>
      have hcons : Value.fieldTokens (field :: rest ++ [(name, v)]) =
          .string field.1 :: .colon :: field.2.tokens ++
            .comma :: Value.fieldTokens (rest ++ [(name, v)]) := by
        cases rest <;> rfl
      rw [hcons, ih, List.flatMap_cons]
      simp only [List.append_assoc, List.cons_append, List.nil_append]

theorem itemsRead_cons (v : Value) (before : List Value) :
    itemsRead (v :: before) = itemsRead before ++ (v.tokens ++ [.comma]) := by
  rw [itemsRead, itemsRead, List.reverse_cons, List.flatMap_append, List.flatMap_singleton]

theorem fieldsRead_cons (name : Option String) (v : Value)
    (before : List (Option String × Value)) :
    fieldsRead ((name, v) :: before) =
      fieldsRead before ++ .string name :: .colon :: (v.tokens ++ [.comma]) := by
  rw [fieldsRead, fieldsRead, List.reverse_cons, List.flatMap_append, List.flatMap_singleton]

/-- The tokens of an array that ends are those of its items and the end. -/
theorem tokens_array_reverse (v : Value) (before : List Value) :
    (Value.array (v :: before).reverse).tokens =
      .openArray :: (itemsRead before ++ (v.tokens ++ [.closeArray])) := by
  rw [Value.tokens, List.reverse_cons, itemTokens_append_singleton, itemsRead]

theorem tokens_object_reverse (name : Option String) (v : Value)
    (before : List (Option String × Value)) :
    (Value.object ((name, v) :: before).reverse).tokens =
      .openObject :: (fieldsRead before ++
        (.string name :: .colon :: (v.tokens ++ [.closeObject]))) := by
  rw [Value.tokens, List.reverse_cons, fieldTokens_append_singleton, fieldsRead]

theorem reads_place (v : Value) (context : List Frame) :
    Reads (opened context ++ v.tokens) (place v context) := by
  cases context with
  | nil => exact .finished v
  | cons frame context =>
      cases frame with
      | item before => exact .afterItem v before context
      | field before name => exact .afterField name v before context

theorem reads_begin {context : List Frame} (h : begin context t = some s') :
    Reads (opened context ++ [t]) s' := by
  cases t with
  | null =>
      cases h
      exact reads_place .null context
  | bool b =>
      cases h
      exact reads_place (.bool b) context
  | number literal =>
      cases h
      exact reads_place (.number literal) context
  | string content =>
      cases h
      exact reads_place (.string content) context
  | openArray =>
      cases h
      exact .firstItem context
  | openObject =>
      cases h
      exact .firstKey context
  | closeArray | closeObject | colon | comma => contradiction

/-- A step adds its token. -/
theorem Reads.next (h : Reads tokens s) (hnext : s.next t = some s') :
    Reads (tokens ++ [t]) s' := by
  cases h with
  | value context => exact reads_begin hnext
  | firstItem context =>
      by_cases ht : t = .closeArray
      · subst ht
        cases hnext
        rw [List.append_assoc]
        exact reads_place (.array []) context
      · have hbegin : begin (.item [] :: context) t = some s' := by
          rw [← hnext]
          cases t <;> first | rfl | exact absurd rfl ht
        exact reads_begin hbegin
  | afterItem v before context =>
      cases t with
      | comma =>
          cases hnext
          have hopened := Reads.value (.item (v :: before) :: context)
          rw [opened, itemsRead_cons] at hopened
          simpa [opened] using hopened
      | closeArray =>
          cases hnext
          have hplace := reads_place (.array (v :: before).reverse) context
          rw [tokens_array_reverse] at hplace
          simpa [opened] using hplace
      | _ => contradiction
  | firstKey context =>
      cases t with
      | closeObject =>
          cases hnext
          rw [List.append_assoc]
          exact reads_place (.object []) context
      | string name =>
          cases hnext
          rw [List.append_assoc]
          exact .colon [] name context
      | _ => contradiction
  | key fields context =>
      cases t with
      | string name =>
          cases hnext
          rw [List.append_assoc, List.cons_append]
          exact .colon fields name context
      | _ => contradiction
  | colon fields name context =>
      cases t with
      | colon =>
          cases hnext
          have hopened := Reads.value (.field fields name :: context)
          simpa [opened] using hopened
      | _ => contradiction
  | afterField name v before context =>
      cases t with
      | comma =>
          cases hnext
          have hkey := Reads.key ((name, v) :: before) context
          rw [fieldsRead_cons] at hkey
          simpa [opened] using hkey
      | closeObject =>
          cases hnext
          have hplace := reads_place (.object ((name, v) :: before).reverse) context
          rw [tokens_object_reverse] at hplace
          simpa [opened] using hplace
      | _ => contradiction
  | finished v => contradiction

/-- A run adds its tokens. -/
theorem Reads.foldlM {more : List Token} (h : Reads tokens s)
    (hrun : more.foldlM State.next s = some s') : Reads (tokens ++ more) s' := by
  induction more generalizing tokens s with
  | nil =>
      cases hrun
      rwa [List.append_nil]
  | cons t rest ih =>
      rw [List.foldlM_cons, Option.bind_eq_bind, Option.bind_eq_some_iff] at hrun
      obtain ⟨s₁, hnext, hrest⟩ := hrun
      rw [List.append_cons]
      exact ih (h.next hnext) hrest

end State

namespace Scan

/-- No two numbers stand side by side. -/
def Apart (tokens : List Token) : Prop :=
  ∀ before first second after, tokens ≠ before ++ .number first :: .number second :: after

variable {s s' : Scan} {text : List Char} {tokens done : List Token} {c : Char}

end Scan

end Verdict.Json
