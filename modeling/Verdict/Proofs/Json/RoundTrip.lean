import Verdict.Json.Value
import Verdict.Proofs.Json.Lexing

/-!
# Reading a value from its compact form

The compact form of a value is its tokens, each in its own form, one after the other. Where the
numbers of a value are numbers and its strings have a text, the tokens are found again in the form,
since a number is followed by a comma or the end of an array or object. And the tokens of a value
are read as the value, whatever it is: `readAnywhere` says so of any open arrays and objects around
it. So `Proper.read?_write` reads back what was written.
-/

namespace Verdict.Json

/-- A property of all values follows from what passes from items and fields to arrays and
objects. -/
@[elab_as_elim]
theorem Value.byParts {motive : Value → Prop} (null : motive .null) (bool : ∀ b, motive (.bool b))
    (number : ∀ literal, motive (.number literal)) (string : ∀ content, motive (.string content))
    (array : ∀ items, (∀ v ∈ items, motive v) → motive (.array items))
    (object : ∀ fields, (∀ field ∈ fields, motive field.2) → motive (.object fields))
    (v : Value) : motive v :=
  match v with
  | .null => null
  | .bool b => bool b
  | .number literal => number literal
  | .string content => string content
  | .array items =>
      array items fun v _ => byParts null bool number string array object v
  | .object fields =>
      object fields fun field _ => byParts null bool number string array object field.2
termination_by v
decreasing_by
  · next hv =>
      have := List.sizeOf_lt_of_mem hv
      simp only [Value.array.sizeOf_spec]
      omega
  · next hfield =>
      have := List.sizeOf_lt_of_mem hfield
      cases field
      simp only [Value.object.sizeOf_spec, Prod.mk.sizeOf_spec] at this ⊢
      omega

/-! ### Strings -/

theorem hexDigit?_digitChar : ∀ d < 16, hexDigit? (Nat.digitChar d) = some d := by decide

theorem ofCode_toNat {c : Char} (h : c.toNat < 0x20) : TextUnit.ofCode c.toNat = .char c := by
  have hhigh : TextUnit.isHigh c.toNat = false := by
    simp only [TextUnit.isHigh, Bool.and_eq_false_iff, decide_eq_false_iff_not]
    omega
  have hlow : TextUnit.isLow c.toNat = false := by
    simp only [TextUnit.isLow, Bool.and_eq_false_iff, decide_eq_false_iff_not]
    omega
  rw [TextUnit.ofCode, hhigh, hlow, Bool.or_false, if_neg Bool.false_ne_true, Char.ofNat_toNat]

/-- The form of a character stands for the character. -/
theorem Content.append_escapedChar (c : Char) {rest : List Char} {units : List TextUnit}
    (tail : Content rest units) : Content (escapedChar c ++ rest) (.char c :: units) := by
  fun_cases escapedChar c
  -- The last two cases are the control characters without a letter and all that stand for
  -- themselves.
  case case8 hquote hslash _ _ _ _ _ hcontrol =>
    have hcode := Content.code (a := '0') (b := '0') (i := 0) (j := 0) rfl rfl
      (hexDigit?_digitChar (c.toNat / 16) (by omega))
      (hexDigit?_digitChar (c.toNat % 16) (by omega)) tail
    have hvalue : 16 * (16 * (16 * 0 + 0) + c.toNat / 16) + c.toNat % 16 = c.toNat := by omega
    rw [hvalue, ofCode_toNat hcontrol] at hcode
    exact hcode
  case case9 hquote hslash _ _ _ _ _ hcontrol =>
    exact .plain hquote hslash hcontrol tail
  all_goals exact .letter rfl tail

theorem Content.of_chars (chars : List Char) :
    Content (chars.flatMap escapedChar) (chars.map .char) := by
  induction chars with
  | nil => exact .nil
  | cons c rest ih =>
      rw [List.flatMap_cons]
      exact .append_escapedChar c ih

theorem TextUnit.charsOnto_map_char (found chars : List Char) :
    charsOnto found (chars.map .char) = some (found.reverse ++ chars) := by
  induction chars generalizing found with
  | nil => rw [List.map_nil, charsOnto, List.append_nil]
  | cons c rest ih => simp [charsOnto, ih]

theorem TextUnit.text?_map_char (chars : List Char) :
    text? (chars.map .char) = some (String.ofList chars) := by
  rw [text?, charsOnto_map_char, Option.map_some, List.reverse_nil, List.nil_append]

/-! ### Tokens -/

namespace Token

/-- The compact form of a token. -/
def form : Token → List Char
  | openArray => ['[']
  | closeArray => [']']
  | openObject => ['\x7b']
  | closeObject => ['\x7d']
  | colon => [':']
  | comma => [',']
  | null => ['n', 'u', 'l', 'l']
  | bool true => ['t', 'r', 'u', 'e']
  | bool false => ['f', 'a', 'l', 's', 'e']
  | number literal => literal.toList
  | string content => (writtenString content).toList

/-- A token that can be read from its form: a number that is one, or a string with a text. -/
def Proper : Token → Prop
  | number literal => NumberPart.Reads literal.toList
  | string content => content.isSome = true
  | _ => True

/-- The form of a token is a word for it. -/
theorem Proper.spells {t : Token} (h : t.Proper) : t.Spells t.form := by
  cases t with
  | openArray => exact .openArray
  | closeArray => exact .closeArray
  | openObject => exact .openObject
  | closeObject => exact .closeObject
  | colon => exact .colon
  | comma => exact .comma
  | null => exact .nullWord
  | bool b =>
      cases b with
      | false => exact .falseWord
      | true => exact .trueWord
  | number literal =>
      have hspells := Spells.number h
      rwa [String.ofList_toList] at hspells
  | string content =>
      obtain ⟨text, rfl⟩ := Option.isSome_iff_exists.mp h
      have hspells := Spells.string (Content.of_chars text.toList)
      rw [TextUnit.text?_map_char, String.ofList_toList] at hspells
      rw [form, writtenString, String.toList_ofList]
      exact hspells

end Token

namespace Value

mutual

/-- The tokens of a value. -/
def tokens : Value → List Token
  | .null => [.null]
  | .bool b => [.bool b]
  | .number literal => [.number literal]
  | .string content => [.string content]
  | .array items => .openArray :: itemTokens items
  | .object fields => .openObject :: fieldTokens fields

/-- The tokens of items of an array and of the end of the array. -/
def itemTokens : List Value → List Token
  | [] => [.closeArray]
  | [v] => tokens v ++ [.closeArray]
  | v :: rest => tokens v ++ .comma :: itemTokens rest

/-- The tokens of fields of an object and of the end of the object. -/
def fieldTokens : List (Option String × Value) → List Token
  | [] => [.closeObject]
  | [(key, v)] => .string key :: .colon :: tokens v ++ [.closeObject]
  | (key, v) :: rest => .string key :: .colon :: tokens v ++ .comma :: fieldTokens rest

end

theorem itemTokens_cons_cons (v w : Value) (rest : List Value) :
    itemTokens (v :: w :: rest) = v.tokens ++ .comma :: itemTokens (w :: rest) := rfl

theorem fieldTokens_cons_cons (key : Option String) (v : Value)
    (field : Option String × Value) (rest : List (Option String × Value)) :
    fieldTokens ((key, v) :: field :: rest) =
      .string key :: .colon :: v.tokens ++ .comma :: fieldTokens (field :: rest) := rfl

theorem writeItemsOnto_cons_cons (written : String) (v w : Value) (rest : List Value) :
    writeItemsOnto written (v :: w :: rest) =
      writeItemsOnto (writeOnto written v ++ ",") (w :: rest) := rfl

theorem writeFieldsOnto_cons_cons (written : String) (key : Option String) (v : Value)
    (field : Option String × Value) (rest : List (Option String × Value)) :
    writeFieldsOnto written ((key, v) :: field :: rest) =
      writeFieldsOnto (writeOnto (written ++ writtenString key ++ ":") v ++ ",")
        (field :: rest) := rfl

/-! ### The form -/

theorem toList_writeItemsOnto {items : List Value}
    (h : ∀ v ∈ items, ∀ written, (writeOnto written v).toList =
      written.toList ++ v.tokens.flatMap Token.form) (written : String) :
    (writeItemsOnto written items).toList =
      written.toList ++ (itemTokens items).flatMap Token.form := by
  induction items generalizing written with
  | nil => simp [writeItemsOnto, itemTokens, Token.form]
  | cons v rest ih =>
      have hv := h v (List.mem_cons_self ..)
      have hrest := ih fun w hw => h w (List.mem_cons_of_mem _ hw)
      cases rest with
      | nil => simp [writeItemsOnto, itemTokens, Token.form, hv]
      | cons w rest =>
          rw [writeItemsOnto_cons_cons, hrest, String.toList_append, hv, itemTokens_cons_cons]
          simp [Token.form]

theorem toList_writeFieldsOnto {fields : List (Option String × Value)}
    (h : ∀ field ∈ fields, ∀ written, (writeOnto written field.2).toList =
      written.toList ++ field.2.tokens.flatMap Token.form) (written : String) :
    (writeFieldsOnto written fields).toList =
      written.toList ++ (fieldTokens fields).flatMap Token.form := by
  induction fields generalizing written with
  | nil => simp [writeFieldsOnto, fieldTokens, Token.form]
  | cons field rest ih =>
      obtain ⟨key, v⟩ := field
      have hv := h (key, v) (List.mem_cons_self ..)
      have hrest := ih fun w hw => h w (List.mem_cons_of_mem _ hw)
      cases rest with
      | nil => simp [writeFieldsOnto, fieldTokens, Token.form, hv]
      | cons w rest =>
          rw [writeFieldsOnto_cons_cons, hrest, String.toList_append, hv, fieldTokens_cons_cons]
          simp [Token.form]

theorem toList_writeOnto (written : String) (v : Value) :
    (writeOnto written v).toList = written.toList ++ v.tokens.flatMap Token.form := by
  induction v using Value.byParts generalizing written with
  | null => simp [writeOnto, tokens, Token.form]
  | bool b => cases b <;> simp [writeOnto, tokens, Token.form]
  | number literal => simp [writeOnto, tokens, Token.form]
  | string content => simp [writeOnto, tokens, Token.form]
  | array items ih => simp [writeOnto, tokens, Token.form, toList_writeItemsOnto ih]
  | object fields ih => simp [writeOnto, tokens, Token.form, toList_writeFieldsOnto ih]

/-- The compact form of a value is made of the forms of its tokens. -/
theorem toList_write (v : Value) : v.write.toList = v.tokens.flatMap Token.form := by
  rw [write, toList_writeOnto, String.toList_empty, List.nil_append]

/-- Writing goes on where it was. -/
theorem writeOnto_eq (written : String) (v : Value) : writeOnto written v = written ++ v.write := by
  apply String.toList_inj.mp
  rw [toList_writeOnto, String.toList_append, toList_write]

theorem write_ofNat (n : Nat) : (ofNat n).write = toString n := by
  rw [write, ofNat, writeOnto, String.empty_append]

theorem write_ofString (text : String) : (ofString text).write = writtenString (some text) := by
  rw [write, ofString, writeOnto, String.empty_append]

/-- The compact form of an array has commas between the forms of its items. -/
theorem write_array (items : List Value) :
    (array items).write = "[" ++ ",".intercalate (items.map write) ++ "]" := by
  have hitems (written : String) :
      writeItemsOnto written items = written ++ ",".intercalate (items.map write) ++ "]" := by
    induction items generalizing written with
    | nil => simp [writeItemsOnto]
    | cons v rest ih =>
        cases rest with
        | nil => simp [writeItemsOnto, writeOnto_eq]
        | cons w rest =>
            rw [writeItemsOnto_cons_cons, ih, writeOnto_eq, List.map_cons, List.map_cons,
              List.map_cons, String.intercalate_cons_cons]
            simp only [String.append_assoc]
  rw [write, writeOnto, hitems, String.empty_append]

/-- A name and the compact form of its value. -/
def writtenField (field : String × Value) : String :=
  writtenString (some field.1) ++ ":" ++ field.2.write

/-- The compact form of an object has commas between its fields. -/
theorem write_ofFields (fields : List (String × Value)) :
    (ofFields fields).write =
      "\x7b" ++ ",".intercalate (fields.map writtenField) ++ "\x7d" := by
  have hfields (written : String) :
      writeFieldsOnto written (fields.map fun field => (some field.1, field.2)) =
        written ++ ",".intercalate (fields.map writtenField) ++ "\x7d" := by
    induction fields generalizing written with
    | nil => simp [writeFieldsOnto]
    | cons field rest ih =>
        cases rest with
        | nil => simp [writeFieldsOnto, writeOnto_eq, writtenField, String.append_assoc]
        | cons other rest =>
            have hfield : writtenField field =
                writtenString (some field.1) ++ ":" ++ field.2.write := rfl
            simp only [List.map_cons] at ih ⊢
            rw [writeFieldsOnto_cons_cons, ih, writeOnto_eq, String.intercalate_cons_cons, hfield]
            simp only [String.append_assoc]
  rw [write, ofFields, writeOnto, hfields, String.empty_append]

/-! ### The tokens of the form -/

/-- A number ends where an item or a field ends. -/
theorem stops_of_mem {c : Char} (h : c ∈ [',', ']', '\x7d']) : NumberPart.Stops c := by
  intro part
  simp only [List.mem_cons, List.not_mem_nil, or_false] at h
  obtain rfl | rfl | rfl := h <;> cases part <;> rfl

/-- A value is found again in its form before any text that does not continue a number. -/
abbrev Found (v : Value) : Prop :=
  ∀ rest tokens, Lexes rest tokens → (∀ c ∈ rest.head?, NumberPart.Stops c) →
    Lexes (v.tokens.flatMap Token.form ++ rest) (v.tokens ++ tokens)

variable {rest : List Char} {tokens : List Token}

/-- A token that is no number is found again in its form. -/
theorem lexes_form {t : Token} (h : t.Proper) (hnumber : ∀ literal, t ≠ .number literal)
    (tail : Lexes rest tokens) : Lexes (t.form ++ rest) (t :: tokens) :=
  .token h.spells (fun literal ht => absurd ht (hnumber literal)) tail

theorem found_singleton {v : Value} {t : Token} (h : v.tokens = [t]) (ht : t.Proper) :
    v.Found := by
  intro rest tokens tail hstops
  rw [h, List.flatMap_singleton]
  exact .token ht.spells (fun _ _ => hstops) tail

theorem lexes_itemTokens {items : List Value} (h : ∀ v ∈ items, v.Found)
    (tail : Lexes rest tokens) :
    Lexes ((itemTokens items).flatMap Token.form ++ rest) (itemTokens items ++ tokens) := by
  have hclose := lexes_form (t := .closeArray) trivial (by simp) tail
  induction items with
  | nil => exact hclose
  | cons v more ih =>
      have hv := h v (List.mem_cons_self ..)
      cases more with
      | nil =>
          have hfound := hv _ _ hclose (by simp [Token.form, stops_of_mem])
          simpa [itemTokens] using hfound
      | cons w more =>
          have hmore := ih fun u hu => h u (List.mem_cons_of_mem _ hu)
          have hcomma := lexes_form (t := .comma) trivial (by simp) hmore
          have hfound := hv _ _ hcomma (by simp [Token.form, stops_of_mem])
          simpa [itemTokens_cons_cons] using hfound

theorem lexes_fieldTokens {fields : List (Option String × Value)}
    (h : ∀ field ∈ fields, field.1.isSome = true ∧ field.2.Found) (tail : Lexes rest tokens) :
    Lexes ((fieldTokens fields).flatMap Token.form ++ rest) (fieldTokens fields ++ tokens) := by
  have hclose := lexes_form (t := .closeObject) trivial (by simp) tail
  induction fields with
  | nil => exact hclose
  | cons field more ih =>
      obtain ⟨key, v⟩ := field
      obtain ⟨hkey, hv⟩ := h (key, v) (List.mem_cons_self ..)
      have hname {rest tokens} (tail : Lexes rest tokens) :
          Lexes ((Token.string key).form ++ (Token.colon.form ++ rest))
            (.string key :: .colon :: tokens) :=
        lexes_form hkey (by simp) (lexes_form (t := .colon) trivial (by simp) tail)
      cases more with
      | nil =>
          have hfound := hname (hv _ _ hclose (by simp [Token.form, stops_of_mem]))
          simpa [fieldTokens] using hfound
      | cons w more =>
          have hmore := ih fun u hu => h u (List.mem_cons_of_mem _ hu)
          have hcomma := lexes_form (t := .comma) trivial (by simp) hmore
          have hfound := hname (hv _ _ hcomma (by simp [Token.form, stops_of_mem]))
          simpa [fieldTokens_cons_cons] using hfound

/-- The numbers of a value are numbers, and its strings and keys have a text. -/
inductive Proper : Value → Prop where
  | null : Proper .null
  | bool (b) : Proper (.bool b)
  | number {literal} (h : NumberPart.Reads literal.toList) : Proper (.number literal)
  | string {content} (h : content.isSome = true) : Proper (.string content)
  | array {items} (h : ∀ v ∈ items, Proper v) : Proper (.array items)
  | object {fields} (hkeys : ∀ field ∈ fields, field.1.isSome = true)
      (hvalues : ∀ field ∈ fields, Proper field.2) : Proper (.object fields)

theorem Proper.found {v : Value} (h : v.Proper) : v.Found := by
  induction h with
  | null => exact found_singleton rfl trivial
  | bool b => exact found_singleton rfl trivial
  | number h => exact found_singleton rfl h
  | string h => exact found_singleton rfl h
  | array _ ih =>
      intro rest tokens tail _
      exact lexes_form (t := .openArray) trivial (by simp) (lexes_itemTokens ih tail)
  | object hkeys _ ih =>
      intro rest tokens tail _
      have hfields := lexes_fieldTokens (fun field hf => ⟨hkeys field hf, ih field hf⟩) tail
      exact lexes_form (t := .openObject) trivial (by simp) hfields

/-- The scan of the compact form finds the tokens of the value. -/
theorem Proper.tokens?_write {v : Value} (h : v.Proper) :
    tokens? v.write.toList = some v.tokens := by
  have hfound := h.found [] [] .nil (by simp)
  rw [List.append_nil, List.append_nil, ← toList_write] at hfound
  exact tokens?_of_lexes hfound

/-! ### The value of the tokens -/

/-- The tokens of a value are read as the value, whatever array or object it belongs to. -/
abbrev ReadAnywhere (v : Value) : Prop :=
  ∀ context, v.tokens.foldlM State.next (.value context) = some (State.place v context)

/-- No item begins with the end of an array. -/
theorem exists_itemTokens_eq_cons (v : Value) (rest : List Value) :
    ∃ first more, itemTokens (v :: rest) = first :: more ∧ first ≠ .closeArray := by
  obtain ⟨more, hmore⟩ : ∃ more, itemTokens (v :: rest) = v.tokens ++ more := by
    cases rest <;> exact ⟨_, rfl⟩
  rw [hmore]
  cases v <;> exact ⟨_, _, rfl, by simp⟩

theorem foldlM_itemTokens {items : List Value} (h : ∀ v ∈ items, v.ReadAnywhere)
    (hitems : items ≠ []) (before : List Value) (context : List Frame) :
    (itemTokens items).foldlM State.next (.value (.item before :: context)) =
      some (State.place (.array (before.reverse ++ items)) context) := by
  induction items generalizing before with
  | nil => exact absurd rfl hitems
  | cons v rest ih =>
      have hv := h v (List.mem_cons_self ..) (.item before :: context)
      cases rest with
      | nil =>
          rw [itemTokens, List.foldlM_append, hv]
          simp [State.place, State.next]
      | cons w rest =>
          have hrest := ih (fun u hu => h u (List.mem_cons_of_mem _ hu)) (by simp) (v :: before)
          rw [itemTokens_cons_cons, List.foldlM_append, hv, Option.bind_eq_bind, Option.bind_some,
            List.foldlM_cons]
          simpa [State.place, State.next] using hrest

theorem foldlM_fieldTokens {fields : List (Option String × Value)}
    (h : ∀ field ∈ fields, field.2.ReadAnywhere) (hfields : fields ≠ [])
    (before : List (Option String × Value)) (context : List Frame) :
    (fieldTokens fields).foldlM State.next (.key before context) =
      some (State.place (.object (before.reverse ++ fields)) context) := by
  induction fields generalizing before with
  | nil => exact absurd rfl hfields
  | cons field rest ih =>
      obtain ⟨key, v⟩ := field
      have hv := h (key, v) (List.mem_cons_self ..) (.field before key :: context)
      cases rest with
      | nil => simp [fieldTokens, List.foldlM_append, State.next, hv, State.place]
      | cons w rest =>
          have hrest := ih (fun u hu => h u (List.mem_cons_of_mem _ hu)) (by simp)
            ((key, v) :: before)
          simpa [fieldTokens_cons_cons, List.foldlM_append, State.next, hv, State.place]
            using hrest

theorem readAnywhere (v : Value) : v.ReadAnywhere := by
  induction v using Value.byParts with
  | null => exact fun _ => rfl
  | bool b => exact fun _ => rfl
  | number literal => exact fun _ => rfl
  | string content => exact fun _ => rfl
  | array items ih =>
      intro context
      cases items with
      | nil => rfl
      | cons v rest =>
          -- an array that has just been opened differs from a later item only in its end
          have hitems := foldlM_itemTokens ih (by simp) [] context
          obtain ⟨first, more, htokens, hfirst⟩ := exists_itemTokens_eq_cons v rest
          have hnext : State.next (.firstItem context) first =
              State.next (.value (.item [] :: context)) first := by
            cases first <;> first | rfl | exact absurd rfl hfirst
          rw [htokens, List.foldlM_cons, ← hnext] at hitems
          rw [tokens, htokens, List.foldlM_cons]
          exact hitems
  | object fields ih =>
      intro context
      cases fields with
      | nil => rfl
      | cons field rest =>
          have hfields := foldlM_fieldTokens ih (by simp) [] context
          cases rest <;> exact hfields

theorem ofTokens?_tokens (v : Value) : ofTokens? v.tokens = some v := by
  rw [ofTokens?, readAnywhere]
  rfl

/-- What was written is read back. -/
theorem Proper.read?_write {v : Value} (h : v.Proper) : read? v.write = some v := by
  rw [read?, h.tokens?_write, Option.bind_some, ofTokens?_tokens]

/-! ### Numbers and texts -/

theorem next?_integer_digitChar :
    ∀ d < 10, NumberPart.integer.next? (Nat.digitChar d) = some .integer := by decide

theorem start?_digitChar :
    ∀ d < 10, 0 < d → NumberPart.start? (Nat.digitChar d) = some .integer := by decide

/-- The digits of a positive number are an integer that does not begin with a zero. -/
theorem exists_toDigits_eq_cons {n : Nat} (h : 0 < n) :
    ∃ c rest, Nat.toDigits 10 n = c :: rest ∧ NumberPart.start? c = some .integer ∧
      rest.foldlM NumberPart.next? .integer = some .integer := by
  induction n using Nat.base_induction 10 (by decide) with
  | single d hd =>
      rw [Nat.toDigits_of_lt_base hd]
      exact ⟨_, [], rfl, start?_digitChar d hd h, rfl⟩
  | digit n d hd hn ih =>
      obtain ⟨c, rest, hdigits, hstart, hrest⟩ := ih hn
      refine ⟨c, rest ++ [d.digitChar], ?_, hstart, ?_⟩
      · rw [← Nat.toDigits_append_toDigits (by decide) hn hd, hdigits,
          Nat.toDigits_of_lt_base hd, List.cons_append]
      · rw [List.foldlM_append, hrest]
        simp [next?_integer_digitChar d hd]

theorem proper_ofNat (n : Nat) : (ofNat n).Proper := by
  apply Proper.number
  rw [Nat.toString_eq_ofList_toDigits, String.toList_ofList]
  obtain rfl | hpos := Nat.eq_zero_or_pos n
  · exact ⟨'0', [], .zero, .zero, rfl, rfl, rfl, rfl⟩
  · obtain ⟨c, rest, hdigits, hstart, hrest⟩ := exists_toDigits_eq_cons hpos
    exact ⟨c, rest, .integer, .integer, hdigits, hstart, hrest, rfl⟩

theorem proper_ofString (text : String) : (ofString text).Proper := .string rfl

theorem proper_ofFields {fields : List (String × Value)} (h : ∀ field ∈ fields, field.2.Proper) :
    (ofFields fields).Proper := by
  apply Proper.object
  · intro field hfield
    obtain ⟨known, -, rfl⟩ := List.mem_map.mp hfield
    rfl
  · intro field hfield
    obtain ⟨known, hknown, rfl⟩ := List.mem_map.mp hfield
    exact h known hknown

end Value

end Verdict.Json
