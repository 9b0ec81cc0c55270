import Gait.Json
import Gait.Proofs.Text.Reading

/-!
# JSON lines read back

`fields?` reads an object of one line: keys and texts with their escapes, numbers, flags and lists,
and nothing behind the closing brace.  `fields?_object` says that it gets back the fields that
`object` was given, in the order of their keys; only an empty list does not tell what it is a list
of, and is read as one of texts.
-/

namespace Gait.Json

open Text

/-! ## Texts -/

/-- The character that an escape of one character stands for. -/
def unescape? : Char → Option Char
  | '"' => some '"'
  | '\\' => some '\\'
  | '/' => some '/'
  | 'b' => some '\x08'
  | 'f' => some '\x0c'
  | 'n' => some '\n'
  | 'r' => some '\r'
  | 't' => some '\t'
  | _ => none

/-- A character given by its number in four hexadecimal digits. -/
def readCode? (cs : List Char) : Option (Char × List Char) := do
  let (high, cs) ← readByte? cs
  let (low, cs) ← readByte? cs
  let n := 256 * high.toNat + low.toNat
  if n.isValidChar then return (Char.ofNat n, cs) else none

/-- A character of a text, which may be escaped. -/
def readChar? : List Char → Option (Char × List Char)
  | '\\' :: 'u' :: cs => readCode? cs
  | '\\' :: c :: cs => (unescape? c).map fun c => (c, cs)
  | c :: cs => some (c, cs)
  | [] => none

/-- The rest of a text up to its closing quote. -/
def readChars? : (fuel : Nat) → List Char → Option (List Char × List Char)
  | 0, _ => none
  | fuel + 1, cs =>
    match cs.dropPrefix? ['"'] with
    | some cs => some ([], cs)
    | none => do
      let (c, cs) ← readChar? cs
      let (text, cs) ← readChars? fuel cs
      return (c :: text, cs)

/-- A text between quotes. -/
def readText? (cs : List Char) : Option (String × List Char) := do
  let cs ← cs.dropPrefix? ['"']
  let (text, cs) ← readChars? cs.length cs
  return (String.ofList text, cs)

theorem readCode?_of_lt {n : Nat} (control : n < 0x20) (cs : List Char) :
    readCode? ('0' :: '0' :: Nat.digitChar (n / 16) :: Nat.digitChar (n % 16) :: cs) =
      some (Char.ofNat n, cs) := by
  have high : n / 16 < 16 := by omega
  have low : n % 16 < 16 := by omega
  have zero : Toml.hexValue? '0' = some 0 := rfl
  have whole : (16 * (n / 16) + n % 16) % 256 = n := by omega
  have valid : n.isValidChar := .inl (by omega)
  simp [readCode?, readByte?, zero, hexValue?_digitChar _ high, hexValue?_digitChar _ low, whole,
    valid]

/-- A character is read back from the way it is written. -/
theorem readChar?_escapeChar (c : Char) (cs : List Char) :
    readChar? (escapeChar c ++ cs) = some (c, cs) := by
  unfold escapeChar
  split
  all_goals try rfl
  · next _ noBackslash _ _ _ _ _ =>
    split
    · next control =>
      refine (readCode?_of_lt control cs).trans ?_
      rw [Char.ofNat_toNat]
    · rw [List.singleton_append, readChar?]
      · exact fun _ here => (noBackslash here).elim
      · exact fun _ _ here => (noBackslash here).elim

theorem escapeChar_ne_nil (c : Char) : escapeChar c ≠ [] := by
  unfold escapeChar
  split
  all_goals try split
  all_goals exact List.cons_ne_nil _ _

theorem dropPrefix?_escapeChar (c : Char) (cs : List Char) :
    (escapeChar c ++ cs).dropPrefix? ['"'] = none := by
  unfold escapeChar
  split
  all_goals try rfl
  · next noQuote _ _ _ _ _ _ =>
    split
    · rfl
    · have other : c ≠ '"' := noQuote
      simp [List.dropPrefix?, other]

theorem readChars?_written (text : List Char) (rest : List Char) {fuel : Nat}
    (enough : text.length < fuel) :
    readChars? fuel (text.flatMap escapeChar ++ '"' :: rest) = some (text, rest) := by
  induction text generalizing fuel with
  | nil =>
      obtain ⟨fuel, rfl⟩ := Nat.exists_eq_add_one.2 enough
      simp [readChars?, List.dropPrefix?]
  | cons c text ih =>
      obtain ⟨fuel, rfl⟩ := Nat.exists_eq_add_one.2 (Nat.lt_of_le_of_lt (Nat.zero_le _) enough)
      rw [List.flatMap_cons, List.append_assoc, readChars?, dropPrefix?_escapeChar]
      simp [readChar?_escapeChar, ih (Nat.lt_of_succ_lt_succ enough)]

theorem toList_quote (s : String) :
    (quote s).toList = '"' :: (s.toList.flatMap escapeChar ++ ['"']) := by
  simp [quote]

theorem length_le_flatMap_escapeChar (text : List Char) :
    text.length ≤ (text.flatMap escapeChar).length := by
  induction text with
  | nil => exact Nat.le_refl 0
  | cons c text ih =>
      have one := List.length_pos_iff.2 (escapeChar_ne_nil c)
      rw [List.flatMap_cons, List.length_append, List.length_cons]
      omega

/-- A text is read back from between its quotes. -/
theorem readText?_quote (s : String) (rest : List Char) :
    readText? ((quote s).toList ++ rest) = some (s, rest) := by
  have enough : s.toList.length < (s.toList.flatMap escapeChar ++ '"' :: rest).length := by
    have bound := length_le_flatMap_escapeChar s.toList
    rw [List.length_append, List.length_cons]
    omega
  have read := readChars?_written s.toList rest enough
  rw [toList_quote, List.cons_append, List.append_assoc, List.singleton_append, readText?]
  simp only [List.dropPrefix?, BEq.rfl, if_true, bind, Option.bind, read, pure,
    String.ofList_toList]

/-! ## Values -/

/-- A text, a flag, a list of texts, a list of numbers or a number. -/
def readValue? (cs : List Char) : Option (Value × List Char) :=
  ((readText? cs).map fun (s, cs) => (.text s, cs)) <|>
  ((cs.dropPrefix? "true".toList).map fun cs => (.flag true, cs)) <|>
  ((cs.dropPrefix? "false".toList).map fun cs => (.flag false, cs)) <|>
  (((cs.dropPrefix? ['[']).bind (readList? readText? [','] [']'])).map
    fun (xs, cs) => (.texts xs, cs)) <|>
  (((cs.dropPrefix? ['[']).bind (readList? readNumber? [','] [']'])).map
    fun (xs, cs) => (.numbers xs, cs)) <|>
  ((readNumber? cs).map fun (i, cs) => (.number i, cs))

/-- A key and its value. -/
def readField? (cs : List Char) : Option ((String × Value) × List Char) := do
  let (key, cs) ← readText? cs
  let (value, cs) ← readValue? (← cs.dropPrefix? [':'])
  return ((key, value), cs)

/-- The fields of an object that is a whole line. -/
def fields? (line : String) : Option (List (String × Value)) := do
  let cs ← line.toList.dropPrefix? ['\x7b']
  let (fields, rest) ← readList? readField? [','] ['\x7d'] cs
  if rest.isEmpty then return fields else none

theorem toList_array {α : Type} (written : α → String) (xs : List α) :
    (array (xs.map written)).toList =
      '[' :: ([','].intercalate (xs.map fun x => (written x).toList) ++ [']']) := by
  simp [array, String.toList_intercalate, Function.comp_def]

theorem readList?_texts (xs : List String) (rest : List Char) :
    readList? readText? [','] [']']
      ([','].intercalate (xs.map fun s => (quote s).toList) ++ (']' :: rest)) =
        some (xs, rest) := by
  refine readList?_intercalate (by decide) (fun _ => rfl) (fun s _ cs => ?_)
    (fun s _ cs _ => readText?_quote s cs) rest
  rw [toList_quote]
  rfl

theorem readText?_toString (i : Int) (cs : List Char) :
    readText? ((toString i).toList ++ cs) = none := by
  rw [readText?, dropPrefix?_toString i cs (by decide)]
  rfl

theorem readList?_texts_of_numbers (i : Int) (is : List Int) (rest : List Char) :
    readList? readText? [','] [']']
      ([','].intercalate ((i :: is).map fun i => (toString i).toList) ++ (']' :: rest)) = none := by
  obtain ⟨behind, first⟩ := exists_intercalate_cons [','] (toString i).toList
    (is.map fun i => (toString i).toList)
  rw [List.map_cons, first, List.append_assoc, readList?, dropPrefix?_toString i _ (by decide),
    readItems?, readText?_toString]
  rfl

theorem readValue?_of_bracket (cs : List Char) :
    readValue? ('[' :: cs) =
      (((readList? readText? [','] [']'] cs).map fun (xs, cs) => (.texts xs, cs)) <|>
        ((readList? readNumber? [','] [']'] cs).map fun (xs, cs) => (.numbers xs, cs))) := by
  have noNumber : readNumber? ('[' :: cs) = none := rfl
  simp [readValue?, readText?, List.dropPrefix?, noNumber]

/-- A value is read back, in front of anything that is no part of a number. -/
theorem readValue?_written (v : Value) (told : v ≠ .numbers []) {rest : List Char}
    (ends : ∀ c ∈ rest.head?, isNumeric c = false) :
    readValue? (v.written.toList ++ rest) = some (v, rest) := by
  cases v with
  | text s => simp [Value.written, readValue?, readText?_quote]
  | number i =>
      have noTrue : ((toString i).toList ++ rest).dropPrefix? "true".toList = none :=
        dropPrefix?_toString i rest (by decide)
      have noFalse : ((toString i).toList ++ rest).dropPrefix? "false".toList = none :=
        dropPrefix?_toString i rest (by decide)
      have noList : ((toString i).toList ++ rest).dropPrefix? ['['] = none :=
        dropPrefix?_toString i rest (by decide)
      rw [Value.written, readValue?, readText?_toString, noTrue, noFalse, noList,
        readNumber?_toString i ends]
      rfl
  | flag b => cases b <;> simp [Value.written, readValue?, readText?, List.dropPrefix?]
  | texts xs =>
      rw [Value.written, toList_array, List.cons_append, List.append_assoc, List.singleton_append,
        readValue?_of_bracket, readList?_texts]
      rfl
  | numbers xs =>
      cases xs with
      | nil => exact (told rfl).elim
      | cons i is =>
          have numbers : readList? readNumber? [','] [']'] (_ ++ (']' :: rest)) = _ :=
            readList?_numbers (by decide) (by decide) (fun _ => rfl) (i :: is) rest
          rw [Value.written, toList_array, List.cons_append, List.append_assoc,
            List.singleton_append, readValue?_of_bracket, readList?_texts_of_numbers, numbers]
          rfl

/-! ## Fields -/

/-- A field as it is written. -/
def fieldText (f : String × Value) : List Char := (quote f.1 ++ ":" ++ f.2.written).toList

theorem readsBack_field {f : String × Value} (told : f.2 ≠ .numbers []) :
    ReadsBack readField? fieldText [','] ['\x7d'] f := by
  intro cs continues
  have ends : ∀ c ∈ cs.head?, isNumeric c = false := by
    rcases continues with ⟨rest, rfl⟩ | ⟨rest, rfl⟩ <;> rintro _ ⟨⟩ <;> decide
  have value := readValue?_written f.2 told ends
  have written : fieldText f ++ cs = (quote f.1).toList ++ (':' :: (f.2.written.toList ++ cs)) := by
    simp [fieldText]
  rw [written, readField?, readText?_quote]
  simp [List.dropPrefix?, value]

theorem readList?_fields {fields : List (String × Value)}
    (told : ∀ f ∈ fields, f.2 ≠ .numbers []) (rest : List Char) :
    readList? readField? [','] ['\x7d']
      ([','].intercalate (fields.map fieldText) ++ ('\x7d' :: rest)) = some (fields, rest) := by
  refine readList?_intercalate (by decide) (fun _ => rfl) (fun f _ cs => ?_)
    (fun f member => readsBack_field (told f member)) rest
  simp [fieldText, quote, List.dropPrefix?]

/-- Fields between braces, in the order in which they are given. -/
def inBraces (fields : List (String × Value)) : String :=
  "\x7b" ++ ",".intercalate (fields.map fun f => quote f.1 ++ ":" ++ f.2.written) ++ "\x7d"

theorem toList_inBraces (fields : List (String × Value)) :
    (inBraces fields).toList = '\x7b' :: ([','].intercalate (fields.map fieldText) ++ ['\x7d']) := by
  rw [inBraces, String.toList_append, String.toList_append, String.toList_intercalate,
    List.map_map]
  rfl

theorem fields?_inBraces {fields : List (String × Value)} (told : ∀ f ∈ fields, f.2 ≠ .numbers []) :
    fields? (inBraces fields) = some fields := by
  rw [fields?, toList_inBraces]
  simp [List.dropPrefix?, readList?_fields told]

/-- Fields in the order of their keys. -/
def byKey (fields : List (String × Value)) : List (String × Value) :=
  fields.mergeSort fun a b => decide (a.1 ≤ b.1)

theorem object_eq (fields : List (String × Value)) : object fields = inBraces (byKey fields) := rfl

/-- What an object was written from is read back from it, in the order of the keys. -/
theorem fields?_object {fields : List (String × Value)}
    (told : ∀ f ∈ fields, f.2 ≠ .numbers []) :
    fields? (object fields) = some (byKey fields) :=
  fields?_inBraces fun f member => told f (List.mem_mergeSort.1 member)

example : fields? "\x7b\"name\":\"a \\\"b\\\"\",\"sizes\":[0,-12]\x7d" =
    some [("name", .text "a \"b\""), ("sizes", .numbers [0, -12])] := by
  decide +kernel

end Gait.Json
