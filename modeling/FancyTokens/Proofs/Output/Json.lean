import FancyTokens.Preprocessing
import FancyTokens.Proofs.Json.Scalars
import FancyTokens.Proofs.Scan.Source
import Mathlib.Data.List.Forall2

/-!
# Reading JSON output

What is written as JSON is read as what it has been written for: after strings and numbers, arrays
(`readValue?_array`) and objects (`readValue?_object`). Reading the output of some tokens therefore
gives one object for each of them, with the four members that say what the token is
(`json_output_reads_back`).
-/

namespace FancyTokens

open JsonValue

variable {s rest : List Char} {c : Char} {n fuel need : Nat}

/-! ## What is written -/

/-- The JSON value of a field. -/
def FieldValue.json : FieldValue → JsonValue
  | .text s => .string (some s)
  | .number n => .number (decimal n)

/-- The JSON value of a record. -/
def Record.json (record : Record) : JsonValue :=
  .object (record.map fun field => (some field.1.toList, field.2.json))

namespace JsonOutput

/-! ## Items of a block -/

/-- The end of a line and the indentation of the next one. -/
def lineStart (column : Nat) : List Char :=
  '\n' :: List.replicate column ' '

/-- What follows an item of a block: further items, and the end of the block. -/
def behindItem (column : Nat) (closing : Char) (items : List (List Char)) (rest : List Char) :
    List Char :=
  items.flatMap (fun item => ',' :: lineStart (column + 2) ++ item) ++
    (lineStart column ++ closing :: rest)

section Blocks

variable {column : Nat} {opening closing : Char} {item : List Char} {items : List (List Char)}

theorem isSpace_of_mem_lineStart (mem : c ∈ lineStart column) : isSpace c = true := by
  rcases List.mem_cons.1 mem with rfl | mem
  · decide
  · rw [List.eq_of_mem_replicate mem]
    decide

theorem behindItem_nil (rest : List Char) :
    behindItem column closing [] rest = lineStart column ++ closing :: rest := rfl

theorem behindItem_cons (rest : List Char) : behindItem column closing (item :: items) rest =
    ',' :: (lineStart (column + 2) ++ (item ++ behindItem column closing items rest)) := by
  simp [behindItem]

/-- An item is followed by a comma or the end of its line. -/
theorem exists_behindItem (column : Nat) (closing : Char) (items : List (List Char))
    (rest : List Char) :
    ∃ c t, (c = ',' ∨ c = '\n') ∧ behindItem column closing items rest = c :: t := by
  cases items with
  | nil => exact ⟨_, _, .inr rfl, rfl⟩
  | cons item items => exact ⟨_, _, .inl rfl, behindItem_cons rest⟩

theorem block_nil (rest : List Char) :
    block column opening closing [] ++ rest = opening :: closing :: rest := rfl

theorem block_cons (rest : List Char) : block column opening closing (item :: items) ++ rest =
    opening :: (lineStart (column + 2) ++ (item ++ behindItem column closing items rest)) := by
  simp [block, behindItem, lineStart]

/-- A text that denotes a value is read as the value in front of what follows an item. -/
theorem Denotes.read_item {value : JsonValue} (h : Denotes need item value)
    (enough : need ≤ fuel) (column : Nat) (closing : Char) (items : List (List Char))
    (rest : List Char) : readValue? fuel (item ++ behindItem column closing items rest) =
      some (value, behindItem column closing items rest) := by
  obtain ⟨c, t, separator, behind⟩ := exists_behindItem column closing items rest
  rw [behind]
  exact h.read fuel enough c separator t

/-- Behind the last item only the end of the block is left. -/
theorem skipSpace_behindItem_nil (visible : isSpace closing = false) (rest : List Char) :
    skipSpace (behindItem column closing [] rest) = closing :: rest := by
  rw [behindItem_nil, skipSpace_append fun _ mem => isSpace_of_mem_lineStart mem,
    skipSpace_cons visible]

theorem skipSpace_behindItem_cons (rest : List Char) :
    skipSpace (behindItem column closing (item :: items) rest) =
      ',' :: (lineStart (column + 2) ++ (item ++ behindItem column closing items rest)) := by
  rw [behindItem_cons, skipSpace_cons (by decide)]

/-! ## Arrays -/

section Arrays

variable {α : Type} {write : α → List Char} {value : α → JsonValue}

/-- The elements of an array are read one by one. -/
theorem readElements?_items (column : Nat) {x : α} {xs : List α}
    (h : ∀ y ∈ x :: xs, Denotes need (write y) (value y)) (enough : need + xs.length < fuel)
    (rest : List Char) :
    readElements? fuel (write x ++ behindItem column ']' (xs.map write) rest) =
      some ((x :: xs).map value, rest) := by
  induction xs generalizing x fuel with
  | nil =>
    obtain ⟨fuel, rfl⟩ : ∃ k, fuel = k + 1 := ⟨fuel - 1, by omega⟩
    rw [List.length_nil] at enough
    have fits : need ≤ fuel := by omega
    have first := (h x (by simp)).read_item fits column ']' [] rest
    have last : skipSpace (behindItem column ']' [] rest) = ']' :: rest :=
      skipSpace_behindItem_nil (by decide) rest
    simp [readElements?, first, last]
  | cons y ys ih =>
    obtain ⟨fuel, rfl⟩ : ∃ k, fuel = k + 1 := ⟨fuel - 1, by omega⟩
    rw [List.length_cons] at enough
    have fits : need ≤ fuel := by omega
    have fewer : need + ys.length < fuel := by omega
    have first := (h x (by simp)).read_item fits column ']' ((y :: ys).map write) rest
    have later := ih (x := y) (fun z mem => h z (List.mem_cons_of_mem x mem)) fewer
    rw [List.map_cons] at first ⊢
    simp [readElements?, first, skipSpace_behindItem_cons, later,
      readElements?_append fun _ mem => isSpace_of_mem_lineStart mem]

/-- An array is read as the values of its elements. -/
theorem readValue?_array {xs : List α} (h : ∀ x ∈ xs, Denotes need (write x) (value x))
    (enough : need + xs.length < fuel) (rest : List Char) :
    readValue? fuel (block column '[' ']' (xs.map write) ++ rest) =
      some (.array (xs.map value), rest) := by
  obtain ⟨fuel, rfl⟩ : ∃ k, fuel = k + 1 := ⟨fuel - 1, by omega⟩
  cases xs with
  | nil =>
    rw [List.map_nil, block_nil]
    rfl
  | cons x xs =>
    rw [List.length_cons] at enough
    have fewer : need + xs.length < fuel := by omega
    have elements := readElements?_items column h fewer rest
    obtain ⟨c, t, start, visible, other⟩ := (h x (by simp)).first
    have blanks : ∀ d ∈ lineStart (column + 2), isSpace d = true :=
      fun _ mem => isSpace_of_mem_lineStart mem
    rw [start, List.cons_append] at elements
    rw [List.map_cons, block_cons, readValue?_bracket, skipSpace_append blanks, start,
      List.cons_append, skipSpace_cons visible]
    split
    -- no element starts with the bracket that would close an empty array
    · next empty => exact absurd (List.cons.inj empty).1 other
    · rw [elements]
      rfl

end Arrays

/-! ## Objects -/

theorem denotes_value (value : FieldValue) : Denotes 1 (JsonOutput.value value) value.json := by
  cases value with
  | text s => exact denotes_string s
  | number n => exact denotes_decimal n

/-- The member of an object for a field. -/
def memberOf (field : String × FieldValue) : Option (List Char) × JsonValue :=
  (some field.1.toList, field.2.json)

theorem member_eq (field : String × FieldValue) : member field =
    '"' :: (field.1.toList.flatMap escaped ++ '"' :: ':' :: ' ' :: value field.2) := by
  simp [member, string]

/-- The value of a member is read behind the space after its colon. -/
theorem readValue?_member (field : String × FieldValue) (enough : 1 ≤ fuel) (column : Nat)
    (items : List (List Char)) (rest : List Char) :
    readValue? fuel (' ' :: (value field.2 ++ behindItem column '}' items rest)) =
      some (field.2.json, behindItem column '}' items rest) := by
  have blank : ∀ c ∈ [' '], isSpace c = true := by simp; decide
  have read := (denotes_value field.2).read_item enough column '}' items rest
  rw [← readValue?_append blank] at read
  exact read

/-- The members of an object are read one by one. -/
theorem readMembers?_fields (column : Nat) (field : String × FieldValue) {fields : Record}
    (enough : fields.length + 1 < fuel) (rest : List Char) :
    readMembers? fuel (member field ++ behindItem column '}' (fields.map member) rest) =
      some ((field :: fields).map memberOf, rest) := by
  have quote (s : List Char) : skipSpace ('"' :: s) = '"' :: s := skipSpace_cons (by decide) s
  have colon (s : List Char) : skipSpace (':' :: s) = ':' :: s := skipSpace_cons (by decide) s
  induction fields generalizing field fuel with
  | nil =>
    obtain ⟨fuel, rfl⟩ : ∃ k, fuel = k + 1 := ⟨fuel - 1, by omega⟩
    rw [List.length_nil] at enough
    have fits : 1 ≤ fuel := by omega
    have value := readValue?_member field fits column [] rest
    have last : skipSpace (behindItem column '}' [] rest) = '}' :: rest :=
      skipSpace_behindItem_nil (by decide) rest
    simp [member_eq, readMembers?, quote, readString?_flatMap, colon, value, last, memberOf]
  | cons next fields ih =>
    obtain ⟨fuel, rfl⟩ : ∃ k, fuel = k + 1 := ⟨fuel - 1, by omega⟩
    rw [List.length_cons] at enough
    have fits : 1 ≤ fuel := by omega
    have fewer : fields.length + 1 < fuel := by omega
    have value := readValue?_member field fits column ((next :: fields).map member) rest
    have later := ih next fewer
    rw [List.map_cons] at value ⊢
    rw [member_eq]
    simp [readMembers?, quote, readString?_flatMap, colon, value, skipSpace_behindItem_cons, later,
      readMembers?_append fun _ mem => isSpace_of_mem_lineStart mem, memberOf]

/-- A record is read as its object. -/
theorem readValue?_object {record : Record} (enough : record.length + 1 < fuel)
    (rest : List Char) : readValue? fuel (object record ++ rest) = some (record.json, rest) := by
  obtain ⟨fuel, rfl⟩ : ∃ k, fuel = k + 1 := ⟨fuel - 1, by omega⟩
  cases record with
  | nil =>
    rw [object, List.map_nil, block_nil]
    rfl
  | cons field fields =>
    rw [List.length_cons] at enough
    have fewer : fields.length + 1 < fuel := by omega
    have members := readMembers?_fields 2 field fewer rest
    have blanks : ∀ d ∈ lineStart 4, isSpace d = true :=
      fun _ mem => isSpace_of_mem_lineStart mem
    rw [member_eq, List.cons_append] at members
    rw [object, List.map_cons, block_cons, readValue?_brace, skipSpace_append blanks, member_eq,
      List.cons_append, skipSpace_cons (by decide)]
    split
    · next empty => exact absurd (List.cons.inj empty).1 (by decide)
    · rw [members]
      rfl

theorem denotes_object (record : Record) :
    Denotes (record.length + 2) (object record) record.json := by
  refine ⟨?_, ?_⟩
  · cases record with
    | nil => exact ⟨_, _, rfl, by decide, by decide⟩
    | cons field fields => exact ⟨_, _, rfl, by decide, by decide⟩
  · intro fuel enough c _ rest
    exact readValue?_object (by omega) (c :: rest)

/-! ## Lengths -/

/-- A block is at least as long as its items with their commas or line breaks. -/
theorem le_length_behindItem {k : Nat} (h : ∀ item ∈ items, k ≤ item.length) (rest : List Char) :
    items.length * k ≤ (behindItem column closing items rest).length := by
  induction items with
  | nil => simp
  | cons item items ih =>
    have first : k ≤ item.length := h item (by simp)
    have later := ih fun item mem => h item (List.mem_cons_of_mem _ mem)
    have length : (items.length + 1) * k = items.length * k + k := Nat.succ_mul _ _
    rw [behindItem_cons, List.length_cons]
    simp only [List.length_cons, List.length_append]
    omega

theorem le_length_block (column : Nat) (opening closing : Char) {k : Nat}
    (h : ∀ item ∈ items, k ≤ item.length) :
    items.length * k ≤ (block column opening closing items).length := by
  cases items with
  | nil => simp
  | cons item items =>
    have first : k ≤ item.length := h item (by simp)
    have later : items.length * k ≤ (behindItem column closing items []).length :=
      le_length_behindItem (fun item mem => h item (List.mem_cons_of_mem _ mem)) []
    have length : (items.length + 1) * k = items.length * k + k := Nat.succ_mul _ _
    rw [← List.append_nil (block column opening closing (item :: items)), block_cons]
    simp only [List.length_cons, List.length_append]
    omega

end Blocks

/-! ## Tokens -/

/-- The object of a token has at least sixteen characters. -/
theorem le_length_object (t : Token) : 16 ≤ (object t.record).length := by
  have members : ∀ item ∈ t.record.map member, 4 ≤ item.length := by
    intro item mem
    obtain ⟨field, -, rfl⟩ := List.mem_map.1 mem
    rw [member_eq]
    simp only [List.length_cons, List.length_append]
    omega
  exact le_length_block 2 '{' '}' members

/-- The output of some tokens is read as the array of their objects. -/
theorem read?_render (tokens : List Token) :
    JsonValue.read? (render tokens) = some (.array (tokens.map fun t => t.record.json)) := by
  have items : (tokens.map Token.record).map object = tokens.map fun t => object t.record :=
    List.map_map
  have objects : ∀ t ∈ tokens, Denotes 6 (object t.record) t.record.json :=
    fun t _ => denotes_object t.record
  have value : readValue? (2 * (render tokens).length) (render tokens ++ []) =
      some (.array (tokens.map fun t => t.record.json), []) := by
    rw [render, array, items]
    cases tokens with
    | nil => rfl
    | cons t tokens =>
      have each : ∀ item ∈ (t :: tokens).map fun t => object t.record, 16 ≤ item.length := by
        intro item mem
        obtain ⟨t, -, rfl⟩ := List.mem_map.1 mem
        exact le_length_object t
      have long := le_length_block 0 '[' ']' each
      rw [List.length_map, List.length_cons] at long
      exact readValue?_array objects (by rw [List.length_cons]; omega) []
  rw [List.append_nil] at value
  rw [JsonValue.read?, value]
  rfl

/-- The value is an object with exactly four members, which say what the token is. -/
def IsObjectOf (t : Token) (value : JsonValue) : Prop :=
  ∃ category start stop text,
    value = .object [(some "category".toList, category), (some "start".toList, start),
      (some "end".toList, stop), (some "text".toList, text)] ∧
    category.text? = some t.category.dottedName.toList ∧
    Category.ofJson? category = some t.category ∧
    start.unsigned? 64 = some t.start ∧
    stop.unsigned? 64 = some t.stop ∧
    text.text? = some t.text

theorem ofJson?_dottedName (category : Category) :
    Category.ofJson? (.string (some category.dottedName.toList)) = some category := by
  rw [Category.ofJson?, String.ofList_toList, Category.ofDottedName?_dottedName]

/-- A number of some bits is read as such from its digits. -/
theorem unsigned?_decimal {bits : Nat} (below : n < 2 ^ bits) :
    (JsonValue.number (decimal n)).unsigned? bits = some n := by
  simp [JsonValue.unsigned?, readDigits?_decimal, below]

theorem isObjectOf_json {t : Token} (start : t.start < 2 ^ 64) (stop : t.stop < 2 ^ 64) :
    IsObjectOf t t.record.json :=
  ⟨_, _, _, _, rfl, rfl, ofJson?_dottedName t.category, unsigned?_decimal start,
    unsigned?_decimal stop, rfl⟩

/-- The text that an object has as its member of this name. -/
def tokenText? : JsonValue → Option (List Char)
  | .object members =>
    (members.find? (·.1 == some "text".toList)).bind fun member => member.2.text?
  | _ => none

/-- The texts of the tokens that a text holds. -/
def texts? (s : List Char) : Option (List (List Char)) :=
  match JsonValue.read? s with
  | some (.array values) => values.mapM tokenText?
  | _ => none

/-- The texts of tokens are read from their output. -/
theorem texts?_render (tokens : List Token) :
    texts? (render tokens) = some (tokens.map (·.text)) := by
  rw [texts?, read?_render]
  simp only
  induction tokens with
  | nil => rfl
  | cons t tokens ih =>
    have text : tokenText? t.record.json = some t.text := by
      simp [tokenText?, Record.json, Token.record, FieldValue.json, JsonValue.text?]
    rw [List.map_cons, List.mapM_cons, text, ih]
    rfl

/-- The output of tokens with offsets of sixty-four bits is read as an array of one object for each
token, in their order, that says what the token is. From the output of the tokens of a source, the
source is read. -/
theorem json_output_reads_back :
    (∀ tokens : List Token, (∀ t ∈ tokens, t.start < 2 ^ 64 ∧ t.stop < 2 ^ 64) →
      ∃ values, JsonValue.read? (render tokens) = some (.array values) ∧
        List.Forall₂ IsObjectOf tokens values) ∧
    ∀ source, (texts? (render (tokenize source))).map List.flatten = some source := by
  constructor
  · intro tokens bounds
    refine ⟨_, read?_render tokens, ?_⟩
    rw [List.forall₂_map_right_iff, List.forall₂_same]
    intro t mem
    exact isObjectOf_json (bounds t mem).1 (bounds t mem).2
  · intro source
    rw [texts?_render, Option.map_some, ← List.flatMap_def]
    exact congrArg some (detokenize_tokenize source)

/-- Two tokens that do not fit together, one of them with a text that has to be escaped. -/
theorem json_output_reads_back_escaped :
    let tokens : List Token := [
      ⟨.instanceVariable, 2 ^ 64 - 1, 0, "\x00\x1f\"\\/\n\u2028é😀".toList⟩, ⟨.error, 3, 3, []⟩]
    (∀ t ∈ tokens, t.start < 2 ^ 64 ∧ t.stop < 2 ^ 64) ∧
      ∃ values, JsonValue.read? (render tokens) = some (.array values) ∧
        List.Forall₂ IsObjectOf tokens values := by
  intro tokens
  have bounds : ∀ t ∈ tokens, t.start < 2 ^ 64 ∧ t.stop < 2 ^ 64 := by decide
  exact ⟨bounds, json_output_reads_back.1 tokens bounds⟩

end JsonOutput
end FancyTokens
