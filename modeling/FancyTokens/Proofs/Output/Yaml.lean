import FancyTokens.Output.Yaml
import FancyTokens.Proofs.Yaml.Printable
import FancyTokens.Proofs.Yaml.Styles

/-!
# Reading YAML output

The output of tokens is read as a sequence of mappings, in which texts are texts and offsets are
numbers (`read?_render_of_bounded`). It therefore determines the tokens, and no text that is written
without quotation marks could be taken for anything else (`yaml_output_reads_back`).
-/

namespace FancyTokens
namespace YamlOutput

open Yaml

variable {n : Nat} {c d : Char} {s rest : List Char} {tokens tokens' : List Token}

/-! ## Numbers -/

theorem notMem_decimal (other : d.isDigit = false) (n : Nat) : d ∉ decimal n := by
  intro mem
  rw [isDigit_of_mem_decimal mem] at other
  cases other

/-- A word that holds something other than digits is no number. -/
theorem isWord_decimal {words : List String}
    (h : words.all (fun w => w.toList.isEmpty || w.toList.any (!·.isDigit)) = true) (n : Nat) :
    isWord words (decimal n) = false := by
  rw [isWord, List.any_eq_false]
  intro w mem same
  rw [beq_iff_eq] at same
  have form := List.all_eq_true.1 h w mem
  rw [same, List.isEmpty_eq_false_iff.2 (decimal_ne_nil n), Bool.false_or, List.any_eq_true] at form
  obtain ⟨c, inside, other⟩ := form
  exact notMem_decimal (by simpa using other) n inside

theorem dropSign_decimal (n : Nat) : dropSign (decimal n) = decimal n := by
  have plus : '+' ∉ decimal n := notMem_decimal rfl n
  have minus : '-' ∉ decimal n := notMem_decimal rfl n
  unfold dropSign
  split
  · next form => simp [form] at plus
  · next form => simp [form] at minus
  · rfl

theorem isZeroLed_decimal (n : Nat) : isZeroLed (decimal n) = false := by
  rw [isZeroLed, dropSign_decimal]
  split
  · next c s form =>
    have several : 1 < (decimal n).length := by simp [form]
    exact absurd (by simp [form]) (head?_decimal_of_length several)
  · rfl

theorem basedDigits_decimal (n : Nat) : basedDigits (decimal n) = (10, decimal n) := by
  have hexadecimal : 'x' ∉ decimal n := notMem_decimal rfl n
  have octal : 'o' ∉ decimal n := notMem_decimal rfl n
  have binary : 'b' ∉ decimal n := notMem_decimal rfl n
  unfold basedDigits
  split
  · next form => simp [form] at hexadecimal
  · next form => simp [form] at octal
  · next form => simp [form] at binary
  · rfl

theorem isInteger_decimal (below : n < 2 ^ 128) : isInteger (decimal n) = true := by
  have plus : '+' ∉ decimal n := notMem_decimal rfl n
  have minus : '-' ∉ decimal n := notMem_decimal rfl n
  unfold isInteger
  split
  · next form => simp [form] at minus
  · split
    next base digits parts =>
    split at parts
    · next form => simp [form] at plus
    · rw [basedDigits_decimal] at parts
      cases parts
      simpa [readDigits?_decimal] using below

/-- A number is no text. -/
theorem resolve_decimal (below : n < 2 ^ 128) : resolve (decimal n) = .number (decimal n) := by
  have null : isWord nullWords (decimal n) = false := isWord_decimal (by decide) n
  have truth : isWord booleanWords (decimal n) = false := isWord_decimal (by decide) n
  have special : isWord specialNumberWords (decimal n) = false := isWord_decimal (by decide) n
  simp [resolve, null, truth, special, isZeroLed_decimal, isInteger_decimal below]

/-- A digit is no white space, break, indicator or mark. -/
theorem plain_of_isDigit (digit : c.isDigit = true) :
    isWhite c = false ∧ isBreak c = false ∧ isIndicator c = false ∧ isMark c = false := by
  have other (d : Char) (no : d.isDigit = false) : c ≠ d := ne_of_class digit no
  refine ⟨?_, ?_, ?_, ?_⟩ <;> simp [isWhite, isBreak, isIndicator, isMark, other]

theorem isUnmarked_decimal (n : Nat) : IsUnmarked (decimal n) := by
  have plain : ∀ c ∈ decimal n,
      isWhite c = false ∧ isBreak c = false ∧ isIndicator c = false ∧ isMark c = false :=
    fun c mem => plain_of_isDigit (isDigit_of_mem_decimal mem)
  refine ⟨decimal_ne_nil n, ?_, ?_, ?_, ?_, ?_, ?_, ?_, ?_⟩
  · exact fun c first => (plain c (List.mem_of_head? first)).2.2.1
  · intro c rest form marked
    rw [(plain c (by simp [form])).2.2.2] at marked
    cases marked
  · exact fun c first => (plain c (List.mem_of_head? first)).1
  · exact fun c last => (plain c (List.mem_of_getLast? last)).1
  · exact fun last => notMem_decimal rfl n (List.mem_of_getLast? last)
  · exact fun c mem => (plain c mem).2.1
  · exact fun c _ inside => notMem_decimal (d := ':') rfl n (inside.mem (by simp))
  · exact fun c _ inside => notMem_decimal (d := '#') rfl n (inside.mem (by simp))

/-! ## Fields -/

/-- What the value of a field is read as. -/
def readAs : FieldValue → Scalar
  | .text s => .text s
  | .number n => resolve (decimal n)

/-- What a record is read as. -/
def mapping (record : Record) : Mapping :=
  record.map fun field => (field.1.toList, readAs field.2)

theorem readScalar?_value (value : FieldValue) (margin : AtMargin rest) :
    readScalar? (YamlOutput.value value ++ rest) = some (readAs value, rest) := by
  cases value with
  | text s => exact readScalar?_writeLine s margin
  | number n =>
    show readScalar? (decimal n ++ ['\n'] ++ rest) = _
    rw [List.append_assoc]
    exact readScalar?_plain (isUnmarked_decimal n) rest

/-- A name that can stand before the colon of a field. -/
def IsKey (name : String) : Prop :=
  name.toList ≠ [] ∧ name.toList.all Char.isLower = true

theorem readField?_entry {field : String × FieldValue} (key : IsKey field.1)
    (margin : AtMargin rest) : readField? (entry field ++ rest) =
      some ((field.1.toList, readAs field.2), rest) := by
  have form : entry field ++ rest =
      field.1.toList ++ ':' :: ' ' :: (YamlOutput.value field.2 ++ rest) := by
    simp [entry]
  have name : (entry field ++ rest).span Char.isLower =
      (field.1.toList, ':' :: ' ' :: (YamlOutput.value field.2 ++ rest)) := by
    rw [form]
    apply span_append (List.all_eq_true.1 key.2)
    rintro c ⟨⟩
    rfl
  rw [readField?, name]
  simp [readScalar?_value field.2 margin]

/-- What stands behind a mapping: the next item or nothing. -/
def AtItem (rest : List Char) : Prop :=
  rest = [] ∨ ∃ s, rest = '-' :: s

theorem readFields?_next {field : List Char × Scalar}
    (read : readField? s = some (field, ' ' :: ' ' :: rest)) (fuel : Nat) :
    readFields? (fuel + 1) s =
      (readFields? fuel rest).map fun read => (field :: read.1, read.2) := by
  simp only [readFields?, read, Option.bind_eq_bind, Option.bind_some]
  cases readFields? fuel rest <;> rfl

/-- The fields below the first one. -/
def below (fields : Record) : List Char :=
  fields.flatMap fun field => [' ', ' '] ++ entry field

theorem below_cons (field : String × FieldValue) (fields : Record) (rest : List Char) :
    below (field :: fields) ++ rest = ' ' :: ' ' :: (entry field ++ (below fields ++ rest)) := by
  simp [below]

/-- The fields of a mapping are read one by one. -/
theorem readFields?_entries {field : String × FieldValue} {fields : Record}
    (keys : ∀ f ∈ field :: fields, IsKey f.1) (item : AtItem rest) {fuel : Nat}
    (enough : fields.length < fuel) : readFields? fuel (entry field ++ (below fields ++ rest)) =
      some (mapping (field :: fields), rest) := by
  have key : IsKey field.1 := keys field List.mem_cons_self
  obtain ⟨fuel, rfl⟩ : ∃ k, fuel = k + 1 := ⟨fuel - 1, by omega⟩
  induction fields generalizing field fuel with
  | nil =>
    -- neither a dash nor the end of the text leads to another field
    have margin : AtMargin rest := item.elim .inl fun dash => .inr (.inl dash)
    rw [below, List.flatMap_nil, List.nil_append, readFields?, readField?_entry key margin]
    rcases item with rfl | ⟨s, rfl⟩ <;> rfl
  | cons next fields ih =>
    have next_ : IsKey next.1 := keys next (by simp)
    have margin : AtMargin (' ' :: ' ' :: (entry next ++ (below fields ++ rest))) := by
      obtain ⟨c, t, form⟩ := List.exists_cons_of_ne_nil next_.1
      have lower : c.isLower = true := List.all_eq_true.1 next_.2 c (by simp [form])
      exact .inr (.inr ⟨c, _, by rw [entry, form]; rfl, lower⟩)
    rw [List.length_cons] at enough
    obtain ⟨fuel, rfl⟩ : ∃ k, fuel = k + 1 := ⟨fuel - 1, by omega⟩
    have fewer : fields.length < fuel + 1 := by omega
    have later := ih (fun f mem => keys f (List.mem_cons_of_mem field mem)) next_ fuel fewer
    rw [below_cons, readFields?_next (readField?_entry key margin), later]
    rfl

/-- A record with fields of which the names can stand before a colon. -/
def IsReadable (record : Record) : Prop :=
  record ≠ [] ∧ ∀ field ∈ record, IsKey field.1

/-! ## Characters -/

theorem isOrdinary_of_mem_entry {field : String × FieldValue} (key : IsKey field.1)
    (mem : c ∈ entry field) : isOrdinary c = true := by
  have colon : ∀ c ∈ [':', ' '], isOrdinary c = true := by simp; decide
  simp only [entry, List.mem_append] at mem
  rcases mem with (name | mark) | value
  · exact isOrdinary_of_isLower (List.all_eq_true.1 key.2 c name)
  · exact colon c mark
  · cases kind : field.2 with
    | text s =>
      rw [kind] at value
      exact isOrdinary_of_mem_writeLine value
    | number n =>
      rw [kind, YamlOutput.value, List.mem_append, List.mem_singleton] at value
      rcases value with digit | rfl
      · exact isOrdinary_of_readDigits? (readDigits?_decimal n) digit
      · decide

/-- An item holds only characters that may stand in a document. -/
theorem isOrdinary_of_mem_item {record : Record} (readable : IsReadable record)
    (mem : c ∈ item record) : isOrdinary c = true := by
  have dash : ∀ c ∈ ['-', ' '], isOrdinary c = true := by simp; decide
  have spaces : ∀ c ∈ [' ', ' '], isOrdinary c = true := by simp; decide
  obtain ⟨nonempty, keys⟩ := readable
  obtain ⟨field, fields, rfl⟩ := List.exists_cons_of_ne_nil nonempty
  simp only [item, List.mem_append, List.mem_flatMap] at mem
  rcases mem with (start | first) | ⟨next, inside, indent | line⟩
  · exact dash c start
  · exact isOrdinary_of_mem_entry (keys field List.mem_cons_self) first
  · exact spaces c indent
  · exact isOrdinary_of_mem_entry (keys next (List.mem_cons_of_mem field inside)) line

/-! ## Sequences -/

theorem length_le_length_flatMap {α β : Type} {f : α → List β} {l : List α}
    (h : ∀ x ∈ l, f x ≠ []) : l.length ≤ (l.flatMap f).length := by
  induction l with
  | nil => simp
  | cons x l ih =>
    have first : 0 < (f x).length := List.length_pos_of_ne_nil (h x (by simp))
    have later := ih fun y mem => h y (List.mem_cons_of_mem x mem)
    rw [List.flatMap_cons, List.length_append, List.length_cons]
    omega

theorem exists_item {record : Record} (readable : IsReadable record) :
    ∃ s, item record = '-' :: ' ' :: s := by
  obtain ⟨field, fields, rfl⟩ := List.exists_cons_of_ne_nil readable.1
  exact ⟨_, rfl⟩

/-- The items of a sequence are read one by one. -/
theorem readItems?_items {records : List Record} (readable : ∀ r ∈ records, IsReadable r)
    {fuel : Nat} (enough : records.length ≤ fuel) :
    readItems? fuel (records.flatMap item) = some (records.map mapping) := by
  induction records generalizing fuel with
  | nil => cases fuel <;> rfl
  | cons record records ih =>
    rw [List.length_cons] at enough
    obtain ⟨fuel, rfl⟩ : ∃ k, fuel = k + 1 := ⟨fuel - 1, by omega⟩
    have readable' : ∀ r ∈ records, IsReadable r :=
      fun r mem => readable r (List.mem_cons_of_mem record mem)
    have fewer : records.length ≤ fuel := by omega
    have later := ih readable' fewer
    have behind : AtItem (records.flatMap item) := by
      cases records with
      | nil => exact .inl rfl
      | cons next records =>
        obtain ⟨s, form⟩ := exists_item (readable' next (by simp))
        exact .inr ⟨_, by rw [List.flatMap_cons, form]; rfl⟩
    obtain ⟨nonempty, keys⟩ := readable record List.mem_cons_self
    obtain ⟨field, fields, rfl⟩ := List.exists_cons_of_ne_nil nonempty
    have form : ((field :: fields) :: records).flatMap item =
        '-' :: ' ' :: (entry field ++ (below fields ++ records.flatMap item)) := by
      rw [List.flatMap_cons, item, ← below, List.append_assoc, List.append_assoc]
      rfl
    -- every field takes some characters, so those of the item are fuel enough
    have short : fields.length <
        (entry field ++ (below fields ++ records.flatMap item)).length := by
      have lines : fields.length ≤ (below fields).length :=
        length_le_length_flatMap fun field _ => List.cons_ne_nil _ _
      have first : 0 < (entry field).length := by simp [entry]
      simp only [List.length_append]
      omega
    rw [form, readItems?, readFields?_entries keys behind short]
    simp [later]

theorem item_ne_nil {record : Record} (readable : IsReadable record) : item record ≠ [] := by
  obtain ⟨s, form⟩ := exists_item readable
  simp [form]

/-- A sequence is read item by item. -/
theorem read?_sequence {records : List Record} (readable : ∀ r ∈ records, IsReadable r) :
    read? (sequence records) = some (records.map mapping) := by
  cases records with
  | nil => rfl
  | cons record records =>
    have items : sequence (record :: records) = (record :: records).flatMap item := rfl
    have enough : (record :: records).length ≤ ((record :: records).flatMap item).length :=
      length_le_length_flatMap fun r mem => item_ne_nil (readable r mem)
    have read := readItems?_items readable enough
    have permitted : ((record :: records).flatMap item).all isPermitted = true := by
      rw [List.all_eq_true]
      intro c mem
      obtain ⟨r, inside, mem⟩ := List.mem_flatMap.1 mem
      simp [isPermitted, isOrdinary_of_mem_item (readable r inside) mem]
    obtain ⟨s, form⟩ := exists_item (readable record (by simp))
    rw [List.flatMap_cons, form] at read permitted
    rw [items, List.flatMap_cons, form, read?, permitted, if_neg (by simp), if_neg (by simp)]
    exact read

theorem isReadable_record (t : Token) : IsReadable t.record := by
  have keys : ∀ name ∈ ["category", "start", "end", "text"], IsKey name := by
    unfold IsKey
    decide
  refine ⟨List.cons_ne_nil _ _, ?_⟩
  intro field mem
  exact keys field.1 (List.mem_map_of_mem (f := Prod.fst) mem)

/-- The output of some tokens is read as their records. -/
theorem read?_render (tokens : List Token) :
    read? (render tokens) = some (tokens.map fun t => mapping t.record) := by
  have readable : ∀ r ∈ tokens.map Token.record, IsReadable r := by
    intro r mem
    obtain ⟨t, -, rfl⟩ := List.mem_map.1 mem
    exact isReadable_record t
  rw [render, read?_sequence readable, List.map_map]
  rfl

/-! ## Tokens -/

/-- The text that a mapping has under this name. -/
def tokenText? (fields : Mapping) : Option (List Char) :=
  match fields.find? (·.1 == "text".toList) with
  | some (_, .text s) => some s
  | _ => none

/-- The texts of the tokens that a text holds. -/
def texts? (s : List Char) : Option (List (List Char)) :=
  (read? s).bind fun items => items.mapM tokenText?

/-- The texts of tokens are read from their output. -/
theorem texts?_render (tokens : List Token) :
    texts? (render tokens) = some (tokens.map (·.text)) := by
  rw [texts?, read?_render, Option.bind_some]
  induction tokens with
  | nil => rfl
  | cons t tokens ih =>
    have text : tokenText? (mapping t.record) = some t.text := by
      simp [tokenText?, mapping, Token.record, readAs]
    rw [List.map_cons, List.mapM_cons, text, ih]
    rfl

/-- The offsets of the tokens fit into sixty-four bits. -/
def AreBounded (tokens : List Token) : Prop :=
  ∀ t ∈ tokens, t.start < 2 ^ 64 ∧ t.stop < 2 ^ 64

instance (tokens : List Token) : Decidable (AreBounded tokens) :=
  inferInstanceAs (Decidable (∀ t ∈ tokens, _))

/-- The fields of a token: its category and text are texts, its offsets are numbers. -/
def fieldsOf (t : Token) : Mapping := [
  ("category".toList, .text t.category.dottedName.toList),
  ("start".toList, .number (decimal t.start)),
  ("end".toList, .number (decimal t.stop)),
  ("text".toList, .text t.text)]

theorem dottedName_injective : Function.Injective Category.dottedName := by
  intro a b same
  have read := Category.ofDottedName?_dottedName a
  rw [same, Category.ofDottedName?_dottedName] at read
  exact (Option.some.inj read).symm

theorem fieldsOf_injective : Function.Injective fieldsOf := by
  intro t t' same
  simp only [fieldsOf, List.cons.injEq, Prod.mk.injEq, Scalar.text.injEq, Scalar.number.injEq,
    String.toList_inj, true_and, and_true] at same
  obtain ⟨category, start, stop, text⟩ := same
  have names := dottedName_injective category
  have starts := decimal_injective start
  have stops := decimal_injective stop
  cases t
  cases t'
  simp_all

/-- The output of tokens with offsets of sixty-four bits is read as their fields. -/
theorem read?_render_of_bounded (bounds : AreBounded tokens) :
    read? (render tokens) = some (tokens.map fieldsOf) := by
  rw [read?_render]
  refine congrArg some (List.map_congr_left ?_)
  intro t mem
  obtain ⟨start, stop⟩ := bounds t mem
  have starts := resolve_decimal (n := t.start) (by omega)
  have stops := resolve_decimal (n := t.stop) (by omega)
  show [_, (_, resolve (decimal t.start)), (_, resolve (decimal t.stop)), _] = _
  rw [starts, stops]
  rfl

/-! ## Plain texts -/

/-- The text is written without quotation marks, and not as a block. -/
def IsPlain (s : List Char) : Prop :=
  ∀ c ∈ (writeLine s).head?, c ∉ ['\x27', '"', '|']

theorem style_of_isPlain (plain : IsPlain s) : style s = .plain := by
  unfold IsPlain writeLine at plain
  cases kind : style s with
  | plain => rfl
  | single => exact absurd (plain '\x27' (by rw [kind]; rfl)) (by decide)
  | double => exact absurd (plain '"' (by rw [kind]; rfl)) (by decide)
  | block => exact absurd (plain '|' (by rw [kind]; rfl)) (by decide)

/-- Texts that could be taken for numbers, truth values, nothing, keys or comments. -/
def confusing : List String :=
  ["0x1F", "10", ".5e3", "true", "null", "~", "", "foo:", "# x"]

/-- Output determines tokens with offsets of sixty-four bits, which are read from it with texts as
texts and numbers as numbers. A text that is written plain can stand plain, and whatever its style,
a text is read as itself. -/
theorem yaml_output_reads_back :
    (∀ tokens tokens', AreBounded tokens → AreBounded tokens' → render tokens = render tokens' →
      tokens = tokens') ∧
    (∀ tokens, AreBounded tokens → read? (render tokens) = some (tokens.map fieldsOf)) ∧
    (∀ s, IsPlain s → writeLine s = s ++ ['\n'] ∧ StandsPlain s ∧ resolve s = .text s) ∧
    (∀ s rest, AtMargin rest → readScalar? (writeLine s ++ rest) = some (.text s, rest)) ∧
    ∀ s ∈ confusing, ¬ IsPlain s.toList := by
  refine ⟨?_, fun tokens bounds => read?_render_of_bounded bounds, ?_,
    fun s rest margin => readScalar?_writeLine s margin, ?_⟩
  · intro tokens tokens' bounds bounds' same
    have read := read?_render_of_bounded bounds
    rw [same, read?_render_of_bounded bounds'] at read
    exact (List.map_injective_iff.2 fieldsOf_injective (Option.some.inj read)).symm
  · intro s plain
    have kind := style_of_isPlain plain
    have stands := standsPlain_of_style kind
    exact ⟨by rw [writeLine, kind], stands, stands.resolve_eq⟩
  · intro s mem plain
    have kinds : ∀ s ∈ confusing, style s.toList ≠ .plain := by decide
    exact kinds s mem (style_of_isPlain plain)

/-- Two lists of tokens with texts of all styles, which differ in a break at the end of a block, and
a text that is plain although a space, a mark and a digit are in it. -/
theorem yaml_output_reads_back_mixed :
    let tokens (last : String) : List Token := [
      ⟨.name, 0, 5, "a -1b".toList⟩, ⟨.operator, 2 ^ 64 - 1, 0, "- ".toList⟩,
      ⟨.error, 7, 7, "\x00\u2028\u0085".toList⟩, ⟨.whitespace, 3, 1, last.toList⟩]
    AreBounded (tokens "x\n") ∧ AreBounded (tokens "x\n\n") ∧
      render (tokens "x\n") ≠ render (tokens "x\n\n") ∧
      read? (render (tokens "x\n")) = some ((tokens "x\n").map fieldsOf) ∧
      IsPlain "a -1b".toList ∧ StandsPlain "a -1b".toList ∧
      AtMargin "- start".toList ∧
      readScalar? (writeLine "x\n".toList ++ "- start".toList) =
        some (.text "x\n".toList, "- start".toList) ∧
      ¬ IsPlain "foo:".toList := by
  intro tokens
  have one : AreBounded (tokens "x\n") := by decide
  have two : AreBounded (tokens "x\n\n") := by decide
  have different : tokens "x\n" ≠ tokens "x\n\n" := by decide
  have plain : IsPlain "a -1b".toList := by
    intro c first
    cases first
    decide
  have margin : AtMargin "- start".toList := .inr (.inl ⟨_, rfl⟩)
  have mem : "foo:" ∈ confusing := by decide
  obtain ⟨injective, reads, stands, scalars, never⟩ := yaml_output_reads_back
  exact ⟨one, two, fun same => different (injective _ _ one two same), reads _ one, plain,
    (stands _ plain).2.1, margin, scalars _ _ margin, never _ mem⟩

end YamlOutput
end FancyTokens
