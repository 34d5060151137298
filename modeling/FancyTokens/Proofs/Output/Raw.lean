import FancyTokens.Output.Raw
import FancyTokens.Proofs.Scan.Source
import FancyTokens.Proofs.Text.Quoting

/-!
# Reading raw output

Raw output has one line for each token, and each line has two fields with a tab between them
(`splitOn_render`, `splitOn_entry`). Line by line the categories and texts are read back
(`read?_render`). The output therefore determines them, and for the tokens of a source all else
(`raw_output_determines`).
-/

namespace FancyTokens
namespace Raw

variable {t : Token} {tokens : List Token}

/-! ## Lines and fields -/

/-- The first field of a line. -/
def label (category : Category) : List Char :=
  "Token.".toList ++ category.dottedName.toList

/-- The line of a token without its end. -/
def entry (t : Token) : List Char :=
  label t.category ++ '\t' :: quoteText t.text

theorem notMem_label {c : Char} (breaks : c ∈ breakers) (category : Category) :
    c ∉ label category := by
  have clean : breakers.all (fun d => !(label category).contains d) = true := by
    cases category <;> decide
  simpa using List.all_eq_true.1 clean c breaks

/-- A line has two fields, a category and a quoted text. -/
theorem splitOn_entry (t : Token) :
    splitOn '\t' (entry t) = [label t.category, quoteText t.text] := by
  have name : '\t' ∉ label t.category := notMem_label (by decide) t.category
  have text : '\t' ∉ quoteText t.text := (isSealed_quoteText t.text).notMem (by decide)
  rw [entry, splitOn_append_cons name, splitOn_eq_singleton text]

theorem newline_notMem_entry (t : Token) : '\n' ∉ entry t := by
  have name : '\n' ∉ label t.category := notMem_label (by decide) t.category
  have text : '\n' ∉ quoteText t.text := (isSealed_quoteText t.text).notMem (by decide)
  simp [entry, name, text]

theorem line_eq (t : Token) : line t = entry t ++ ['\n'] :=
  rfl

/-- There is one line for each token, and nothing behind the last line. -/
theorem splitOn_render (tokens : List Token) :
    splitOn '\n' (render tokens) = tokens.map entry ++ [[]] := by
  induction tokens with
  | nil => rfl
  | cons t tokens ih =>
    have first : render (t :: tokens) = entry t ++ '\n' :: render tokens := by
      show line t ++ render tokens = _
      rw [line_eq, List.append_assoc, List.singleton_append]
    rw [first, splitOn_append_cons (newline_notMem_entry t), ih, List.map_cons, List.cons_append]

/-! ## Reading -/

/-- What a line says. -/
def readLine? (s : List Char) : Option (Category × List Char) :=
  match splitOn '\t' s with
  | [name, '"' :: quoted] => do
    let category ← Category.ofName? (.ofList name)
    match ← readQuoted? quoted with
    | (text, []) => return (category, text)
    | _ => none
  | _ => none

/-- The categories and texts that some lines say. -/
def read? (s : List Char) : Option (List (Category × List Char)) :=
  match (splitOn '\n' s).reverse with
  | [] :: lines => lines.reverse.mapM readLine?
  | _ => none

theorem ofName?_label (category : Category) :
    Category.ofName? (.ofList (label category)) = some category := by
  have name : (String.ofList (label category)).toList =
      'T' :: 'o' :: 'k' :: 'e' :: 'n' :: '.' :: category.dottedName.toList :=
    String.toList_ofList
  rw [Category.ofName?, name]
  show Category.ofDottedName? (.ofList category.dottedName.toList) = some category
  rw [String.ofList_toList, Category.ofDottedName?_dottedName]

theorem readLine?_entry (t : Token) : readLine? (entry t) = some (t.category, t.text) := by
  have quoted : quoteText t.text = '"' :: (t.text.flatMap (escaped '"') ++ ['"']) := rfl
  rw [readLine?, splitOn_entry, quoted]
  simp [ofName?_label, readQuoted?_flatMap]

/-- The categories and texts of tokens are read from their output. -/
theorem read?_render (tokens : List Token) :
    read? (render tokens) = some (tokens.map fun t => (t.category, t.text)) := by
  have lines : (tokens.map entry).mapM readLine? =
      some (tokens.map fun t => (t.category, t.text)) := by
    induction tokens with
    | nil => rfl
    | cons t tokens ih =>
      rw [List.map_cons, List.mapM_cons, readLine?_entry, ih]
      rfl
  rw [read?, splitOn_render, List.reverse_append]
  simp [lines]

/-- Raw output has one line for each token, with its category and its quoted text as the only
fields, and no text adds a line or a field. The output determines the categories and texts, and if
they are those of a source, it determines the source and the offsets. -/
theorem raw_output_determines :
    (∀ tokens, splitOn '\n' (render tokens) = tokens.map entry ++ [[]]) ∧
      (∀ t, splitOn '\t' (entry t) =
          ["Token.".toList ++ t.category.dottedName.toList, quoteText t.text] ∧
        IsSealed (quoteText t.text)) ∧
      (∀ tokens tokens', render tokens = render tokens' →
        (tokens.map fun t => (t.category, t.text)) = tokens'.map fun t => (t.category, t.text)) ∧
      ∀ source, ∃ pieces, read? (render (tokenize source)) = some pieces ∧
        (pieces.map Prod.snd).flatten = source ∧ placeFrom 0 pieces = tokenize source := by
  refine ⟨splitOn_render, fun t => ⟨splitOn_entry t, isSealed_quoteText t.text⟩, ?_, ?_⟩
  · intro tokens tokens' same
    have read := read?_render tokens
    rw [same, read?_render] at read
    exact (Option.some.inj read).symm
  · intro source
    refine ⟨categorized source, read?_render _, ?_, placeFrom_tokenize source⟩
    have whole := detokenize_tokenize source
    rw [detokenize, List.flatMap_def] at whole
    rw [categorized, List.map_map]
    exact whole

/-- Tokens at different places have the same output, since it does not show their offsets. -/
theorem raw_output_determines_displaced :
    let tokens : List Token := [⟨.error, 0, 1, "Token.\t\"\\\n\u0301".toList⟩, ⟨.name, 7, 2, []⟩]
    let tokens' : List Token := [⟨.error, 5, 5, "Token.\t\"\\\n\u0301".toList⟩, ⟨.name, 0, 0, []⟩]
    render tokens = render tokens' ∧
      (tokens.map fun t => (t.category, t.text)) = tokens'.map fun t => (t.category, t.text) := by
  intro tokens tokens'
  have same : render tokens = render tokens' := rfl
  exact ⟨same, raw_output_determines.2.2.1 tokens tokens' same⟩

end Raw
end FancyTokens
