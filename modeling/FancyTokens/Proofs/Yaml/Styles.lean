import FancyTokens.Proofs.Yaml.Quoted

/-!
# Scalars written and read

A block is read line by line; `readLines_indented` follows its text character by character, with a
flag for the start of a line, and `chomp_append_lineEnd` says that the breaks at its end are those
of the text. Whatever its style, a text is therefore read as itself (`readScalar?_writeLine`).
-/

namespace FancyTokens
namespace Yaml

variable {s rest : List Char} {c : Char}

/-! ## Blocks -/

/-- What stands behind a field: the next field, the next item or nothing. -/
def AtMargin (rest : List Char) : Prop :=
  rest = [] ∨ (∃ s, rest = '-' :: s) ∨ ∃ c s, rest = ' ' :: ' ' :: c :: s ∧ c.isLower = true

/-- A block ends at the margin. -/
theorem readLines_margin (margin : AtMargin rest) : readLines 4 4 rest = ([], rest) := by
  rcases margin with rfl | ⟨s, rfl⟩ | ⟨c, s, rfl, lower⟩
  · rfl
  · rfl
  · have other (d : Char) (no : d.isLower = false) : c ≠ d := ne_of_class lower no
    have break_ : isBreak c = false := by simp [isBreak, other]
    have space : isBreak ' ' = false := by decide
    simp [readLines, break_, space, other]

theorem readLines_break {column : Nat} (break_ : isBreak c = true) (missing : Nat)
    (s : List Char) : readLines column missing (c :: s) =
      (c :: (readLines column column s).1, (readLines column column s).2) := by
  rw [readLines.eq_def]
  simp [break_]

theorem readLines_cons {column : Nat} (break_ : isBreak c = false) (s : List Char) :
    readLines column 0 (c :: s) = (c :: (readLines column 0 s).1, (readLines column 0 s).2) := by
  rw [readLines.eq_def]
  simp [break_]

/-- How many spaces are missing at the start of a line, or later. -/
def missing (fresh : Bool) : Nat :=
  if fresh then 4 else 0

/-- A block is read character by character. -/
theorem readLines_indented (fresh : Bool) (s tail : List Char) :
    readLines 4 (missing fresh) (indented fresh s ++ tail) =
      (s ++ (readLines 4 (missing (freshAfter fresh s)) tail).1,
        (readLines 4 (missing (freshAfter fresh s)) tail).2) := by
  induction s generalizing fresh with
  | nil => rfl
  | cons c s ih =>
    rw [freshAfter]
    by_cases break_ : isBreak c = true
    · have later := ih true
      rw [missing, if_pos rfl] at later
      rw [indented_break break_, List.cons_append, readLines_break break_, later, break_]
      rfl
    · rw [Bool.not_eq_true] at break_
      have skip : readLines 4 (missing fresh) (indented fresh (c :: s) ++ tail) =
          readLines 4 0 (c :: (indented false s ++ tail)) := by
        rw [indented_cons break_]
        cases fresh <;> rfl
      have later := ih false
      rw [missing, if_neg Bool.false_ne_true] at later
      rw [skip, readLines_cons break_, later, break_]
      rfl

/-! ### Headers -/

/-- No digit stands before the sign of a header. -/
theorem readDigit_chomping (s rest : List Char) :
    readDigit (chomping s ++ '\n' :: rest) = (none, chomping s ++ '\n' :: rest) := by
  unfold chomping
  split
  · rfl
  · split_ifs <;> rfl
  · split_ifs <;> rfl

/-- The end of the last line of a text, if the text does not hold it. -/
def lineEnd (s : List Char) : List Char :=
  if s.getLast?.any isBreak then [] else ['\n']

/-- The sign of a header says how many of the breaks at the end belong to the text. -/
theorem chomp_append_lineEnd (nonempty : s ≠ []) (rest : List Char) :
    ∃ sign, readSign (chomping s ++ '\n' :: rest) = (sign, '\n' :: rest) ∧
      chomp sign (s ++ lineEnd s) = s := by
  obtain ⟨u, c, rfl⟩ : ∃ u c, s = u ++ [c] := ⟨_, _, (List.dropLast_concat_getLast nonempty).symm⟩
  by_cases break_ : isBreak c = true
  · have own : lineEnd (u ++ [c]) = [] := by simp [lineEnd, break_]
    rw [own, List.append_nil]
    rcases u.eq_nil_or_concat with rfl | ⟨u, d, rfl⟩
    · -- a lone break stands behind no line, so it is kept like a second one
      exact ⟨some '+', by simp [chomping, break_, readSign], rfl⟩
    · by_cases several : isBreak d = true
      · exact ⟨some '+', by simp [chomping, break_, several, readSign], rfl⟩
      · have body : (u ++ [d] ++ [c]).rdropWhile isBreak = u ++ [d] := by
          rw [List.rdropWhile_concat_pos _ _ _ break_, List.rdropWhile_concat_neg _ _ _ several]
        refine ⟨none, by simp [chomping, break_, several, readSign], ?_⟩
        rw [List.concat_eq_append, chomp, body]
        simp
  · -- the break behind the text is not its own
    have added : lineEnd (u ++ [c]) = ['\n'] := by simp [lineEnd, break_]
    have sign : chomping (u ++ [c]) = ['-'] := by
      rcases u.eq_nil_or_concat with rfl | ⟨u, d, rfl⟩ <;> simp [chomping, break_]
    refine ⟨some '-', by simp [sign, readSign], ?_⟩
    rw [added, chomp, List.rdropWhile_concat_pos _ _ _ (by decide),
      List.rdropWhile_concat_neg _ _ _ break_]
    rfl

/-- The lines of a block end where its text and the last line do. -/
theorem readLines_lineEnd (nonempty : s ≠ []) (margin : AtMargin rest) :
    readLines 4 4 (indented true s ++ (lineEnd s ++ rest)) = (s ++ lineEnd s, rest) := by
  have lines := readLines_indented true s (lineEnd s ++ rest)
  have after : freshAfter true s = s.getLast?.any isBreak := by
    obtain ⟨c, t, rfl⟩ := List.exists_cons_of_ne_nil nonempty
    exact freshAfter_eq (c :: t)
  rw [missing, if_pos rfl, after] at lines
  rw [lines, lineEnd]
  by_cases ends : s.getLast?.any isBreak = true
  · rw [missing, if_pos ends, if_pos ends, List.nil_append, readLines_margin margin]
  · rw [missing, if_neg ends, if_neg ends, List.singleton_append, readLines_break (by decide),
      readLines_margin margin]

/-- The first line shows how far the lines of a block are indented, unless the header says it. -/
theorem shownIndent?_indented (first : s.head?.any (fun c => c = ' ' || isBreak c) = false)
    (nonempty : s ≠ []) (rest : List Char) : shownIndent? (indented true s ++ rest) = some 4 := by
  obtain ⟨c, t, rfl⟩ := List.exists_cons_of_ne_nil nonempty
  simp only [List.head?_cons, Option.any_some, Bool.or_eq_false_iff,
    decide_eq_false_iff_not] at first
  simp [shownIndent?, indented, indent, first.1, first.2]

/-- A text in a block is read as itself. -/
theorem readScalar?_writeBlock (nonempty : s ≠ []) (margin : AtMargin rest) :
    readScalar? (writeBlock s ++ lineEnd s ++ rest) = some (.text s, rest) := by
  obtain ⟨sign, read, text⟩ :=
    chomp_append_lineEnd nonempty (indented true s ++ (lineEnd s ++ rest))
  have lines := readLines_lineEnd nonempty margin
  have form : writeBlock s ++ lineEnd s ++ rest =
      '|' :: ((if s.head?.any fun c => c = ' ' || isBreak c then ['2'] else []) ++
        (chomping s ++ '\n' :: (indented true s ++ (lineEnd s ++ rest)))) := by
    simp only [writeBlock, blockHeader, List.append_assoc, List.cons_append]
  rw [form, readScalar?]
  by_cases first : (s.head?.any fun c => c = ' ' || isBreak c) = true
  · have two (s : List Char) : readDigit ('2' :: s) = (some 2, s) := rfl
    rw [if_pos first, List.singleton_append, readBlock?, two]
    simp [read, lines, text]
  · rw [Bool.not_eq_true] at first
    rw [first, if_neg Bool.false_ne_true, List.nil_append, readBlock?, readDigit_chomping]
    simp [read, shownIndent?_indented first nonempty, lines, text]

/-! ## All styles -/

/-- The line of a plain scalar is read. -/
theorem readScalar?_plain (plain : IsUnmarked s) (rest : List Char) :
    readScalar? (s ++ '\n' :: rest) = some (resolve s, rest) := by
  have inside : ∀ c ∈ s, (!isBreak c) = true := by
    intro c mem
    rw [plain.noBreak c mem]
    rfl
  have line : (s ++ '\n' :: rest).span (!isBreak ·) = (s, '\n' :: rest) := by
    apply span_append inside
    rintro c ⟨⟩
    rfl
  have unmarked (d : Char) (mark : isIndicator d = true) (t : List Char) :
      s ++ '\n' :: rest ≠ d :: t := by
    intro same
    obtain ⟨c, s, rfl⟩ := List.exists_cons_of_ne_nil plain.ne_nil
    have first := plain.noIndicator c rfl
    rw [(List.cons.inj same).1, mark] at first
    cases first
  rw [readScalar?, line]
  · simp [plain.readPlain?_eq]
  · exact unmarked '\x27' (by decide)
  · exact unmarked '"' (by decide)
  · exact unmarked '|' (by decide)

/-- Whatever its style, a text is read as itself. -/
theorem readScalar?_writeLine (s : List Char) (margin : AtMargin rest) :
    readScalar? (writeLine s ++ rest) = some (.text s, rest) := by
  unfold writeLine
  cases kind : style s with
  | plain =>
    have plain := standsPlain_of_style kind
    simp only [List.append_assoc, List.singleton_append]
    rw [readScalar?_plain plain.toIsUnmarked, plain.resolve_eq]
  | single =>
    unfold style at kind
    split_ifs at kind with newline block plain single
    simp only [List.append_assoc, List.singleton_append]
    exact readScalar?_writeSingle single (by simpa using newline) rest
  | double =>
    simp only [List.append_assoc, List.singleton_append]
    exact readScalar?_writeDouble s rest
  | block =>
    have nonempty : s ≠ [] := by
      rintro rfl
      cases kind
    exact readScalar?_writeBlock nonempty margin

end Yaml
end FancyTokens
