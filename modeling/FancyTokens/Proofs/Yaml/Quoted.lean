import FancyTokens.Proofs.Yaml.Plain

/-!
# Scalars in quotation marks

A text in single or double quotation marks is read as itself (`readScalar?_writeSingle`,
`readScalar?_writeDouble`). Between single ones it is spread over lines with spaces before them, so
`readSingle?_indented` follows it character by character, with a flag for the start of a line.
-/

namespace FancyTokens
namespace Yaml

variable {s tail rest : List Char} {c d : Char} {fresh : Bool}

/-! ## Lines of a text -/

/-- Whether a line starts behind a text. -/
def freshAfter (fresh : Bool) : List Char → Bool
  | [] => fresh
  | c :: s => freshAfter (isBreak c) s

theorem freshAfter_eq (s : List Char) :
    freshAfter false s = s.getLast?.any isBreak := by
  cases s with
  | nil => rfl
  | cons c s =>
    rw [freshAfter]
    induction s generalizing c with
    | nil => rfl
    | cons d s ih => rw [freshAfter, ih, List.getLast?_cons_cons]

theorem indented_break (break_ : isBreak c = true) (fresh : Bool) (s : List Char) :
    indented fresh (c :: s) = c :: indented true s := by
  simp [indented, break_]

theorem indented_cons (break_ : isBreak c = false) (fresh : Bool) (s : List Char) :
    indented fresh (c :: s) = (if fresh then indent else []) ++ c :: indented false s := by
  simp [indented, break_]

theorem anyPair_cons_eq_false {p : Char → Char → Bool} :
    anyPair p (c :: s) = false ↔ (∀ d ∈ s.head?, p c d = false) ∧ anyPair p s = false := by
  cases s <;> simp [anyPair]

/-! ## Single quotation marks -/

/-- A character between single quotation marks. -/
def doubled (c : Char) : List Char :=
  if c = '\x27' then [c, c] else [c]

theorem doubled_of_ne (quote : c ≠ '\x27') : doubled c = [c] :=
  if_neg quote

theorem readSingle?_cons (quote : c ≠ '\x27') (s : List Char) : readSingle? fresh (c :: s) =
    if isFolded c then none
    else if isWhite c && (fresh || (s.dropWhile isWhite).head?.any isBreak) then
      readSingle? fresh s
    else (readSingle? (isBreak c) s).map fun (text, rest) => (c :: text, rest) := by
  rw [readSingle?]
  · exact fun _ same _ => quote same
  · exact quote

/-- A break that is not folded is kept. -/
theorem readSingle?_break (kept : isFolded c = false) (break_ : isBreak c = true) (s : List Char) :
    readSingle? fresh (c :: s) =
      (readSingle? true s).map fun (text, rest) => (c :: text, rest) := by
  have space : c ≠ ' ' := ne_of_class break_ (by decide)
  have tab : c ≠ '\t' := ne_of_class break_ (by decide)
  have white : isWhite c = false := by simp [isWhite, space, tab]
  rw [readSingle?_cons (ne_of_class break_ (by decide)), kept, white, break_]
  rfl

/-- A character is kept if it is no break, and a space if no break is around it. -/
theorem readSingle?_doubled (kept : isFolded c = false) (tab : c ≠ '\t')
    (break_ : isBreak c = false) {s : List Char}
    (space : c = ' ' → fresh = false ∧ (s.dropWhile isWhite).head?.any isBreak = false) :
    readSingle? fresh (doubled c ++ s) =
      (readSingle? false s).map fun (text, rest) => (c :: text, rest) := by
  by_cases quote : c = '\x27'
  · rw [quote]
    rfl
  · have stays : (isWhite c && (fresh || (s.dropWhile isWhite).head?.any isBreak)) = false := by
      by_cases blank : c = ' '
      · obtain ⟨old, visible⟩ := space blank
        rw [old, visible, Bool.or_false, Bool.and_false]
      · simp [isWhite, blank, tab]
    rw [doubled_of_ne quote, List.singleton_append, readSingle?_cons quote, kept, stays, break_]
    rfl

/-- The spaces at the start of a line are dropped. -/
theorem readSingle?_indent (fresh : Bool) (s : List Char) :
    readSingle? fresh ((if fresh then indent else []) ++ s) = readSingle? fresh s := by
  have space (s : List Char) : readSingle? true (' ' :: s) = readSingle? true s := by
    rw [readSingle?_cons (by decide)]
    rfl
  cases fresh with
  | false => rfl
  | true => simp [indent, space]

/-- Where no space stands before a break, none does behind any number of spaces. -/
theorem any_head?_dropWhile_indented (tabs : '\t' ∉ s)
    (before : hasSpaceBeforeBreak (' ' :: s) = false)
    (closes : (tail.dropWhile isWhite).head?.any isBreak = false) :
    (((indented false s).flatMap doubled ++ tail).dropWhile isWhite).head?.any isBreak = false := by
  induction s with
  | nil => exact closes
  | cons c s ih =>
    rw [List.mem_cons, not_or] at tabs
    obtain ⟨here, later⟩ := anyPair_cons_eq_false.1 before
    have break_ : isBreak c = false := by simpa using here c rfl
    have text : indented false (c :: s) = c :: indented false s := indented_cons break_ false s
    rw [text, List.flatMap_cons]
    by_cases space : c = ' '
    · -- the reader passes over it, and the condition on what follows is that on the text before
      subst space
      exact ih tabs.2 later
    · have white : isWhite c = false := by simp [isWhite, space, Ne.symm tabs.1]
      by_cases quote : c = '\x27'
      · subst quote
        rfl
      · rw [doubled_of_ne quote]
        simp [white, break_]

/-- A text between single quotation marks is read character by character. -/
theorem readSingle?_indented (readable : ∀ c ∈ s, isFolded c = false ∧ c ≠ '\t')
    (before : hasSpaceBeforeBreak s = false) (behind : hasBreakBeforeSpace s = false)
    (start : fresh = true → s.head? ≠ some ' ')
    (closes : (tail.dropWhile isWhite).head?.any isBreak = false) :
    readSingle? fresh ((indented fresh s).flatMap doubled ++ tail) =
      (readSingle? (freshAfter fresh s) tail).map fun (text, rest) => (s ++ text, rest) := by
  induction s generalizing fresh with
  | nil =>
    show readSingle? fresh tail = _
    cases read : readSingle? fresh tail <;> simp [freshAfter, read]
  | cons c s ih =>
    obtain ⟨kept, tab⟩ := readable c List.mem_cons_self
    have readable' : ∀ d ∈ s, isFolded d = false ∧ d ≠ '\t' :=
      fun d mem => readable d (List.mem_cons_of_mem c mem)
    obtain ⟨spaces, before'⟩ := anyPair_cons_eq_false.1 before
    obtain ⟨breaks, behind'⟩ := anyPair_cons_eq_false.1 behind
    have later (fresh : Bool) (start : fresh = true → s.head? ≠ some ' ') :
        ((readSingle? fresh ((indented fresh s).flatMap doubled ++ tail)).map
            fun (text, rest) => (c :: text, rest)) =
          (readSingle? (freshAfter fresh s) tail).map
            fun (text, rest) => (c :: s ++ text, rest) := by
      rw [ih readable' before' behind' start]
      cases readSingle? (freshAfter fresh s) tail <;> rfl
    rw [freshAfter]
    by_cases break_ : isBreak c = true
    · -- the next line starts here, and not with a space
      have first : s.head? ≠ some ' ' := by
        intro same
        simpa [break_] using breaks ' ' same
      have plain : doubled c = [c] := doubled_of_ne (ne_of_class break_ (by decide))
      rw [indented_break break_, List.flatMap_cons, plain, List.singleton_append, List.cons_append,
        readSingle?_break kept break_, break_]
      exact later true fun _ => first
    · rw [Bool.not_eq_true] at break_
      have spaces : (if fresh then indent else []).flatMap doubled =
          if fresh then indent else [] := by
        cases fresh <;> rfl
      rw [indented_cons break_, List.flatMap_append, spaces, List.append_assoc,
        readSingle?_indent, List.flatMap_cons, List.append_assoc, break_, ← later false (by simp)]
      apply readSingle?_doubled kept tab break_
      -- a space is kept if it neither starts a line nor leads up to a break
      rintro rfl
      have old : fresh = false := by
        by_contra young
        exact start (Bool.not_eq_false _ ▸ young) rfl
      have tabs : '\t' ∉ s := fun mem => (readable' _ mem).2 rfl
      exact ⟨old, any_head?_dropWhile_indented tabs before closes⟩

theorem isFolded_eq_false (ordinary : isOrdinary c = true) (newline : c ≠ '\n') :
    isFolded c = false := by
  have return_ : c ≠ '\r' := ne_of_class ordinary (by decide)
  have line : c ≠ '\u0085' := ne_of_class ordinary (by decide)
  simp [isFolded, return_, newline, line]

/-- A text in single quotation marks is read as itself. -/
theorem readScalar?_writeSingle (allowed : allowsSingle s = true) (newline : '\n' ∉ s)
    (rest : List Char) : readScalar? (writeSingle s ++ '\n' :: rest) = some (.text s, rest) := by
  simp only [allowsSingle, Bool.and_eq_true, List.all_eq_true, Bool.not_eq_true'] at allowed
  obtain ⟨⟨ordinary, before⟩, behind⟩ := allowed
  have readable : ∀ c ∈ s, isFolded c = false ∧ c ≠ '\t' := by
    intro c mem
    have other : c ≠ '\n' := by
      rintro rfl
      exact newline mem
    exact ⟨isFolded_eq_false (ordinary c mem) other, ne_of_class (ordinary c mem) isOrdinary_tab⟩
  have closing : ∀ fresh, readSingle? fresh ((if fresh then indent else []) ++
      '\x27' :: '\n' :: rest) = some ([], '\n' :: rest) := by
    intro fresh
    rw [readSingle?_indent]
    rfl
  have closes : ∀ fresh, (((if fresh = true then indent else []) ++
      '\x27' :: '\n' :: rest).dropWhile isWhite).head?.any isBreak = false := by
    intro fresh
    cases fresh <;> rfl
  have start : false = true → s.head? ≠ some ' ' := by simp
  have read := readSingle?_indented readable before behind start (closes (freshAfter false s))
  rw [closing, freshAfter_eq] at read
  have form : writeSingle s ++ '\n' :: rest = '\x27' :: ((indented false s).flatMap doubled ++
      ((if s.getLast?.any isBreak then indent else []) ++ '\x27' :: '\n' :: rest)) := by
    have inside : writeSingle s = '\x27' :: (indented false s).flatMap doubled ++
        (if s.getLast?.any isBreak then indent else []) ++ ['\x27'] := rfl
    simp [inside]
  rw [form, readScalar?, read]
  simp [closeLine?]

/-! ## Double quotation marks -/

/-- A character that is escaped by a letter is the one that the letter stands for. -/
theorem unescape?_of_escapeLetter? {letter : Char} (h : escapeLetter? c = some letter) :
    unescape? letter = some c ∧ codeLength letter = 0 := by
  unfold escapeLetter? at h
  split at h <;> cases h <;> exact ⟨rfl, rfl⟩

theorem readDouble?_letter {letter : Char} (stands : unescape? letter = some c)
    (short : codeLength letter = 0) (s : List Char) : readDouble? ('\\' :: letter :: s) =
      (readDouble? s).map fun (text, rest) => (c :: text, rest) := by
  rw [readDouble?, stands, short]
  rfl

theorem readDouble?_code {letter : Char} {digits : List Char} (only : unescape? letter = none)
    (announced : codeLength letter = digits.length) (code : charOfCode? digits = some c)
    (s : List Char) : readDouble? ('\\' :: letter :: (digits ++ s)) =
      (readDouble? s).map fun (text, rest) => (c :: text, rest) := by
  rw [readDouble?, only, announced, List.take_left, List.drop_left, code]
  rfl

theorem readDouble?_plain (quote : c ≠ '"') (backslash : c ≠ '\\') (break_ : isBreak c = false)
    (s : List Char) : readDouble? (c :: s) =
      (readDouble? s).map fun (text, rest) => (c :: text, rest) := by
  rw [readDouble?, break_]
  · simp [backslash]
  · exact quote
  · exact fun _ _ same _ => backslash same

/-- A number below a power of sixteen, in that many digits, is read as the code of a character. -/
theorem charOfCode?_padZeros (width : Nat) (pos : 0 < width) (below : c.toNat < 16 ^ width) :
    (padZeros width ((hexadecimal c.toNat).map Char.toUpper)).length = width ∧
      charOfCode? (padZeros width ((hexadecimal c.toNat).map Char.toUpper)) = some c := by
  constructor
  · apply length_padZeros
    rw [List.length_map]
    exact length_hexadecimal_le pos below
  · have nonempty : (hexadecimal c.toNat).map Char.toUpper ≠ [] := by simp [hexadecimal_ne_nil]
    apply charOfCode?_eq_some
    rw [readDigits?_padZeros (by decide) width _ nonempty, readDigits?_toUpper]

/-- The letter before a code announces the number of its digits. -/
theorem exists_codeEscape (c : Char) : ∃ letter digits, codeEscape c = letter :: digits ∧
    unescape? letter = none ∧ codeLength letter = digits.length ∧ charOfCode? digits = some c := by
  have top : c.toNat < 16 ^ 8 := by
    have valid : c.toNat < 0xD800 ∨ 0xDFFF < c.toNat ∧ c.toNat < 0x110000 := c.valid
    omega
  simp only [codeEscape]
  split_ifs with byte word
  · obtain ⟨length, code⟩ := charOfCode?_padZeros (c := c) 2 (by decide) (by omega)
    exact ⟨_, _, rfl, rfl, length.symm, code⟩
  · obtain ⟨length, code⟩ := charOfCode?_padZeros (c := c) 4 (by decide) (by omega)
    exact ⟨_, _, rfl, rfl, length.symm, code⟩
  · obtain ⟨length, code⟩ := charOfCode?_padZeros 8 (by decide) top
    exact ⟨_, _, rfl, rfl, length.symm, code⟩

/-- A character that no letter stands for is no mark and no break. -/
theorem plain_of_escapeLetter? (h : escapeLetter? c = none) :
    c ≠ '"' ∧ c ≠ '\\' ∧ isBreak c = false := by
  have other : ∀ d, escapeLetter? d ≠ none → c ≠ d := by
    rintro d some rfl
    exact some h
  have breaks : ¬ isBreak c = true := by
    simp only [isBreak, Bool.or_eq_true, decide_eq_true_eq]
    rintro ((((rfl | rfl) | rfl) | rfl) | rfl) <;> cases h
  exact ⟨other '"' (by decide), other '\\' (by decide), Bool.not_eq_true _ ▸ breaks⟩

/-- A character between double quotation marks is read as itself. -/
theorem readDouble?_writeEscaped (c : Char) (s : List Char) : readDouble? (writeEscaped c ++ s) =
    (readDouble? s).map fun (text, rest) => (c :: text, rest) := by
  unfold writeEscaped
  split
  · next letter h =>
    obtain ⟨stands, short⟩ := unescape?_of_escapeLetter? h
    exact readDouble?_letter stands short s
  · next h =>
    obtain ⟨quote, backslash, break_⟩ := plain_of_escapeLetter? h
    split_ifs with ordinary
    · exact readDouble?_plain quote backslash break_ s
    · obtain ⟨letter, digits, form, only, announced, code⟩ := exists_codeEscape c
      rw [form]
      exact readDouble?_code only announced code s

/-- A text in double quotation marks is read as itself. -/
theorem readScalar?_writeDouble (s rest : List Char) :
    readScalar? (writeDouble s ++ '\n' :: rest) = some (.text s, rest) := by
  have read : readDouble? (s.flatMap writeEscaped ++ '"' :: '\n' :: rest) =
      some (s, '\n' :: rest) := by
    induction s with
    | nil =>
      rw [List.flatMap_nil, List.nil_append, readDouble?]
    | cons c s ih =>
      rw [List.flatMap_cons, List.append_assoc, readDouble?_writeEscaped, ih]
      rfl
  have form : writeDouble s ++ '\n' :: rest =
      '"' :: (s.flatMap writeEscaped ++ '"' :: '\n' :: rest) := by
    simp [writeDouble]
  rw [form, readScalar?, read]
  rfl

end Yaml
end FancyTokens
