import FancyTokens.Proofs.Grammar.Words
import FancyTokens.Proofs.Text.Numerals
import FancyTokens.Proofs.Text.Splitting
import FancyTokens.Text.Quoted

/-!
# Reading quoted texts

A quoted text is read back by undoing its escapes (`readQuoted?_quoteText`). Between its quotation
marks there is no line break, tab or carriage return, and neither mark nor backslash without a
backslash before it (`isSealed_quoteText`).
-/

namespace FancyTokens

variable {s rest : List Char} {c : Char}

/-! ## Reading -/

/-- The character that a letter behind a backslash stands for. -/
def unescape? : Char → Option Char
  | '0' => some '\x00'
  | 't' => some '\t'
  | 'r' => some '\r'
  | 'n' => some '\n'
  | '\\' => some '\\'
  | '"' => some '"'
  | '\x27' => some '\x27'
  | _ => none

/-- The code between braces, and what follows them. -/
def splitCode (s : List Char) : List Char × List Char :=
  (s.takeWhile (· ≠ '\x7d'), (s.dropWhile (· ≠ '\x7d')).tail)

/-- The text up to the closing quotation mark, and what follows it. -/
def readQuoted? (s : List Char) : Option (List Char × List Char) :=
  match s with
  | [] => none
  | '"' :: s => some ([], s)
  | '\\' :: 'u' :: '\x7b' :: s => do
    let c ← charOfCode? (splitCode s).1
    let (text, rest) ← readQuoted? (splitCode s).2
    return (c :: text, rest)
  | '\\' :: letter :: s => do
    let c ← unescape? letter
    let (text, rest) ← readQuoted? s
    return (c :: text, rest)
  | c :: s =>
    if c = '\\' then none else (readQuoted? s).map fun (text, rest) => (c :: text, rest)
termination_by s.length
decreasing_by
  all_goals simp only [List.length_cons, splitCode, List.length_tail]
  · have shorter := (List.dropWhile_suffix (· ≠ '\x7d') (l := s)).length_le
    omega
  · omega
  · omega

/-- Hexadecimal digits end where the brace stands. -/
theorem splitCode_hexadecimal (n : Nat) (rest : List Char) :
    splitCode (hexadecimal n ++ '\x7d' :: rest) = (hexadecimal n, rest) := by
  have digits : ∀ c ∈ hexadecimal n, decide (c ≠ '\x7d') = true := by
    intro c mem
    have digit := isSome_digitValue?_of_mem_hexadecimal mem
    rw [decide_eq_true_eq]
    rintro rfl
    revert digit
    decide
  rw [splitCode, List.takeWhile_append_of_pos digits, List.dropWhile_append_of_pos digits]
  simp

/-- A character that is escaped by a letter is read as itself. -/
theorem readQuoted?_letter {letter : Char} (stands : unescape? letter = some c)
    (rest : List Char) : readQuoted? ('\\' :: letter :: rest) =
      (readQuoted? rest).map fun (text, rest) => (c :: text, rest) := by
  rw [readQuoted?, stands]
  · cases readQuoted? rest <;> rfl
  · -- the letter of an escape by code stands for no character
    rintro _ rfl -
    cases stands

/-- A character that is escaped by its code is read as itself. -/
theorem readQuoted?_code (c : Char) (rest : List Char) :
    readQuoted? (['\\', 'u', '\x7b'] ++ hexadecimal c.toNat ++ ['\x7d'] ++ rest) =
      (readQuoted? rest).map fun (text, rest) => (c :: text, rest) := by
  have code : charOfCode? (hexadecimal c.toNat) = some c :=
    charOfCode?_eq_some (readDigits?_hexadecimal _)
  have form : ['\\', 'u', '\x7b'] ++ hexadecimal c.toNat ++ ['\x7d'] ++ rest =
      '\\' :: 'u' :: '\x7b' :: (hexadecimal c.toNat ++ '\x7d' :: rest) := by simp
  rw [form, readQuoted?, splitCode_hexadecimal, code]
  cases readQuoted? rest <;> rfl

/-- A character without an escape is read as itself. -/
theorem readQuoted?_plain (quote : c ≠ '"') (backslash : c ≠ '\\') (rest : List Char) :
    readQuoted? (c :: rest) = (readQuoted? rest).map fun (text, rest) => (c :: text, rest) := by
  rw [readQuoted?, if_neg backslash]
  · exact quote
  · exact fun _ same _ => backslash same
  · exact fun _ _ same _ => backslash same

/-! ## Quoting -/

/-- A character between quotation marks is escaped by a letter or its code, or stands for itself. -/
theorem escaped_cases (c : Char) :
    (∃ letter, unescape? letter = some c ∧ escaped '"' c = ['\\', letter]) ∨
      escaped '"' c = ['\\', 'u', '\x7b'] ++ hexadecimal c.toNat ++ ['\x7d'] ∨
      (c ∉ ['"', '\\', '\n', '\t', '\r'] ∧ escaped '"' c = [c]) := by
  unfold escaped
  split_ifs with zero tab return_ newline marked printable
  · exact .inl ⟨'0', by rw [zero]; rfl, rfl⟩
  · exact .inl ⟨'t', by rw [tab]; rfl, rfl⟩
  · exact .inl ⟨'r', by rw [return_]; rfl, rfl⟩
  · exact .inl ⟨'n', by rw [newline]; rfl, rfl⟩
  · rcases marked with rfl | rfl
    · exact .inl ⟨'\\', rfl, rfl⟩
    · exact .inl ⟨'"', rfl, rfl⟩
  · rw [not_or] at marked
    exact .inr (.inr ⟨by simp [marked, newline, tab, return_], rfl⟩)
  · exact .inr (.inl rfl)

/-- A quoted text is read back. -/
theorem readQuoted?_flatMap (s rest : List Char) :
    readQuoted? (s.flatMap (escaped '"') ++ '"' :: rest) = some (s, rest) := by
  induction s with
  | nil =>
    rw [List.flatMap_nil, List.nil_append, readQuoted?]
  | cons c s ih =>
    rw [List.flatMap_cons, List.append_assoc]
    -- an escape by a letter, an escape by a code, or the character itself
    rcases escaped_cases c with ⟨letter, stands, eq⟩ | eq | ⟨other, eq⟩
    · rw [eq]
      have read := readQuoted?_letter stands (s.flatMap (escaped '"') ++ '"' :: rest)
      rw [ih] at read
      exact read
    · rw [eq, readQuoted?_code, ih]
      rfl
    · have plain : c ≠ '"' ∧ c ≠ '\\' := by simp_all
      rw [eq, List.singleton_append, readQuoted?_plain plain.1 plain.2, ih]
      rfl

/-! ## What quoted texts hold -/

/-- The characters that would break a line or a field. -/
def breakers : List Char :=
  ['\n', '\t', '\r']

/-- A text between quotation marks that holds neither line breaks nor tabs, and in which every
quotation mark and backslash is part of an escape. -/
def IsSealed (quoted : List Char) : Prop :=
  ∃ body, quoted = '"' :: body ++ ['"'] ∧ (∀ d ∈ body, d ∉ breakers) ∧ IsEscaped ['"', '\\'] body

/-- A hexadecimal digit is none of some other characters. -/
theorem notMem_of_mem_hexadecimal {n : Nat} {others : List Char}
    (h : others.all (fun d => (digitValue? 16 d).isNone) = true) (mem : c ∈ hexadecimal n) :
    c ∉ others := by
  intro other
  have digit := isSome_digitValue?_of_mem_hexadecimal mem
  have none : digitValue? 16 c = none := Option.isNone_iff_eq_none.1 (List.all_eq_true.1 h c other)
  rw [none] at digit
  cases digit

theorem notMem_breakers_of_mem_escaped {d : Char} (mem : d ∈ escaped '"' c) : d ∉ breakers := by
  rcases escaped_cases c with ⟨letter, stands, eq⟩ | eq | ⟨other, eq⟩
  · have visible : letter ∉ breakers := by
      intro hidden
      simp only [breakers, List.mem_cons, List.not_mem_nil, or_false] at hidden
      rcases hidden with rfl | rfl | rfl <;> cases stands
    rw [eq] at mem
    simp only [List.mem_cons, List.not_mem_nil, or_false] at mem
    rcases mem with rfl | rfl
    · decide
    · exact visible
  · rw [eq] at mem
    simp only [List.mem_append, List.mem_cons, List.not_mem_nil, or_false] at mem
    rcases mem with ((rfl | rfl | rfl) | digit) | rfl
    · decide
    · decide
    · decide
    · exact notMem_of_mem_hexadecimal (by decide) digit
    · decide
  · rw [eq, List.mem_singleton] at mem
    rw [mem, breakers]
    simp_all

theorem IsEscaped.append {stops s t : List Char} (hs : IsEscaped stops s)
    (ht : IsEscaped stops t) : IsEscaped stops (s ++ t) := by
  obtain ⟨units, rfl, h⟩ := hs
  obtain ⟨units', rfl, h'⟩ := ht
  refine ⟨units ++ units', List.flatten_append.symm, ?_⟩
  intro u mem
  exact (List.mem_append.1 mem).elim (h u) (h' u)

/-- Characters other than the stops need no escape. -/
theorem isEscaped_of_forall {stops : List Char} (h : ∀ c ∈ s, c ∉ stops) :
    IsEscaped stops s := by
  refine ⟨s.map List.singleton, ?_, ?_⟩
  · rw [← List.flatMap_def]
    exact (List.flatMap_singleton' s).symm
  · intro u unit
    obtain ⟨c, mem, rfl⟩ := List.mem_map.1 unit
    exact .plain (h c mem)

theorem isEscaped_escaped (c : Char) : IsEscaped ['"', '\\'] (escaped '"' c) := by
  have unit (d : Char) : IsEscaped ['"', '\\'] ['\\', d] :=
    ⟨[['\\', d]], rfl, by simpa using .escaped d⟩
  rcases escaped_cases c with ⟨letter, -, eq⟩ | eq | ⟨other, eq⟩
  · rw [eq]
    exact unit letter
  · have plain : ∀ d ∈ '\x7b' :: hexadecimal c.toNat ++ ['\x7d'], d ∉ ['"', '\\'] := by
      intro d mem
      simp only [List.cons_append, List.mem_cons, List.mem_append, List.not_mem_nil,
        or_false] at mem
      rcases mem with rfl | digit | rfl
      · decide
      · exact notMem_of_mem_hexadecimal (by decide) digit
      · decide
    rw [eq]
    exact (unit 'u').append (isEscaped_of_forall plain)
  · have plain : ∀ d ∈ [c], d ∉ ['"', '\\'] := by simp_all
    rw [eq]
    exact isEscaped_of_forall plain

/-- Quoting seals a text. -/
theorem isSealed_quoteText (s : List Char) : IsSealed (quoteText s) := by
  refine ⟨s.flatMap (escaped '"'), rfl, ?_, ?_⟩
  · intro d mem
    obtain ⟨c, -, mem⟩ := List.mem_flatMap.1 mem
    exact notMem_breakers_of_mem_escaped mem
  · induction s with
    | nil => exact ⟨[], rfl, by simp⟩
    | cons c s ih =>
      rw [List.flatMap_cons]
      exact (isEscaped_escaped c).append ih

/-- A sealed text holds no character that would break a line or a field. -/
theorem IsSealed.notMem {quoted : List Char} (h : IsSealed quoted) (breaks : c ∈ breakers) :
    c ∉ quoted := by
  obtain ⟨body, rfl, clean, -⟩ := h
  have mark : c ≠ '"' := by
    rintro rfl
    revert breaks
    decide
  intro mem
  simp only [List.cons_append, List.mem_cons, List.mem_append, List.not_mem_nil, or_false, mark,
    false_or] at mem
  exact clean c mem breaks

end FancyTokens
