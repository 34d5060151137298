import FancyTokens.Json.Reader
import FancyTokens.Output.Json
import FancyTokens.Proofs.Text.Numerals
import FancyTokens.Proofs.Text.Splitting

/-!
# Strings and numbers in JSON

What is written as a string or a number is read as that string or number (`readString?_flatMap`,
`readNumber?_decimal`). `Denotes` says of a text that it is read as a value wherever it stands in a
larger one.
-/

namespace FancyTokens

open JsonValue

variable {s rest : List Char} {c : Char} {n fuel need : Nat}

namespace JsonOutput

/-! ## Strings -/

/-- A character that is escaped by its code is read as itself. -/
theorem readUnits?_code (control : c.toNat < 0x20) (rest : List Char) :
    readUnits? (['\\', 'u'] ++ padZeros 4 (hexadecimal c.toNat) ++ rest) =
      (readUnits? rest).map fun (units, rest) => (.char c :: units, rest) := by
  have short : (hexadecimal c.toNat).length ≤ 4 :=
    length_hexadecimal_le (by decide) (by omega)
  have code : readDigits? 16 (padZeros 4 (hexadecimal c.toNat)) = some c.toNat := by
    rw [readDigits?_padZeros (by decide) _ _ (hexadecimal_ne_nil _), readDigits?_hexadecimal]
  have unit : StringUnit.ofCode c.toNat = .char c := by
    rw [StringUnit.ofCode, if_neg (by omega), if_neg (by omega), Char.ofNat_toNat]
  have length : (padZeros 4 (hexadecimal c.toNat)).length = 4 := length_padZeros short
  match padZeros 4 (hexadecimal c.toNat), length, code with
  | [h, i, j, k], _, code =>
    simp only [List.cons_append, List.nil_append, readUnits?, code]
    cases readUnits? rest with
    | none => rfl
    | some read => exact congrArg (fun unit => some (unit :: read.1, read.2)) unit

/-- A character that is escaped by a letter is read as itself. -/
theorem readUnits?_letter {letter : Char} (stands : escape? letter = some c) (rest : List Char) :
    readUnits? ('\\' :: letter :: rest) =
      (readUnits? rest).map fun (units, rest) => (.char c :: units, rest) := by
  rw [readUnits?, stands]
  · cases readUnits? rest <;> rfl
  · -- the letter of an escape by code stands for no character
    rintro _ _ _ _ _ same -
    rw [same] at stands
    cases stands

/-- A character of a string is escaped by a letter or its code, or stands for itself. -/
theorem escaped_cases (c : Char) :
    (∃ letter, escape? letter = some c ∧ escaped c = ['\\', letter]) ∨
      (c.toNat < 0x20 ∧ escaped c = ['\\', 'u'] ++ padZeros 4 (hexadecimal c.toNat)) ∨
      (c ≠ '"' ∧ c ≠ '\\' ∧ ¬c.toNat < 0x20 ∧ escaped c = [c]) := by
  by_cases marked : c ∈ ['"', '\\', '\x08', '\x0c', '\n', '\r', '\t']
  · simp only [List.mem_cons, List.not_mem_nil, or_false] at marked
    rcases marked with rfl | rfl | rfl | rfl | rfl | rfl | rfl <;>
      · refine .inl ⟨_, ?_, rfl⟩
        rfl
  · simp only [List.mem_cons, List.not_mem_nil, or_false, not_or] at marked
    have plain : escaped c =
        if c.toNat < 0x20 then ['\\', 'u'] ++ padZeros 4 (hexadecimal c.toNat) else [c] := by
      simp only [escaped, marked, if_false]
    by_cases control : c.toNat < 0x20
    · rw [if_pos control] at plain
      exact .inr (.inl ⟨control, plain⟩)
    · rw [if_neg control] at plain
      exact .inr (.inr ⟨marked.1, marked.2.1, control, plain⟩)

/-- A character of a string is read as itself. -/
theorem readUnits?_escaped (c : Char) (rest : List Char) :
    readUnits? (escaped c ++ rest) =
      (readUnits? rest).map fun (units, rest) => (.char c :: units, rest) := by
  rcases escaped_cases c with ⟨letter, stands, eq⟩ | ⟨control, eq⟩ | ⟨_, backslash, plain, eq⟩
  · rw [eq]
    exact readUnits?_letter stands rest
  · rw [eq]
    exact readUnits?_code control rest
  · rw [eq]
    simp [readUnits?, backslash, plain]

/-- Characters that stand for themselves make up a text. -/
theorem textOfUnits?_map_char (s : List Char) : textOfUnits? (s.map StringUnit.char) = some s := by
  induction s with
  | nil => rfl
  | cons c s ih =>
    rw [List.map_cons, textOfUnits?, ih]
    rfl

/-- A string is read as its text. -/
theorem readString?_flatMap (s rest : List Char) :
    readString? (s.flatMap escaped ++ '"' :: rest) = some (some s, rest) := by
  have units : readUnits? (s.flatMap escaped ++ '"' :: rest) =
      some (s.map StringUnit.char, rest) := by
    induction s with
    | nil => rfl
    | cons c s ih =>
      rw [List.flatMap_cons, List.append_assoc, readUnits?_escaped, ih]
      rfl
  simp [readString?, units, textOfUnits?_map_char]

/-! ## Numbers -/

/-- The character is none with which a number goes on. -/
def EndsNumber (c : Char) : Prop :=
  c.isDigit = false ∧ c ≠ '.' ∧ c ≠ 'e' ∧ c ≠ 'E'

/-- A number is read as its digits. -/
theorem readNumber?_decimal (ends : EndsNumber c) (n : Nat) (rest : List Char) :
    readNumber? [] (decimal n ++ c :: rest) = some (.number (decimal n), c :: rest) := by
  obtain ⟨digit, point, small, capital⟩ := ends
  have split : (decimal n ++ c :: rest).span Char.isDigit = (decimal n, c :: rest) :=
    span_append (fun _ mem => isDigit_of_mem_decimal mem) (by simp [digit])
  have run : readDigitRun? (decimal n ++ c :: rest) = some (decimal n, c :: rest) := by
    rw [readDigitRun?, split]
    simp [decimal_ne_nil]
  have whole : readWhole? (decimal n ++ c :: rest) = some (decimal n, c :: rest) := by
    have needed : ¬((decimal n).length > 1 ∧ (decimal n).head? = some '0') :=
      fun needless => head?_decimal_of_length needless.1 needless.2
    rw [readWhole?, run, Option.bind_eq_bind, Option.bind_some]
    exact if_neg needed
  have fraction : readFraction? (c :: rest) = some ([], c :: rest) := by
    simp [readFraction?, point]
  have exponent : readExponent? (c :: rest) = some ([], c :: rest) := by
    cases rest <;> simp [readExponent?, small, capital]
  simp [readNumber?, whole, fraction, exponent]

/-! ## Values -/

theorem skipSpace_append {blanks : List Char} (h : ∀ c ∈ blanks, isSpace c = true)
    (s : List Char) : skipSpace (blanks ++ s) = skipSpace s :=
  List.dropWhile_append_of_pos h

theorem skipSpace_cons (other : isSpace c = false) (s : List Char) :
    skipSpace (c :: s) = c :: s := by
  simp [skipSpace, other]

/-- White space before a value does not matter. -/
theorem readValue?_append {blanks : List Char} (h : ∀ c ∈ blanks, isSpace c = true) (fuel : Nat)
    (s : List Char) : readValue? fuel (blanks ++ s) = readValue? fuel s := by
  cases fuel with
  | zero => rfl
  | succ fuel => rw [readValue?, readValue?, skipSpace_append h]

theorem readElements?_append {blanks : List Char} (h : ∀ c ∈ blanks, isSpace c = true) (fuel : Nat)
    (s : List Char) : readElements? fuel (blanks ++ s) = readElements? fuel s := by
  cases fuel with
  | zero => rfl
  | succ fuel => rw [readElements?, readElements?, readValue?_append h]

theorem readMembers?_append {blanks : List Char} (h : ∀ c ∈ blanks, isSpace c = true) (fuel : Nat)
    (s : List Char) : readMembers? fuel (blanks ++ s) = readMembers? fuel s := by
  cases fuel with
  | zero => rfl
  | succ fuel => rw [readMembers?, readMembers?, skipSpace_append h]

/-- Behind an opening bracket there is the end of the array or its first element. -/
theorem readValue?_bracket (fuel : Nat) (s : List Char) : readValue? (fuel + 1) ('[' :: s) =
    match skipSpace s with
    | ']' :: s => some (.array [], s)
    | s => (readElements? fuel s).map fun (elements, s) => (.array elements, s) := by
  rw [readValue?, skipSpace_cons (by decide)]
  rfl

/-- Behind an opening brace there is the end of the object or its first member. -/
theorem readValue?_brace (fuel : Nat) (s : List Char) : readValue? (fuel + 1) ('{' :: s) =
    match skipSpace s with
    | '}' :: s => some (.object [], s)
    | s => (readMembers? fuel s).map fun (members, s) => (.object members, s) := by
  rw [readValue?, skipSpace_cons (by decide)]
  rfl

/-- A text that is read as a value where a comma or the end of a line follows. -/
structure Denotes (need : Nat) (s : List Char) (value : JsonValue) : Prop where
  /-- The text starts neither with white space nor with the end of an array. -/
  first : ∃ c t, s = c :: t ∧ isSpace c = false ∧ c ≠ ']'
  read : ∀ fuel, need ≤ fuel → ∀ c, c = ',' ∨ c = '\n' → ∀ rest,
    readValue? fuel (s ++ c :: rest) = some (value, c :: rest)

theorem denotes_string (s : List Char) : Denotes 1 (string s) (.string (some s)) := by
  refine ⟨⟨'"', _, rfl, by decide, by decide⟩, ?_⟩
  intro fuel enough c _ rest
  obtain ⟨fuel, rfl⟩ : ∃ k, fuel = k + 1 := ⟨fuel - 1, by omega⟩
  have text : string s ++ c :: rest = '"' :: (s.flatMap escaped ++ '"' :: c :: rest) := by
    simp [string]
  rw [text, readValue?, skipSpace_cons (by decide)]
  simp [readString?_flatMap]

theorem denotes_decimal (n : Nat) : Denotes 1 (decimal n) (.number (decimal n)) := by
  obtain ⟨d, t, digits⟩ := List.exists_cons_of_ne_nil (decimal_ne_nil n)
  have digit : d.isDigit = true := isDigit_of_mem_decimal (n := n) (by simp [digits])
  have other {x : Char} (none : x.isDigit = false) : d ≠ x := ne_of_class digit none
  have visible : isSpace d = false := by
    simp [isSpace, other]
  refine ⟨⟨d, t, digits, visible, other (by decide)⟩, ?_⟩
  intro fuel enough c separator rest
  obtain ⟨fuel, rfl⟩ : ∃ k, fuel = k + 1 := ⟨fuel - 1, by omega⟩
  have ends : EndsNumber c := by
    rcases separator with rfl | rfl <;> exact ⟨by decide, by decide, by decide, by decide⟩
  have read := readNumber?_decimal ends n rest
  rw [digits, List.cons_append] at read ⊢
  rw [readValue?, skipSpace_cons visible]
  -- the other forms of values do not start with a digit
  split <;> first
    | exact read
    | next start => exact absurd (List.cons.inj start).1 (other (by decide))

end JsonOutput
end FancyTokens
