import FancyTokens.Proofs.Yaml.Quoted

/-!
# Characters of written scalars

Whatever a text holds, what is written for it holds only characters that may stand in a document
(`isOrdinary_of_mem_writeLine`).
-/

namespace FancyTokens
namespace Yaml

variable {s : List Char} {c d : Char} {fresh : Bool}

theorem isOrdinary_of_graphic (low : ' ' ≤ c) (high : c ≤ '~') : isOrdinary c = true := by
  simp [isOrdinary, low, high]

theorem isOrdinary_of_digitValue? {base : Nat} (digit : (digitValue? base c).isSome = true) :
    isOrdinary c = true := by
  have range (low high : Char) (first : ' ' ≤ low) (last : high ≤ '~') (h : low ≤ c ∧ c ≤ high) :
      isOrdinary c = true :=
    isOrdinary_of_graphic (Char.le_trans first h.1) (Char.le_trans h.2 last)
  by_cases number : '0' ≤ c ∧ c ≤ '9'
  · exact range '0' '9' (by decide) (by decide) number
  by_cases small : 'a' ≤ c ∧ c ≤ 'z'
  · exact range 'a' 'z' (by decide) (by decide) small
  by_cases capital : 'A' ≤ c ∧ c ≤ 'Z'
  · exact range 'A' 'Z' (by decide) (by decide) capital
  · simp [digitValue?, number, small, capital] at digit

/-- The digits of a number are graphic. -/
theorem isOrdinary_of_readDigits? {base n : Nat} {digits : List Char}
    (read : readDigits? base digits = some n) (mem : c ∈ digits) : isOrdinary c = true := by
  rw [readDigits?, List.isEmpty_eq_false_iff.2 (List.ne_nil_of_mem mem)] at read
  exact isOrdinary_of_digitValue? (isSome_digitValue?_of_mem read mem)

theorem isOrdinary_of_isLower (lower : c.isLower = true) : isOrdinary c = true := by
  obtain ⟨low, high⟩ := Bool.and_eq_true_iff.1 lower
  have low : 'a' ≤ c := of_decide_eq_true low
  have high : c ≤ 'z' := of_decide_eq_true high
  exact isOrdinary_of_graphic (Char.le_trans (by decide) low) (Char.le_trans high (by decide))

/-! ## Quotation marks -/

theorem mem_of_mem_doubled (mem : c ∈ doubled d) : c = d := by
  unfold doubled at mem
  split_ifs at mem <;> simpa using mem

/-- Lines hold nothing but their text and spaces. -/
theorem mem_of_mem_indented (mem : c ∈ indented fresh s) : c ∈ s ∨ c = ' ' := by
  induction s generalizing fresh with
  | nil => cases mem
  | cons d s ih =>
    by_cases break_ : isBreak d = true
    · rw [indented_break break_, List.mem_cons] at mem
      rcases mem with rfl | mem
      · exact .inl List.mem_cons_self
      · exact (ih mem).imp_left (List.mem_cons_of_mem d)
    · rw [Bool.not_eq_true] at break_
      rw [indented_cons break_, List.mem_append, List.mem_cons] at mem
      rcases mem with space | rfl | mem
      · cases fresh with
        | false => cases space
        | true => exact .inr (by simpa [indent] using space)
      · exact .inl List.mem_cons_self
      · exact (ih mem).imp_left (List.mem_cons_of_mem d)

theorem isOrdinary_of_mem_indented (ordinary : ∀ c ∈ s, isOrdinary c = true)
    (mem : c ∈ indented fresh s) : isOrdinary c = true := by
  rcases mem_of_mem_indented mem with inside | rfl
  · exact ordinary c inside
  · decide

theorem isOrdinary_of_escapeLetter? {letter : Char} (h : escapeLetter? c = some letter) :
    isOrdinary letter = true := by
  unfold escapeLetter? at h
  split at h <;> cases h <;> decide

theorem isOrdinary_of_codeLength (announces : codeLength c ≠ 0) : isOrdinary c = true := by
  unfold codeLength at announces
  split at announces
  · decide
  · decide
  · decide
  · exact absurd rfl announces

theorem isOrdinary_of_mem_writeEscaped (mem : c ∈ writeEscaped d) : isOrdinary c = true := by
  have backslash : isOrdinary '\\' = true := by decide
  unfold writeEscaped at mem
  split at mem
  · next letter h =>
    rw [List.mem_pair] at mem
    rcases mem with rfl | rfl
    · exact backslash
    · exact isOrdinary_of_escapeLetter? h
  · split_ifs at mem with ordinary
    · rw [List.mem_singleton] at mem
      exact mem ▸ ordinary
    · obtain ⟨letter, digits, form, -, announced, code⟩ := exists_codeEscape d
      have several : digits ≠ [] := by
        rintro rfl
        cases code
      rw [form, List.mem_cons, List.mem_cons] at mem
      rcases mem with rfl | rfl | digit
      · exact backslash
      · apply isOrdinary_of_codeLength
        rw [announced]
        exact mt List.length_eq_zero_iff.1 several
      · obtain ⟨n, read, -⟩ := Option.bind_eq_some_iff.1 code
        exact isOrdinary_of_readDigits? read digit

/-! ## Lines -/

theorem isOrdinary_of_mem_writeSingle (ordinary : ∀ c ∈ s, isOrdinary c = true)
    (mem : c ∈ writeSingle s) : isOrdinary c = true := by
  have quote : isOrdinary '\x27' = true := by decide
  have spaces : ∀ c ∈ indent, isOrdinary c = true := by simp [indent]; decide
  have form : writeSingle s = '\x27' :: (indented false s).flatMap doubled ++
      (if s.getLast?.any isBreak then indent else []) ++ ['\x27'] := rfl
  simp only [form, List.cons_append, List.mem_cons, List.mem_append, List.mem_flatMap,
    List.not_mem_nil, or_false] at mem
  rcases mem with rfl | (⟨d, inside, same⟩ | closing) | rfl
  · exact quote
  · rw [mem_of_mem_doubled same]
    exact isOrdinary_of_mem_indented ordinary inside
  · split_ifs at closing with ends
    · exact spaces c closing
    · cases closing
  · exact quote

theorem isOrdinary_of_mem_writeDouble (mem : c ∈ writeDouble s) : isOrdinary c = true := by
  simp only [writeDouble, List.cons_append, List.mem_cons, List.mem_append, List.mem_flatMap,
    List.not_mem_nil, or_false] at mem
  rcases mem with rfl | ⟨d, -, escaped⟩ | rfl
  · decide
  · exact isOrdinary_of_mem_writeEscaped escaped
  · decide

theorem isOrdinary_of_mem_writeBlock (ordinary : ∀ c ∈ s, isOrdinary c = true)
    (mem : c ∈ writeBlock s) : isOrdinary c = true := by
  have header : (blockHeader s).all isOrdinary = true := by
    unfold blockHeader chomping
    split_ifs <;> split <;> try split_ifs
    all_goals decide
  rw [writeBlock, List.mem_append, List.mem_cons] at mem
  rcases mem with first | rfl | line
  · exact List.all_eq_true.1 header c first
  · decide
  · exact isOrdinary_of_mem_indented ordinary line

/-- In every style but one, a text holds no other characters itself. -/
theorem isOrdinary_of_style (kind : style s ≠ .double) (mem : c ∈ s) : isOrdinary c = true := by
  unfold style at kind
  split_ifs at kind with newline block plain single
  · simp only [allowsBlock, Bool.and_eq_true, List.all_eq_true] at block
    exact block.1.1 c mem
  · exact absurd rfl kind
  · simp only [allowsPlain, Bool.and_eq_true, List.all_eq_true] at plain
    exact plain.1.1.1.1.1 c mem
  · simp only [allowsSingle, Bool.and_eq_true, List.all_eq_true] at single
    exact single.1.1 c mem
  · exact absurd rfl kind

/-- What is written for a text holds only characters that may stand in a document. -/
theorem isOrdinary_of_mem_writeLine (mem : c ∈ writeLine s) : isOrdinary c = true := by
  have end_ : ∀ c ∈ ['\n'], isOrdinary c = true := by simp; decide
  unfold writeLine at mem
  cases kind : style s with
  | plain =>
    rw [kind, List.mem_append] at mem
    exact mem.elim (isOrdinary_of_style (by simp [kind])) (end_ c)
  | single =>
    rw [kind, List.mem_append] at mem
    have ordinary : ∀ c ∈ s, isOrdinary c = true := fun c => isOrdinary_of_style (by simp [kind])
    exact mem.elim (isOrdinary_of_mem_writeSingle ordinary) (end_ c)
  | double =>
    rw [kind, List.mem_append] at mem
    exact mem.elim isOrdinary_of_mem_writeDouble (end_ c)
  | block =>
    rw [kind, List.mem_append] at mem
    have ordinary : ∀ c ∈ s, isOrdinary c = true := fun c => isOrdinary_of_style (by simp [kind])
    rcases mem with text | last
    · exact isOrdinary_of_mem_writeBlock ordinary text
    · split_ifs at last with ends
      · cases last
      · exact end_ c last

end Yaml
end FancyTokens
