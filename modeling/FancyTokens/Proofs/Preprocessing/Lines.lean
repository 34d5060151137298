import FancyTokens.Proofs.Preprocessing.NormalForm

/-!
# Lines of a source

A text is split into lines in one pass, in which a carriage return with a line feed behind it is one
break, and either of them alone is one (`lines`). Which texts have which lines is said without the
pass too (`BrokenInto`). Preprocessing first drops carriage returns before line feeds and then makes
line feeds of the others; both together join the lines with line feeds
(`normalizeBreaks_eq_intercalate`). Which breaks a text has between its lines therefore does not
matter (`line_breaks_do_not_matter`).
-/

namespace FancyTokens

/-! ## Lines -/

/-- The character breaks lines. -/
def isLineBreak (c : Char) : Bool :=
  c = '\n' || c = '\r'

/-- What may stand between two lines. -/
def lineBreaks : List (List Char) :=
  [['\n'], ['\r'], ['\r', '\n']]

/-- The lines of a text, of which there is always one. -/
def lines : List Char → List (List Char)
  | [] => [[]]
  | '\r' :: '\n' :: s => [] :: lines s
  | c :: s => if isLineBreak c then [] :: lines s else (lines s).modifyHead (c :: ·)

/-- The text consists of the lines, with a break behind each but the last. A carriage return that
stands alone has no line feed behind it. -/
inductive BrokenInto : (s : List Char) → (lines : List (List Char)) → Prop
  | last {line} : (∀ c ∈ line, isLineBreak c = false) → BrokenInto line [line]
  | cons {line newline s lines} : (∀ c ∈ line, isLineBreak c = false) → newline ∈ lineBreaks →
      (newline = ['\r'] → s.head? ≠ some '\n') → BrokenInto s lines →
      BrokenInto (line ++ newline ++ s) (line :: lines)

variable {s t : List Char} {c : Char} {line newline : List Char}

theorem isLineBreak_iff : isLineBreak c = true ↔ c = '\n' ∨ c = '\r' := by
  rw [isLineBreak, Bool.or_eq_true, decide_eq_true_eq, decide_eq_true_eq]

/-- The condition under which the pass takes a character by itself. -/
theorem head?_ne_of_alone (alone : ∀ rest, c = '\r' → s = '\n' :: rest → False) :
    c = '\r' → s.head? ≠ some '\n' := by
  intro eq head
  obtain ⟨rest, split⟩ := List.head?_eq_some_iff.1 head
  exact alone rest eq split

theorem lines_crlf (s : List Char) : lines ('\r' :: '\n' :: s) = [] :: lines s := rfl

theorem lines_cons (alone : c = '\r' → s.head? ≠ some '\n') : lines (c :: s) =
    if isLineBreak c then [] :: lines s else (lines s).modifyHead (c :: ·) := by
  rw [lines]
  rintro rest rfl rfl
  exact alone rfl rfl

theorem lines_of_break (breaks : isLineBreak c = true)
    (alone : c = '\r' → s.head? ≠ some '\n') : lines (c :: s) = [] :: lines s := by
  rw [lines_cons alone, if_pos breaks]

theorem lines_of_not_break (stays : isLineBreak c = false) :
    lines (c :: s) = (lines s).modifyHead (c :: ·) := by
  have alone : c = '\r' → s.head? ≠ some '\n' := by
    rintro rfl
    cases stays
  rw [lines_cons alone, if_neg (Bool.eq_false_iff.1 stays)]

theorem exists_lines_eq_cons (s : List Char) : ∃ line more, lines s = line :: more := by
  fun_induction lines s with
  | case1 => exact ⟨_, _, rfl⟩
  | case2 s ih => exact ⟨_, _, rfl⟩
  | case3 c s alone breaks ih => exact ⟨_, _, rfl⟩
  | case4 c s alone stays ih =>
    obtain ⟨line, more, eq⟩ := ih
    rw [eq]
    exact ⟨_, _, rfl⟩

/-- Characters that break no line stand in front of the first line. -/
theorem lines_append (stays : ∀ c ∈ line, isLineBreak c = false) (s : List Char) :
    lines (line ++ s) = (lines s).modifyHead (line ++ ·) := by
  obtain ⟨first, more, eq⟩ := exists_lines_eq_cons s
  induction line with
  | nil =>
    rw [List.nil_append, eq]
    rfl
  | cons c line ih =>
    obtain ⟨head, tail⟩ := List.forall_mem_cons.1 stays
    rw [List.cons_append, lines_of_not_break head, ih tail, eq]
    rfl

theorem lines_newline_append (mem : newline ∈ lineBreaks)
    (alone : newline = ['\r'] → s.head? ≠ some '\n') : lines (newline ++ s) = [] :: lines s := by
  simp only [lineBreaks, List.mem_cons, List.not_mem_nil, or_false] at mem
  obtain rfl | rfl | rfl := mem
  · exact lines_of_break (by decide) nofun
  · exact lines_of_break (by decide) fun _ => alone rfl
  · exact lines_crlf s

/-- A character that breaks no line goes to the first line. -/
theorem BrokenInto.push {ls : List (List Char)} (stays : isLineBreak c = false)
    (h : BrokenInto s ls) : BrokenInto (c :: s) (ls.modifyHead (c :: ·)) := by
  cases h with
  | last others => exact .last (List.forall_mem_cons.2 ⟨stays, others⟩)
  | @cons line newline s ls others mem alone more =>
    have first : ∀ d ∈ c :: line, isLineBreak d = false := List.forall_mem_cons.2 ⟨stays, others⟩
    exact .cons first mem alone more

theorem brokenInto_lines (s : List Char) : BrokenInto s (lines s) := by
  fun_induction lines s with
  | case1 => exact .last nofun
  | case2 s ih =>
    have broken : BrokenInto ([] ++ ['\r', '\n'] ++ s) ([] :: lines s) :=
      .cons nofun (by decide) nofun ih
    exact broken
  | case3 c s alone breaks ih =>
    have mem : [c] ∈ lineBreaks := by
      rcases isLineBreak_iff.1 breaks with rfl | rfl
      · decide
      · decide
    have broken : BrokenInto ([] ++ [c] ++ s) ([] :: lines s) :=
      .cons nofun mem (fun eq => head?_ne_of_alone alone (List.singleton_inj.1 eq)) ih
    exact broken
  | case4 c s alone stays ih => exact ih.push (Bool.eq_false_iff.2 stays)

/-- The pass over a text finds the lines of which the text consists. -/
theorem lines_eq_iff {ls : List (List Char)} : lines s = ls ↔ BrokenInto s ls := by
  constructor
  · rintro rfl
    exact brokenInto_lines s
  · intro h
    induction h with
    | last others => simpa [lines] using lines_append others []
    | @cons line newline s ls others mem alone _ ih =>
      rw [List.append_assoc, lines_append others, lines_newline_append mem alone, ih]
      simp

namespace Preprocessing

/-! ## Line feeds for all breaks -/

theorem normalizeBreaks_crlf (s : List Char) :
    normalizeBreaks ('\r' :: '\n' :: s) = '\n' :: normalizeBreaks s := rfl

theorem normalizeBreaks_cons (alone : c = '\r' → s.head? ≠ some '\n') :
    normalizeBreaks (c :: s) = (if c = '\r' then '\n' else c) :: normalizeBreaks s := by
  have kept : dropReturns (c :: s) = c :: dropReturns s := by
    rw [dropReturns]
    rintro rest rfl rfl
    exact alone rfl rfl
  rw [normalizeBreaks, kept]
  rfl

/-- The line feeds that preprocessing makes of all breaks stand between the lines. -/
theorem normalizeBreaks_eq_intercalate (s : List Char) :
    normalizeBreaks s = ['\n'].intercalate (lines s) := by
  fun_induction lines s with
  | case1 => rfl
  | case2 s ih =>
    obtain ⟨line, more, eq⟩ := exists_lines_eq_cons s
    rw [normalizeBreaks_crlf, ih, eq, List.intercalate_cons_cons]
    rfl
  | case3 c s alone breaks ih =>
    have feed : (if c = '\r' then '\n' else c) = '\n' := by
      rcases isLineBreak_iff.1 breaks with rfl | rfl <;> rfl
    obtain ⟨line, more, eq⟩ := exists_lines_eq_cons s
    rw [normalizeBreaks_cons (head?_ne_of_alone alone), feed, ih, eq,
      List.intercalate_cons_cons]
    rfl
  | case4 c s alone stays ih =>
    have other : c ≠ '\r' := by
      rintro rfl
      exact stays rfl
    obtain ⟨line, more, eq⟩ := exists_lines_eq_cons s
    rw [normalizeBreaks_cons (head?_ne_of_alone alone), if_neg other, ih, eq]
    cases more with
    | nil => simp
    | cons next more => simp [List.intercalate_cons_cons]

/-- A text without carriage returns is its lines with line feeds between them. -/
theorem intercalate_lines (h : '\r' ∉ s) : ['\n'].intercalate (lines s) = s := by
  rw [← normalizeBreaks_eq_intercalate, normalizeBreaks_eq_self h]

/-- Preprocessing sees a text through its line breaks only as they are normalized. -/
theorem apply_normalizeBreaks (options : Preprocessing) (s : List Char) :
    options.apply (normalizeBreaks s) = options.apply s := by
  rw [apply_eq, normalizeBreaks_eq_self (return_notMem_normalizeBreaks s), apply_eq]

theorem apply_congr_lines (options : Preprocessing) (same : lines s = lines t) :
    options.apply s = options.apply t := by
  rw [← apply_normalizeBreaks, normalizeBreaks_eq_intercalate, same,
    ← normalizeBreaks_eq_intercalate, apply_normalizeBreaks]

/-- One pass over a text finds the lines of which it consists, whatever the breaks between them are.
Preprocessing makes the same of a text as of its lines joined with line feeds, and so the same of
any two texts with the same lines, as do their tokens. Without carriage returns the joined lines are
the text itself. -/
theorem line_breaks_do_not_matter :
    (∀ s ls, lines s = ls ↔ BrokenInto s ls) ∧
      (∀ (options : Preprocessing) s,
        options.apply s = options.apply (['\n'].intercalate (lines s))) ∧
      (∀ (options : Preprocessing) s t, lines s = lines t →
        options.apply s = options.apply t ∧ options.tokens s = options.tokens t) ∧
      ∀ s, '\r' ∉ s → ['\n'].intercalate (lines s) = s := by
  refine ⟨fun s ls => lines_eq_iff, ?_, ?_, fun s => intercalate_lines⟩
  · intro options s
    rw [← normalizeBreaks_eq_intercalate, apply_normalizeBreaks]
  · intro options s t same
    have applied : options.apply s = options.apply t := apply_congr_lines options same
    exact ⟨applied, by rw [tokens, tokens, applied]⟩

/-- Two carriage returns before a line feed are two breaks. -/
theorem line_breaks_do_not_matter_mixed :
    BrokenInto "a\r\r\n\rb".toList [['a'], [], [], ['b']] ∧
      (lines "a\r\r\n\rb".toList = lines "a\n\n\nb".toList ∧
        ∀ options : Preprocessing,
          options.apply "a\r\r\n\rb".toList = options.apply "a\n\n\nb".toList ∧
          options.tokens "a\r\r\n\rb".toList = options.tokens "a\n\n\nb".toList) ∧
      '\r' ∉ "a\n\n\nb".toList ∧
      ['\n'].intercalate (lines "a\n\n\nb".toList) = "a\n\n\nb".toList := by
  obtain ⟨found, -, alike, joined⟩ := line_breaks_do_not_matter
  have same : lines "a\r\r\n\rb".toList = lines "a\n\n\nb".toList := by decide
  have feeds : '\r' ∉ "a\n\n\nb".toList := by decide
  exact ⟨(found _ _).1 (by decide), ⟨same, fun options => alike options _ _ same⟩, feeds,
    joined _ feeds⟩

end Preprocessing
end FancyTokens
