import FancyTokens.Proofs.Scan.Fitting
import FancyTokens.Proofs.Scan.Recovery
import FancyTokens.Proofs.Scan.RegexMode
import FancyTokens.Proofs.Text.Splitting

/-!
# Division after numbers

Where a digit stands in ordinary source, the step gives a whole number, white space behind it, and a
slash or question mark behind that (`Scan.exists_step_of_isNumber`). So a slash is an operator
wherever a whole number stands before it, and never starts a regular expression there
(`operator_mem_of_slash`). The rules for other numbers are left with texts that start with a point.
-/

namespace FancyTokens

/-- The categories of numbers without a point. -/
def wholeNumberCategories : List Category :=
  [.octal, .hexadecimal, .binary, .integer]

/-- The pieces that stand where a number does: the number, white space, and a slash or question
mark. -/
def numberPieces (category : Category) (number after : List Char) : List (Category × List Char) :=
  [(category, number), (.whitespace, after.takeWhile isBlank),
    (.operator, slashAhead (after.dropWhile isBlank))]

variable {category : Category} {c : Char} {s number after w : List Char}

/-! ## Where a number ends -/

/-- The character may stand behind a number, and not in it. -/
def endsNumber (c : Char) : Bool :=
  isBlank c || c ∈ ['/', '?']

theorem isAlphanum_of_isOctalDigit (h : isOctalDigit c = true) : c.isAlphanum = true := by
  rw [isOctalDigit, Bool.and_eq_true, decide_eq_true_eq, decide_eq_true_eq] at h
  exact isAlphanum_iff.2 (Or.inr (Or.inr ⟨h.1, Char.le_trans h.2 (by decide)⟩))

theorem isAlphanum_of_isHexadecimalDigit (h : isHexadecimalDigit c = true) :
    c.isAlphanum = true := by
  simp only [isHexadecimalDigit, Bool.or_eq_true, Bool.and_eq_true, decide_eq_true_eq,
    isDigit_iff] at h
  rw [isAlphanum_iff]
  rcases h with (digit | capital) | small
  · exact Or.inr (Or.inr digit)
  · exact Or.inl ⟨capital.1, Char.le_trans capital.2 (by decide)⟩
  · exact Or.inr (Or.inl ⟨small.1, Char.le_trans small.2 (by decide)⟩)

theorem endsNumber_eq_false_of_isAlphanum (h : c.isAlphanum = true) : endsNumber c = false :=
  of_ascii (p := fun c => c.isAlphanum = true → endsNumber c = false) (by decide +kernel)
    (toNat_lt_of_isAlphanum h) h

theorem endsNumber_eq_false_of_isDecimalDigit (h : isDecimalDigit c = true) :
    endsNumber c = false := by
  rw [endsNumber, isBlank_eq_false_of_isDecimalDigit h, Bool.false_or, decide_eq_false_iff_not,
    List.mem_cons, List.mem_singleton]
  rintro (rfl | rfl)
  · exact absurd h (by decide)
  · exact absurd h (by decide)

theorem endsNumber_eq_false_of_isNumberDigit (h : category.isNumberDigit c = true) :
    endsNumber c = false := by
  cases category with
  | octal => exact endsNumber_eq_false_of_isAlphanum (isAlphanum_of_isOctalDigit h)
  | hexadecimal => exact endsNumber_eq_false_of_isAlphanum (isAlphanum_of_isHexadecimalDigit h)
  | binary =>
    have bit : c ∈ ['0', '1'] := of_decide_eq_true h
    rw [List.mem_cons, List.mem_singleton] at bit
    obtain rfl | rfl := bit
    · decide
    · decide
  | _ => exact endsNumber_eq_false_of_isDecimalDigit h

theorem Category.IsNumber.endsNumber_eq_false (h : category.IsNumber number) :
    ∀ c ∈ number, endsNumber c = false := by
  obtain ⟨start, mem, digits, rfl, grouped⟩ := h
  intro c memC
  rcases List.mem_append.1 memC with early | late
  · have checked : ∀ start ∈ category.numberPrefixes, start.all (!endsNumber ·) = true := by
      cases category <;> decide
    simpa using List.all_eq_true.1 (checked start mem) c early
  · rcases grouped.eq_or_digit c late with rfl | digit
    · decide
    · exact endsNumber_eq_false_of_isNumberDigit digit

/-- A number, white space and a slash or question mark, the last two possibly missing. -/
structure ArePieces (number blanks operator : List Char) : Prop where
  number : ∀ c ∈ number, endsNumber c = false
  blanks : ∀ c ∈ blanks, isBlank c = true
  operator : operator = [] ∨ ∃ c ∈ ['/', '?'], operator = [c]

namespace ArePieces

variable {blanks operator number' blanks' operator' : List Char}

theorem head?_operator (h : ArePieces number blanks operator) :
    ∀ c ∈ operator.head?, isBlank c = false ∧ endsNumber c = true := by
  have mark : ∀ c ∈ ['/', '?'], isBlank c = false ∧ endsNumber c = true := by
    rw [List.forall_mem_cons, List.forall_mem_singleton]
    decide
  rcases h.operator with rfl | ⟨c, mem, rfl⟩
  · simp
  · rintro _ ⟨⟩
    exact mark c mem

theorem head?_append (h : ArePieces number blanks operator) :
    ∀ c ∈ (blanks ++ operator).head?, endsNumber c = true := by
  intro c head
  cases blanks with
  | nil => exact (h.head?_operator c head).2
  | cons d blanks =>
    cases head
    rw [endsNumber, h.blanks c List.mem_cons_self, Bool.true_or]

/-- The characters of a text tell where the pieces are. -/
theorem unique (h : ArePieces number blanks operator) (h' : ArePieces number' blanks' operator')
    (eq : number ++ (blanks ++ operator) = number' ++ (blanks' ++ operator')) :
    number = number' ∧ blanks = blanks' ∧ operator = operator' := by
  obtain ⟨same, behind⟩ := append_inj_of_class (p := fun c => !endsNumber c) eq
    (by simpa using h.number) (by simpa using h.head?_append) (by simpa using h'.number)
    (by simpa using h'.head?_append)
  exact ⟨same, append_inj_of_class behind h.blanks (fun c head => (h.head?_operator c head).1)
    h'.blanks fun c head => (h'.head?_operator c head).1⟩

end ArePieces

/-- A number, the white space behind it, and what follows this are pieces. -/
theorem Category.IsNumber.arePieces (h : category.IsNumber number) (after : List Char) :
    ArePieces number (after.takeWhile isBlank) (slashAhead (after.dropWhile isBlank)) where
  number := h.endsNumber_eq_false
  blanks _ mem := List.mem_takeWhile_imp mem
  operator := (slashAhead_cases _).imp And.left fun ⟨c, mem, ahead, _⟩ => ⟨c, mem, ahead⟩

/-! ## Steps at a digit -/

theorem groupFree_number (category : Category) : (Regex.number category).groupFree = true := by
  cases category <;> rfl

namespace Scan

variable {scan : Scan} {step : Step} {t : Token}

/-- Where a digit stands, the step gives the number, white space, and a slash or question mark. -/
theorem exists_step_of_isNumber (top : scan.stack.top = .root) (rest : scan.rest = some (c :: s))
    (first : isDecimalDigit c = true) (parts : c :: s = number ++ after)
    (isNumber : (numberCategory (c :: s)).IsNumber number)
    (ends : EndsGrouped (numberCategory (c :: s)).isNumberDigit after) :
    ∃ step, scan.step? fancyTable = some step ∧ step.tokens =
      pieceTokens scan.offset (numberPieces (numberCategory (c :: s)) number after) := by
  obtain ⟨rule, m, chosen, form, fits, left, eq⟩ := exists_choose_number first parts isNumber ends
  obtain ⟨search, -, -⟩ := Rule.of_attempt_eq_matched (mem_of_choose chosen).2
  rw [← top] at chosen
  obtain ⟨step, taken, given⟩ := exists_step_of_choose fancyTable_anchored rest chosen
  refine ⟨step, taken, ?_⟩
  have action : rule.action = .byGroups (numberParts (numberCategory (c :: s))) :=
    congrArg Form.action form
  have pattern : rule.pattern = numberPattern (.number (numberCategory (c :: s))) :=
    congrArg Form.pattern form
  rw [action] at given
  rw [pattern] at search
  obtain ⟨number', blanks, operator, left', eq', takes, white, one, whole, tokens⟩ :=
    exists_pieceTokens (groupFree_number _) search given
  -- the pieces that the groups mark are those that are preferred, as all together have their size
  rw [List.append_assoc number'] at whole eq'
  obtain ⟨same, -⟩ := append_inj_of_byteLength (eq.trans eq')
    (congrArg Span.stop (fits.whole.symm.trans whole))
  have marked : ArePieces number' blanks operator :=
    ⟨takes.isNumber.endsNumber_eq_false, white, one⟩
  obtain ⟨rfl, rfl, rfl⟩ := marked.unique (isNumber.arePieces after) same.symm
  exact tokens

/-- Where a point stands, the step gives a number with a point if a digit follows, and an error if
not. -/
theorem exists_step_point (top : scan.stack.top = .root) (rest : scan.rest = some ('.' :: s)) :
    ∃ step, scan.step? fancyTable = some step ∧
      ((∃ t ∈ step.tokens, t.category = .float) ↔ s.head?.any isDecimalDigit = true) := by
  cases chosen : choose (fancyTable.rules .root) ('.' :: s) with
  | torn => exact absurd chosen (fancyTable_anchored.choose_ne_torn _ _)
  | nothing =>
    have no_digit := no_digit_of_choose chosen rfl
    rw [← top] at chosen
    refine ⟨scan.recover '.' s, step?_eq_some_iff.2 ⟨'.', s, rest, .inl ⟨chosen, rfl⟩⟩, ?_⟩
    refine iff_of_false ?_ ?_
    · rintro ⟨t, mem, float⟩
      rcases category_of_mem_recover mem with other | other
      · exact absurd (other.symm.trans float) (by decide)
      · exact absurd (other.symm.trans float) (by decide)
    · rw [Option.any_eq_true]
      rintro ⟨d, head, digit⟩
      rw [no_digit d head] at digit
      cases digit
  | rule rule m =>
    obtain ⟨mem, attempt⟩ := mem_of_choose chosen
    obtain ⟨entry, listed, same, start⟩ := Rule.exists_start_of_attempt mem attempt
    have only : ∀ entry ∈ rootStarts, entry.2 '.' = true → entry.1 = .whole .float .float 2 := by
      decide +kernel
    have form : rule.form = .whole .float .float 2 := same.symm.trans (only entry listed start)
    obtain ⟨w, left, eq, nonempty, -, fits, takes⟩ :=
      Rule.fits_of_attempt (fancyTable_anchored _ rule mem) attempt
    rw [← top] at chosen
    obtain ⟨step, taken, given⟩ := exists_step_of_choose fancyTable_anchored rest chosen
    refine ⟨step, taken, iff_of_true ⟨.ofText .float scan.offset w, ?_, rfl⟩ ?_⟩
    · have action : rule.action = .whole .float := congrArg Form.action form
      rw [action, eq, emission?_whole _ fits] at given
      rw [← Option.some.inj given]
      exact List.mem_cons_self
    · have pattern : rule.pattern = anchoredPattern .float 2 := congrArg Form.pattern form
      rw [pattern] at takes
      obtain ⟨d, head, digit⟩ := takes_float eq takes.of_textStart_seq
      exact (Option.any_eq_true _ _).2 ⟨d, head, digit⟩

end Scan

/-! ## Whole numbers -/

/-- A rule that gives whole numbers only matches where a digit stands. -/
theorem exists_digit_of_attempt {rule : Rule} {m : RuleMatch}
    (mem : rule ∈ fancyTable.rules .root) (attempt : rule.attempt s = .matched m)
    (whole : ∃ category ∈ rule.action.categories, category ∈ wholeNumberCategories) :
    ∃ c t, s = c :: t ∧ isDecimalDigit c = true := by
  have zero : isDecimalDigit '0' = true := by decide
  have checked : ∀ entry ∈ rootStarts,
      (∃ category ∈ entry.1.action.categories, category ∈ wholeNumberCategories) →
        ∀ c, entry.2 c = true → isDecimalDigit c = true := by
    simp [rootStarts, rootForms, Form.whole, Form.number, numberParts, Action.categories,
      wholeNumberCategories, zero]
  obtain ⟨w, left, rfl, nonempty, -⟩ :=
    Rule.fits_of_attempt (fancyTable_anchored _ rule mem) attempt
  obtain ⟨c, w, rfl⟩ := List.exists_cons_of_ne_nil nonempty
  obtain ⟨entry, listed, same, start⟩ := Rule.exists_start_of_attempt mem attempt
  refine ⟨c, w ++ left, rfl, checked entry listed ?_ c start⟩
  rw [same]
  exact whole

/-- The last rule of ordinary source never matches first. -/
theorem ne_integer_plain_of_choose {mode : Mode} {rule : Rule} {m : RuleMatch}
    (chosen : choose (fancyTable.rules mode) s = .rule rule m) : rule.name ≠ "integer-plain" := by
  obtain ⟨mem, attempt⟩ := mem_of_choose chosen
  intro named
  cases mode with
  | balancedRegex =>
    have other : "integer-plain" ∉ (namedForms .balancedRegex).map Prod.fst := by decide +kernel
    refine other ?_
    rw [← named]
    exact List.mem_map_of_mem (mem_namedForms mem)
  | root =>
    have form : rule.form = .whole .integer (.plus true (.one .decimalDigits)) :=
      form_of_name (by decide +kernel) mem named
    have action : rule.action = .whole .integer := congrArg Form.action form
    obtain ⟨c, t, rfl, first⟩ := exists_digit_of_attempt mem attempt
      ⟨.integer, by rw [action]; exact List.mem_singleton_self _, by decide⟩
    obtain ⟨number, after, eq, isNumber, ends⟩ := exists_isNumber first t
    obtain ⟨rule', m', chosen', form', -⟩ := exists_choose_number first eq isNumber ends
    rw [chosen] at chosen'
    cases chosen'
    rw [form] at form'
    cases congrArg Form.action form'

namespace Scan

variable {scan : Scan} {step : Step} {t : Token}

/-- A rule that gives whole numbers gives the pieces of the one that stands there. -/
theorem exists_pieces_of_choose {rule : Rule} {m : RuleMatch} (top : scan.stack.top = .root)
    (taken : scan.step? fancyTable = some step) (rest : scan.rest = some s)
    (chosen : choose (fancyTable.rules .root) s = .rule rule m)
    (whole : ∃ category ∈ rule.action.categories, category ∈ wholeNumberCategories) :
    ∃ number after, s = number ++ after ∧ (numberCategory s).IsNumber number ∧
      step.tokens = pieceTokens scan.offset (numberPieces (numberCategory s) number after) := by
  obtain ⟨mem, attempt⟩ := mem_of_choose chosen
  obtain ⟨c, s, rfl, first⟩ := exists_digit_of_attempt mem attempt whole
  obtain ⟨number, after, eq, isNumber, ends⟩ := exists_isNumber first s
  obtain ⟨step', taken', pieces⟩ := exists_step_of_isNumber top rest first eq isNumber ends
  rw [taken, Option.some.injEq] at taken'
  rw [← taken'] at pieces
  exact ⟨number, after, eq, isNumber, pieces⟩

/-- A step that gives a whole number gives the one that stands there, with what stands behind it. -/
theorem number_of_mem_step (taken : scan.step? fancyTable = some step) (rest : scan.rest = some s)
    (mem : t ∈ step.tokens) (kind : t.category ∈ wholeNumberCategories) :
    ∃ number after, s = number ++ after ∧ t = .ofText (numberCategory s) scan.offset number ∧
      step.tokens = pieceTokens scan.offset (numberPieces (numberCategory s) number after) := by
  have apart : ∀ category ∈ wholeNumberCategories,
      category ∉ [Category.whitespace, .error, .text, .regex] := by
    decide
  obtain ⟨top, rule, m, chosen, listed, -⟩ :=
    exists_rule_of_mem_step taken rest mem (apart _ kind)
  obtain ⟨number, after, eq, isNumber, pieces⟩ :=
    exists_pieces_of_choose top taken rest chosen ⟨t.category, listed, kind⟩
  refine ⟨number, after, eq, ?_, pieces⟩
  -- the other pieces are of other categories
  rw [pieces, numberPieces, pieceTokens, if_neg isNumber.ne_nil] at mem
  refine (List.mem_cons.1 mem).resolve_right fun other => ?_
  have others : ∀ category ∈ [Category.whitespace, .operator],
      category ∉ wholeNumberCategories := by
    decide
  exact others _ (category_of_mem_pieceTokens other) kind

end Scan

/-- Before a slash all white space belongs to the number, and so does the slash. -/
theorem numberPieces_append_slash {blanks : List Char} (white : ∀ c ∈ blanks, isBlank c = true)
    (category : Category) (number behind : List Char) :
    numberPieces category number (blanks ++ '/' :: behind) =
      [(category, number), (.whitespace, blanks), (.operator, ['/'])] := by
  have ink : ∀ c ∈ ('/' :: behind).head?, isBlank c = false := by
    rintro _ ⟨⟩
    decide
  have split := span_append white ink
  rw [List.span_eq_takeWhile_dropWhile, Prod.mk.injEq] at split
  have operator : slashAhead ('/' :: behind) = ['/'] := rfl
  rw [numberPieces, split.1, split.2, operator]

/-- The slash behind a whole number and white space is an operator. -/
theorem operator_mem_of_slash {source before blanks behind : List Char} {t : Token}
    (mem : t ∈ tokenize source) (kind : t.category ∈ wholeNumberCategories)
    (eq : source = before ++ t.text ++ blanks ++ '/' :: behind)
    (start : t.start = byteLength before) (white : ∀ c ∈ blanks, isBlank c = true) :
    .ofText .operator (byteLength (before ++ t.text ++ blanks)) ['/'] ∈ tokenize source := by
  obtain ⟨place, step, w, left, rfl, stands, taken, memStep, all⟩ :=
    (Scan.behind_start source).exists_step_of_mem_tokens fancyTable_anchored t mem
  obtain ⟨number, after, rfl, rfl, pieces⟩ :=
    Scan.number_of_mem_step taken stands.rest memStep kind
  have offset : place.offset = byteLength w := stands.offset
  -- the step stands where the token says, so the number is the text of the token
  rw [List.append_assoc, List.append_assoc] at eq
  obtain ⟨rfl, left⟩ := append_inj_of_byteLength eq (offset.symm.trans start)
  obtain rfl : after = blanks ++ '/' :: behind := List.append_cancel_left left
  rw [numberPieces_append_slash white] at pieces
  have sizes : byteLength (w ++ number ++ blanks) = place.offset + byteLength
      ([(numberCategory (number ++ (blanks ++ '/' :: behind)), number),
        (.whitespace, blanks)].flatMap Prod.snd) := by
    rw [offset]
    simp
  apply all
  change Token.ofText .operator (byteLength (w ++ number ++ blanks)) ['/'] ∈ step.tokens
  rw [pieces, sizes]
  exact ofText_mem_pieceTokens (List.cons_ne_nil _ _) [_, _] []

/-- Where a digit stands in ordinary source, the step gives the number that stands there, then the
white space behind it, and then a slash or question mark, and nothing else. Numbers with a point
start with it, and the last rule never wins. So the slash behind a whole number and white space is
an operator, and no other token holds it. -/
theorem numbers_consume_division :
    (∀ (scan : Scan) (c : Char) (s : List Char), scan.stack.top = .root →
      scan.rest = some (c :: s) → isDecimalDigit c = true →
      ∃ step number after, scan.step? fancyTable = some step ∧ c :: s = number ++ after ∧
        (numberCategory (c :: s)).IsNumber number ∧
        EndsGrouped (numberCategory (c :: s)).isNumberDigit after ∧
        step.tokens =
          pieceTokens scan.offset (numberPieces (numberCategory (c :: s)) number after)) ∧
    (∀ (scan : Scan) (s : List Char), scan.stack.top = .root → scan.rest = some ('.' :: s) →
      ∃ step, scan.step? fancyTable = some step ∧
        ((∃ t ∈ step.tokens, t.category = .float) ↔ s.head?.any isDecimalDigit = true)) ∧
    (∀ mode s rule m, choose (fancyTable.rules mode) s = .rule rule m →
      rule.name ≠ "integer-plain") ∧
    (∀ source, ∀ t ∈ tokenize source, t.category = .float →
      ∀ c ∈ t.text.head?, isDecimalDigit c = false) ∧
    ∀ source, ∀ t ∈ tokenize source, t.category ∈ wholeNumberCategories →
      ∀ before blanks behind, source = before ++ t.text ++ blanks ++ '/' :: behind →
        t.start = byteLength before → (∀ c ∈ blanks, isBlank c = true) →
        .ofText .operator (byteLength (before ++ t.text ++ blanks)) ['/'] ∈ tokenize source ∧
          ∀ u ∈ tokenize source, u.start ≤ byteLength (before ++ t.text ++ blanks) →
            byteLength (before ++ t.text ++ blanks) < u.stop →
            u = .ofText .operator (byteLength (before ++ t.text ++ blanks)) ['/'] := by
  refine ⟨?_, ?_, ?_, ?_, ?_⟩
  · intro scan c s top rest first
    obtain ⟨number, after, eq, isNumber, ends⟩ := exists_isNumber first s
    obtain ⟨step, taken, tokens⟩ :=
      Scan.exists_step_of_isNumber top rest first eq isNumber ends
    exact ⟨step, number, after, taken, eq, isNumber, ends, tokens⟩
  · exact fun scan s top rest => Scan.exists_step_point top rest
  · exact fun mode s rule m chosen => ne_integer_plain_of_choose chosen
  · intro source t mem float c head
    obtain ⟨_, _, -, -, fits⟩ := (Scan.behind_start source).fits_of_mem_tokens t mem
    rw [float] at fits
    obtain ⟨digits, exponent, -, -, text⟩ := fits
    rw [text] at head
    cases head
    decide
  · intro source t mem kind before blanks behind eq start white
    have operator := operator_mem_of_slash mem kind eq start white
    have tiling := ((Scan.behind_start source).tiling_tokens fancyTable_anchored).1
    refine ⟨operator, fun u memU start' stop' => Eq.symm ?_⟩
    exact tiling.eq_of_overlap operator memU (Nat.le_refl _) (Nat.lt_succ_self _) start' stop'

/-- A regular expression is not opened between a number and a name. -/
theorem numbers_consume_division_twelve :
    (∃ step number after, (Scan.start ['1', '2', ' ', '/', 'x', '/']).step? fancyTable = some step ∧
      ['1', '2', ' ', '/', 'x', '/'] = number ++ after ∧ Category.integer.IsNumber number ∧
      EndsGrouped isDecimalDigit after ∧
      step.tokens = pieceTokens 0 (numberPieces .integer number after)) ∧
    (∃ rule m, choose (fancyTable.rules .root) ['1', '2', ' ', '/', 'x', '/'] = .rule rule m ∧
      rule.name ≠ "integer-plain") ∧
    (∃ t ∈ tokenize ['.', '5'], t.category = .float ∧
      ∀ c ∈ t.text.head?, isDecimalDigit c = false) ∧
    .ofText .integer 0 ['1', '2'] ∈ tokenize ['1', '2', ' ', '/', 'x', '/'] ∧
    .ofText .operator 3 ['/'] ∈ tokenize ['1', '2', ' ', '/', 'x', '/'] ∧
    ∀ u ∈ tokenize ['1', '2', ' ', '/', 'x', '/'], u.start ≤ 3 → 3 < u.stop →
      u = .ofText .operator 3 ['/'] := by
  have integer : numberCategory ['1', '2', ' ', '/', 'x', '/'] = .integer := by decide +kernel
  have first : isDecimalDigit '1' = true := by decide
  have parts : ['1', '2', ' ', '/', 'x', '/'] = ['1', '2'] ++ [' ', '/', 'x', '/'] := rfl
  have twelve : Category.integer.IsNumber ['1', '2'] :=
    ⟨[], by decide, ['1', '2'], rfl, ['1', '2'], [], rfl,
      ⟨by decide, List.all_eq_true.1 (by decide)⟩, by simp⟩
  have ends : EndsGrouped isDecimalDigit [' ', '/', 'x', '/'] := by
    refine ⟨?_, by simp⟩
    rintro _ ⟨⟩
    decide
  have isNumber := integer.symm ▸ twelve
  obtain ⟨digit, point, plain, float, slash⟩ := numbers_consume_division
  refine ⟨?_, ?_, ?_, ?_⟩
  · have taken := digit (.start ['1', '2', ' ', '/', 'x', '/']) '1' _ rfl rfl first
    rwa [integer] at taken
  · obtain ⟨rule, m, chosen, -⟩ := exists_choose_number first parts isNumber (integer.symm ▸ ends)
    exact ⟨rule, m, chosen, plain _ _ rule m chosen⟩
  · obtain ⟨step, taken, iff⟩ := point (.start ['.', '5']) ['5'] rfl rfl
    obtain ⟨t, mem, category⟩ := iff.2 (by decide)
    have handed : t ∈ tokenize ['.', '5'] := by
      rw [tokenize, Scan.tokens_of_step?_eq_some taken]
      exact List.mem_append_left _ mem
    exact ⟨t, handed, category, float _ t handed category⟩
  · have top : (Scan.start ['1', '2', ' ', '/', 'x', '/']).stack.top = .root := rfl
    obtain ⟨step, taken, tokens⟩ := Scan.exists_step_of_isNumber top rfl first parts isNumber
      (integer.symm ▸ ends)
    have mem : .ofText .integer 0 ['1', '2'] ∈ tokenize ['1', '2', ' ', '/', 'x', '/'] := by
      rw [tokenize, Scan.tokens_of_step?_eq_some taken, tokens, integer]
      exact List.mem_append_left _ List.mem_cons_self
    have white : ∀ c ∈ [' '], isBlank c = true := List.all_eq_true.1 (by decide)
    exact ⟨mem, slash _ _ mem (by decide) [] [' '] ['x', '/'] rfl rfl white⟩

end FancyTokens
