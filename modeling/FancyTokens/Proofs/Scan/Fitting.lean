import FancyTokens.Proofs.Scan.Coverage
import FancyTokens.Proofs.Scan.Numbers

/-!
# The text of each token fits its category

Whatever the source is, each token of Fancy source stands in it where it says, with a text that its
category allows (`text_fits_category`). A rule that is chosen gives such tokens
(`fits_of_choose`), a recovery does (`fits_of_recover`), and so does every step of a scan.
-/

namespace FancyTokens

/-- The token stands in the source that begins at the offset, and its text is one that its category
allows there. -/
def Token.FitsIn (offset : Nat) (source : List Char) (t : Token) : Prop :=
  ∃ before behind, source = before ++ t.text ++ behind ∧ t.start = offset + byteLength before ∧
    t.category.Fits t.text behind

/-- A token that fits what remains of a source fits the source. -/
theorem Token.FitsIn.append {offset : Nat} {w rest : List Char} {t : Token}
    (h : t.FitsIn (offset + byteLength w) rest) : t.FitsIn offset (w ++ rest) := by
  obtain ⟨before, behind, rfl, start, fits⟩ := h
  refine ⟨w ++ before, behind, by simp, ?_, fits⟩
  rw [start, byteLength_append, Nat.add_assoc]

/-- The tokens of some pieces fit where the pieces stand, if the text of each piece fits its
category. -/
theorem fits_of_mem_pieceTokens {offset : Nat} {pieces : List (Category × List Char)}
    (fits : ∀ piece ∈ pieces, piece.2 ≠ [] → ∀ behind, piece.1.Fits piece.2 behind)
    (rest : List Char) :
    ∀ t ∈ pieceTokens offset pieces, t.FitsIn offset (pieces.flatMap Prod.snd ++ rest) := by
  induction pieces generalizing offset with
  | nil =>
    intro t mem
    cases mem
  | cons piece pieces ih =>
    obtain ⟨category, w⟩ := piece
    obtain ⟨first, others⟩ := List.forall_mem_cons.1 fits
    intro t mem
    rw [List.flatMap_cons, List.append_assoc]
    rw [pieceTokens] at mem
    by_cases empty : w = []
    · rw [if_pos empty] at mem
      rw [empty]
      exact ih others t mem
    · rw [if_neg empty, List.mem_cons] at mem
      obtain rfl | mem := mem
      · exact ⟨[], _, rfl, rfl, first empty _⟩
      · exact (ih others t mem).append

/-! ## Forms -/

/-- The form gives tokens whose texts fit: one for its whole text, where no rule before it comes
first, or those of a number. -/
def Form.IsSound (form : Form) : Prop :=
  match form.action with
  | .whole category => ∀ w behind, form.pattern.regex.Takes none w behind →
    category.Leads w → category.Fits w behind
  | .byGroups categories => ∃ category digits, categories = numberParts category ∧
    form.pattern = numberPattern digits ∧ digits.groupFree = true ∧
    ∀ before w behind, digits.Takes before w behind → ∀ behind, category.Fits w behind

theorem Form.isSound_whole {category : Category} {r : Regex} {groups : Nat}
    (fits : ∀ {w behind}, r.Takes none w behind → category.Leads w → category.Fits w behind) :
    (Form.whole category r groups).IsSound :=
  fun _ _ h leads => fits h.of_textStart_seq leads

theorem Form.isSound_number {category : Category} {digits : Regex}
    (free : digits.groupFree = true)
    (fits : ∀ {before w behind}, digits.Takes before w behind →
      ∀ behind, category.Fits w behind) :
    (Form.number category digits).IsSound :=
  ⟨category, digits, rfl, rfl, free, fun _ _ _ h => fits h⟩

/-- Every form of ordinary source gives tokens whose texts fit. -/
theorem isSound_of_mem_rootForms : ∀ form ∈ rootForms, form.IsSound := by
  have substitution {delimiters : Char × Char} (mem : delimiters ∈ substitutionDelimiters) :
      (Form.mk (.whole .regex) (substitutionPattern delimiters) none).IsSound :=
    fun _ _ h _ => Or.inl (isOpener_of_takes mem h)
  simp only [rootForms, List.forall_mem_cons]
  and_intros
  · exact Form.isSound_whole fun h _ => h.fits_whitespace
  -- regular expressions and what announces them
  · exact substitution (by decide)
  · exact substitution (by decide)
  · exact substitution (by decide)
  · exact substitution (by decide)
  · exact Form.isSound_whole fun h _ => Or.inr (Or.inr h.isSlashLiteral)
  · exact fun _ _ h _ => Or.inl (isOpener_of_takes_letter h)
  · exact Form.isSound_whole fun h _ => h.fits_lineComment
  · exact Form.isSound_whole fun h _ => h.fits_symbol
  · exact Form.isSound_whole fun h _ => Or.inr h.isTripleString
  · exact Form.isSound_whole fun h _ => Or.inl h.isString
  -- words
  · exact Form.isSound_whole fun h _ => h.fits_keyword
  · exact Form.isSound_whole fun h _ => Or.inl h.mem_of_wholeWord
  · exact Form.isSound_whole fun h _ => h.mem_of_wholeWord
  · exact Form.isSound_whole fun h _ => h.fits_function
  · exact Form.isSound_whole fun h _ => h.fits_operator
  · exact Form.isSound_whole Regex.Takes.fits_punctuation
  -- names
  · exact Form.isSound_whole fun h _ => h.fits_constant
  · exact Form.isSound_whole fun h _ => h.fits_instanceVariable
  · exact Form.isSound_whole fun h _ => h.fits_classVariable
  · exact Form.isSound_whole fun h _ => h.fits_sigil
  · exact Form.isSound_whole Regex.Takes.fits_name
  -- numbers
  · exact Form.isSound_number rfl fun h _ => h.fits_octal
  · exact Form.isSound_number rfl fun h _ => h.isPrefixed CharClass.covers_hexadecimalDigits
  · exact Form.isSound_number rfl fun h _ => h.isPrefixed (CharClass.covers_ofChars_false _)
  · exact Form.isSound_number rfl fun h _ => h.isGrouped_of CharClass.covers_decimalDigits
  · exact Form.isSound_whole Regex.Takes.fits_float
  · exact Form.isSound_whole fun h _ =>
      ⟨_, [], (List.append_nil _).symm, h.isDigits CharClass.covers_decimalDigits, by simp⟩
  · exact List.forall_mem_nil _

/-! ## The rule that is chosen -/

variable {s w rest : List Char} {rule : Rule} {m : RuleMatch} {offset : Nat} {tokens : List Token}

/-- A rule of a later form is not chosen where the text begins with a character that the form at
some place takes alone. -/
theorem head_not_covered_of_choose {n : Nat} {action : Action} {r : Regex} {groups : Nat}
    (place : rootForms[n]? = some ⟨action, anchoredPattern r groups, none⟩)
    (advances : r.loopsAdvance = true) (nonempty : r.nullable = false)
    (chosen : choose (fancyTable.rules .root) s = .rule rule m)
    (later : rule.form ∉ rootForms.take (n + 1)) (eq : s = w ++ rest) {set : CharClass}
    (alone : ∀ c behind, set.covers c = true → r.Takes none [c] behind) :
    ∀ c ∈ w.head?, set.covers c = false := by
  intro c head
  apply Bool.eq_false_iff.2
  intro covered
  obtain ⟨v, rfl⟩ := List.head?_eq_some_iff.1 head
  exact not_takes_of_choose place advances nonempty chosen later (w := [c]) eq
    (alone c (v ++ rest) covered)

/-- A rule for punctuation, names or numbers with a point is only chosen where the rules for
operators, constants and whole numbers have missed. -/
theorem leads_of_choose {category : Category}
    (chosen : choose (fancyTable.rules .root) s = .rule rule m)
    (action : rule.action = .whole category) (eq : s = w ++ rest) : category.Leads w := by
  have later {n : Nat} (none : ∀ form ∈ rootForms.take (n + 1), form.action ≠ .whole category) :
      rule.form ∉ rootForms.take (n + 1) :=
    fun mem => none _ mem action
  cases category with
  | punctuation =>
    have operator : ∀ c behind, (CharClass.ofChars false operatorChars).covers c = true →
        (Regex.plus true (.oneOf operatorChars)).Takes none [c] behind :=
      fun c _ covered => .plus (u := [c]) (.one covered) .starNil
    intro c head mem
    have missed := head_not_covered_of_choose (n := 15) rfl rfl rfl chosen (later (by decide)) eq
      operator c head
    rw [CharClass.covers_ofChars_false, decide_eq_true mem] at missed
    cases missed
  | name =>
    have constant : ∀ c behind, CharClass.capitals.covers c = true →
        (Regex.name .capitals).Takes none [c] behind :=
      fun c _ covered => .seq (u := [c]) (.one covered) .starNil
    intro c head
    rw [← CharClass.covers_capitals]
    exact head_not_covered_of_choose (n := 17) rfl rfl rfl chosen (later (by decide)) eq
      constant c head
  | float =>
    -- a digit alone is a whole number with nothing behind it
    have integer : ∀ c behind, CharClass.decimalDigits.covers c = true →
        (Regex.suffixed (.grouped .decimalDigits)).Takes none [c] behind := by
      intro c behind digit
      have number : (Regex.grouped .decimalDigits).Takes none [c] behind :=
        .seq (u := [c]) (.plus (u := [c]) (.one digit) .starNil) .starNil
      exact .seq (u := [c]) (.group number) (.seq (u := []) (.group .starNil) (.altRight .empty))
    intro c head
    rw [← CharClass.covers_decimalDigits]
    exact head_not_covered_of_choose (n := 25) rfl rfl rfl chosen (later (by decide)) eq
      integer c head
  | _ => exact trivial

/-- The tokens of a rule that is chosen in ordinary source fit. -/
theorem fits_of_choose (chosen : choose (fancyTable.rules .root) s = .rule rule m)
    (given : emission? offset s rule.action m.found = some tokens) :
    ∀ t ∈ tokens, t.FitsIn offset s := by
  obtain ⟨mem, attempt⟩ := mem_of_choose chosen
  have form : rule.form ∈ rootForms := by
    rw [← map_form_rules_root]
    exact List.mem_map_of_mem mem
  have sound := isSound_of_mem_rootForms _ form
  cases action : rule.action with
  | whole category =>
    obtain ⟨w, rest, rfl, -, -, fits, takes⟩ :=
      Rule.fits_of_attempt (fancyTable_anchored _ rule mem) attempt
    rw [action, emission?_whole category fits] at given
    cases given
    intro t mem
    rw [List.mem_singleton.1 mem]
    rw [Form.IsSound, Rule.form, action] at sound
    exact ⟨[], rest, rfl, rfl, sound w rest takes (leads_of_choose chosen action rfl)⟩
  | byGroups categories =>
    rw [Form.IsSound, Rule.form, action] at sound
    obtain ⟨category, digits, rfl, pattern, free, digits_fit⟩ := sound
    obtain ⟨search, -, -⟩ := Rule.of_attempt_eq_matched attempt
    change rule.pattern = _ at pattern
    rw [pattern] at search
    rw [action] at given
    obtain ⟨number, blanks, operator, rest, rfl, takes, white, one, -, rfl⟩ :=
      exists_pieceTokens free search given
    have joined : number ++ blanks ++ operator ++ rest =
        [(category, number), (.whitespace, blanks), (.operator, operator)].flatMap Prod.snd ++
          rest := by
      simp
    rw [joined]
    apply fits_of_mem_pieceTokens
    simp only [List.forall_mem_cons]
    refine ⟨fun _ => digits_fit _ _ _ takes, fun nonempty _ => ⟨nonempty, white⟩, ?_, by simp⟩
    intro nonempty behind
    obtain rfl | ⟨d, listed, rfl⟩ := one
    · exact absurd rfl nonempty
    · have operators : ∀ d ∈ ['/', '?'], d ∈ operatorChars := by simp [operatorChars]
      refine Or.inl ⟨nonempty, ?_⟩
      intro e memE
      rw [List.mem_singleton.1 memE]
      exact operators d listed

/-! ## Whole scans -/

namespace Scan

variable {scan : Scan} {step : Step} {before : List Char}

/-- The token of a recovery fits. -/
theorem fits_of_recover (scan : Scan) (c : Char) (rest : List Char) :
    ∀ t ∈ (scan.recover c rest).tokens, t.FitsIn scan.offset (c :: rest) := by
  intro t mem
  rw [recover] at mem
  by_cases newline : c = '\n'
  · rw [if_pos newline] at mem
    rw [List.mem_singleton.1 mem]
    have blank : ∀ d ∈ [c], isBlank d = true := by
      intro d memD
      rw [List.mem_singleton.1 memD, newline]
      decide
    exact ⟨[], rest, rfl, rfl, List.cons_ne_nil _ _, blank⟩
  · rw [if_neg newline] at mem
    rw [List.mem_singleton.1 mem]
    exact ⟨[], rest, rfl, rfl, c, rfl, newline⟩

/-- The tokens of a step fit what remains of the source. -/
theorem fits_of_step? (taken : scan.step? fancyTable = some step) :
    ∃ s, scan.rest = some s ∧ ∀ t ∈ step.tokens, t.FitsIn scan.offset s := by
  obtain ⟨c, s, rest, ⟨-, rfl⟩ | ⟨rule, m, tokens, chosen, given, rfl⟩⟩ :=
    step?_eq_some_iff.1 taken
  · exact ⟨c :: s, rest, fits_of_recover scan c s⟩
  · refine ⟨c :: s, rest, ?_⟩
    cases mode : scan.stack.top with
    | root =>
      rw [mode] at chosen
      exact fits_of_choose chosen given
    | balancedRegex =>
      rw [mode] at chosen
      obtain ⟨mem, attempt⟩ := mem_of_choose chosen
      obtain ⟨action, -, delimiters, memDelimiters, pattern⟩ := of_mem_rules_balancedRegex mem
      obtain ⟨w, left, eq, -, -, fits, takes⟩ :=
        Rule.fits_of_attempt (fancyTable_anchored _ rule mem) attempt
      rw [eq, action, emission?_whole _ fits] at given
      cases given
      rw [pattern] at takes
      intro t mem
      rw [List.mem_singleton.1 mem]
      exact ⟨[], left, eq, rfl, Or.inr (Or.inl (isLiteral_of_takes memDelimiters takes))⟩

/-- The tokens still to come fit what remains of the source. -/
theorem Behind.fits_of_mem_tokens (h : scan.Behind before rest) :
    ∀ t ∈ scan.tokens fancyTable, t.FitsIn (byteLength before) rest := by
  intro t mem
  obtain ⟨place, step, w, left, rfl, behind, taken, memStep, -⟩ :=
    h.exists_step_of_mem_tokens fancyTable_anchored t mem
  obtain ⟨s, rest_eq, fits⟩ := fits_of_step? taken
  obtain rfl : s = left := Option.some.inj (rest_eq.symm.trans behind.rest)
  have here := fits t memStep
  rw [behind.offset, byteLength_append] at here
  exact here.append

end Scan

/-- Each token of a source stands where it says, and its text fits its category. -/
theorem text_fits_category (source : List Char) : ∀ t ∈ tokenize source,
    ∃ before behind, source = before ++ t.text ++ behind ∧ t.start = byteLength before ∧
      t.category.Fits t.text behind := by
  intro t mem
  obtain ⟨before, behind, eq, start, fits⟩ :=
    (Scan.behind_start source).fits_of_mem_tokens t mem
  rw [byteLength_nil, Nat.zero_add] at start
  exact ⟨before, behind, eq, start, fits⟩

/-- A comment at the end of a source needs no line break. -/
theorem text_fits_category_comment :
    Token.ofText .lineComment 0 ['#', 'é'] ∈ tokenize ['#', 'é'] ∧
      ∃ before behind, ['#', 'é'] = before ++ ['#', 'é'] ++ behind ∧ 0 = byteLength before ∧
        Category.lineComment.Fits ['#', 'é'] behind := by
  -- the rule that wins is among the first eight
  have first : ((rootRules.take 8).mapM Rule.compile?).bind (fun rules =>
      match choose rules ['#', 'é'] with
      | .rule rule m => emission? 0 ['#', 'é'] rule.action m.found
      | _ => none) = some [.ofText .lineComment 0 ['#', 'é']] := by
    decide +kernel
  obtain ⟨rules, read, given⟩ := Option.bind_eq_some_iff.1 first
  obtain ⟨more, rules_eq⟩ := exists_rules_root read
  have mem : Token.ofText .lineComment 0 ['#', 'é'] ∈ tokenize ['#', 'é'] := by
    cases chosen : choose rules ['#', 'é'] with
    | nothing =>
      rw [chosen] at given
      cases given
    | torn =>
      rw [chosen] at given
      cases given
    | rule rule m =>
      rw [chosen] at given
      have wins := choose_append more chosen
      rw [← rules_eq] at wins
      have top : (Scan.start ['#', 'é']).stack.top = .root := rfl
      rw [← top] at wins
      have taken : ∃ step, (Scan.start ['#', 'é']).step? fancyTable = some step ∧
          step.tokens = [.ofText .lineComment 0 ['#', 'é']] :=
        ⟨_, Scan.step?_eq_some_iff.2 ⟨'#', ['é'], rfl, Or.inr ⟨rule, m, _, wins, given, rfl⟩⟩, rfl⟩
      obtain ⟨step, taken, tokens⟩ := taken
      rw [tokenize, Scan.tokens_of_step?_eq_some taken, tokens]
      exact List.mem_append_left _ List.mem_cons_self
  exact ⟨mem, text_fits_category _ _ mem⟩

end FancyTokens
