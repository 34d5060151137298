import FancyTokens.Proofs.Scan.Division
import FancyTokens.Proofs.Scan.Words

/-!
# Neighbouring tokens

A rule takes all characters of a kind that stand in a row, so what stands behind its token is not of
that kind. Two tokens for white space, for operators or for words therefore do not stand side by
side, with few exceptions (`runs_are_one_token`): a line break that leaves the mode for regular
expressions is taken alone, so is the slash or question mark behind a number, and sigils are no part
of other operators.

The argument is about one step, from which a token comes with a text behind it (`Scan.Gives`). The
place of this step is found in the run of the whole scan (`Scan.exists_gives`).
-/

namespace FancyTokens

variable {table : RuleTable} {c : Char} {s w behind : List Char} {t u : Token}
  {front back earlier later : List Token}

theorem Tiling.exists_eq_singleton {offset : Nat} {tokens : List Token}
    (h : Tiling offset [c] tokens) : ∃ category, tokens = [.ofText category offset [c]] := by
  generalize eq : [c] = text at h
  cases h with
  | nil => cases eq
  | @cons category offset w rest tokens nonempty more =>
    obtain ⟨d, v, rfl⟩ := List.exists_cons_of_ne_nil nonempty
    obtain ⟨rfl, empty⟩ := List.cons.inj eq
    obtain ⟨rfl, rfl⟩ := List.append_eq_nil_iff.1 empty.symm
    rw [more.tokens_eq_nil]
    exact ⟨category, rfl⟩

/-- An element of two lists one behind the other is one of the first or one of the second. -/
theorem append_eq_append_cons {α : Type} {a b c d : List α} {x : α} (eq : a ++ b = c ++ x :: d) :
    (∃ e, a = c ++ x :: e ∧ d = e ++ b) ∨ ∃ e, b = e ++ x :: d ∧ c = a ++ e := by
  rcases List.append_eq_append_iff.1 eq with ⟨e, parts, rest⟩ | ⟨e, parts, rest⟩
  · exact .inr ⟨e, rest, parts⟩
  · rcases List.cons_eq_append_iff.1 rest with ⟨rfl, second⟩ | ⟨e, rfl, inner⟩
    · exact .inr ⟨[], second, by simpa using parts.symm⟩
    · exact .inl ⟨e, parts, inner⟩

/-- The text is a sigil without a name. -/
def IsSigil (w : List Char) : Prop :=
  w ∈ [['@'], ['@', '@']]

theorem Regex.Takes.isSigil {before : Option Char}
    (h : Takes (.seq (.char '@') (maybe (.char '@'))) before w behind) : IsSigil w := by
  cases h with
  | seq first second =>
    rw [of_char first]
    rcases second.of_optional with rfl | second
    · exact List.mem_cons_self
    · rw [of_char second]
      exact List.mem_cons_of_mem _ List.mem_cons_self

/-! ## The step of a token -/

namespace Scan

variable {scan place : Scan} {step : Step}

/-- The step takes a number and perhaps white space, and ends with the slash or question mark of the
token. -/
def EndsNumber (place : Scan) (step : Step) (t : Token) : Prop :=
  t.text ∈ [['/'], ['?']] ∧ ∃ category ∈ wholeNumberCategories, ∃ number blanks, number ≠ [] ∧
    step.tokens = pieceTokens place.offset
      [(category, number), (.whitespace, blanks), (.operator, t.text)]

/-- A step at the place gives the token, between others, and `behind` follows its text. -/
structure Gives (place : Scan) (step : Step) (front : List Token) (t : Token) (back : List Token)
    (behind : List Char) : Prop where
  taken : place.step? fancyTable = some step
  tokens : step.tokens = front ++ t :: back
  rest : place.rest = some (detokenize front ++ t.text ++ behind)

/-- A token of a scan is one of a step, behind the tokens of the steps before. -/
theorem exists_step_of_tokens_eq (eq : scan.tokens table = earlier ++ t :: later) :
    ∃ done place step front back, Run table scan done place ∧ place.step? table = some step ∧
      step.tokens = front ++ t :: back ∧ earlier = done.flatMap (·.tokens) ++ front ∧
      later = back ++ step.next.tokens table := by
  induction scan using step_induction table generalizing earlier with
  | stop scan stopped =>
    rw [tokens_of_step?_eq_none stopped] at eq
    simp at eq
  | step scan step taken ih =>
    rw [tokens_of_step?_eq_some taken] at eq
    rcases append_eq_append_cons eq with ⟨back, tokens, parts⟩ | ⟨more, rest, rfl⟩
    · exact ⟨[], scan, step, earlier, back, .start, taken, tokens, rfl, parts⟩
    · obtain ⟨done, place, step', front, back, run, taken', tokens, rfl, parts⟩ := ih rest
      refine ⟨step :: done, place, step', front, back, (Run.single taken).trans run, taken', tokens,
        ?_, parts⟩
      rw [List.flatMap_cons, List.append_assoc]

/-- Each token of a source comes from a step of its scan, with the texts of the later tokens behind
it. -/
theorem exists_gives {source : List Char} (eq : tokenize source = earlier ++ t :: later) :
    ∃ done place step front back, Run fancyTable (.start source) done place ∧
      earlier = done.flatMap (·.tokens) ++ front ∧
      place.Gives step front t back (detokenize later) := by
  obtain ⟨done, place, step, front, back, run, taken, tokens, parts, rfl⟩ :=
    exists_step_of_tokens_eq eq
  refine ⟨done, place, step, front, back, run, parts, taken, tokens, ?_⟩
  obtain ⟨c, s, rest, -⟩ := step?_eq_some_iff.1 taken
  obtain ⟨before, -, offset⟩ := slice?_to_end_eq_some_iff.1 (run.rest_eq.symm.trans rest)
  -- the tokens from the place on make up what remains there
  have stands : place.Behind before (c :: s) := ⟨offset.symm, rest⟩
  have remaining := (stands.tiling_tokens fancyTable_anchored).1.detokenize_eq
  rw [tokens_of_step?_eq_some taken, tokens, List.append_assoc, List.cons_append,
    detokenize_append, detokenize_cons] at remaining
  rw [rest, ← remaining, List.append_assoc]

theorem Gives.mem (h : place.Gives step front t back behind) : t ∈ step.tokens := by
  rw [h.tokens]
  exact List.mem_append_right _ List.mem_cons_self

theorem Gives.of_single (h : place.Gives step front t back behind) (single : step.tokens = [u]) :
    t = u ∧ front = [] ∧ back = [] ∧ place.rest = some (t.text ++ behind) := by
  have rest := h.rest
  have tokens := h.tokens
  rw [single] at tokens
  cases front with
  | nil =>
    obtain ⟨rfl, rfl⟩ := List.cons.inj tokens
    exact ⟨rfl, rfl, rfl, rest⟩
  | cons => simp at tokens

end Scan

/-! ## What stands behind a token -/

/-- A rule for some characters of a class gives one token for all that stand in a row. -/
theorem tokens_eq_of_plus_one {mode : Mode} {rule : Rule} {m : RuleMatch} {category : Category}
    {set : CharClass} {p : Char → Bool} {offset : Nat} {tokens : List Token}
    (covers : ∀ c, set.covers c = p c) (mem : rule ∈ fancyTable.rules mode)
    (form : rule.form = .whole category (.plus true (.one set)))
    (attempt : rule.attempt s = .matched m)
    (given : emission? offset s rule.action m.found = some tokens) :
    tokens = [.ofText category offset (s.takeWhile p)] := by
  have pattern : rule.pattern = anchoredPattern (.plus true (.one set)) 0 :=
    congrArg Form.pattern form
  have action : rule.action = .whole category := congrArg Form.action form
  have nonempty : s.takeWhile p ≠ [] := by
    obtain ⟨w, rest, rfl, -, -, -, takes⟩ :=
      Rule.fits_of_attempt (fancyTable_anchored _ rule mem) attempt
    rw [pattern] at takes
    obtain ⟨nonempty, covered⟩ := takes.of_textStart_seq.of_plus_one
    obtain ⟨c, w, rfl⟩ := List.exists_cons_of_ne_nil nonempty
    have first : p c = true := covers c ▸ covered c List.mem_cons_self
    rw [List.cons_append, List.takeWhile_cons, if_pos first]
    exact List.cons_ne_nil _ _
  have prefers : Regex.Prefers (.plus true (.one set)) none (s.takeWhile p) (s.dropWhile p) := by
    refine Regex.prefers_plus_one nonempty (fun c mem => ?_) fun c head => ?_
    · rw [covers]
      exact List.mem_takeWhile_imp mem
    · rw [covers]
      exact head?_dropWhile_eq_false head
  obtain ⟨m', attempt', -, fits⟩ := Rule.exists_attempt_of_prefers mem
    (congrArg Form.lookahead form) pattern nonempty prefers
  rw [List.takeWhile_append_dropWhile, attempt] at attempt'
  cases attempt'
  rw [action, emission?_whole_of_prefix category (List.takeWhile_prefix p) fits] at given
  exact (Option.some.inj given).symm

/-- What is behind all characters of a kind that stand in a row is not of the kind. -/
theorem head?_of_takeWhile_append {p : Char → Bool} (eq : s = s.takeWhile p ++ behind) :
    ∀ c ∈ behind.head?, p c = false := by
  have rest : s.takeWhile p ++ s.dropWhile p = s.takeWhile p ++ behind :=
    List.takeWhile_append_dropWhile.trans eq
  intro c head
  rw [← List.append_cancel_left rest] at head
  exact head?_dropWhile_eq_false head

theorem classifyWord_eq_takeWhile (kind : (classifyWord s).1 ∈ wordCategories) :
    (classifyWord s).2 = s.takeWhile isNamePart := by
  unfold classifyWord at kind ⊢
  split
  · rfl
  · rename_i ahead
    rw [ahead] at kind
    rcases classifyName_cases s with label | ⟨-, constant⟩ | name
    · have other : Category.function ∉ wordCategories := by decide
      rw [label] at kind
      exact absurd kind other
    · rw [constant]
    · rw [name]

theorem numberCategory_mem (s : List Char) : numberCategory s ∈ wholeNumberCategories := by
  unfold numberCategory
  split_ifs <;> decide

/-- A token of some pieces is that of one of them, behind the tokens of the pieces before it. -/
theorem exists_of_pieceTokens_eq {offset : Nat} {pieces : List (Category × List Char)}
    (eq : pieceTokens offset pieces = front ++ t :: back) :
    t.text ≠ [] ∧ ∃ earlier later offset', pieces = earlier ++ (t.category, t.text) :: later ∧
      detokenize front = earlier.flatMap Prod.snd ∧ back = pieceTokens offset' later := by
  induction pieces generalizing offset front with
  | nil => simp [pieceTokens] at eq
  | cons piece pieces ih =>
    obtain ⟨category, w⟩ := piece
    rw [pieceTokens] at eq
    by_cases empty : w = []
    · rw [if_pos empty] at eq
      obtain ⟨nonempty, earlier, later, offset', rfl, before, rest⟩ := ih eq
      exact ⟨nonempty, (category, w) :: earlier, later, offset', rfl, by simp [before, empty], rest⟩
    · rw [if_neg empty] at eq
      cases front with
      | nil =>
        obtain ⟨rfl, rfl⟩ := List.cons.inj eq
        exact ⟨empty, [], pieces, _, rfl, rfl, rfl⟩
      | cons u front =>
        obtain ⟨rfl, more⟩ := List.cons.inj eq
        obtain ⟨nonempty, earlier, later, offset', rfl, before, rest⟩ := ih more
        refine ⟨nonempty, (category, w) :: earlier, later, offset', rfl, ?_, rest⟩
        rw [detokenize_cons, before, List.flatMap_cons]
        rfl

/-- A piece of a number is the number, the white space behind it, or the operator behind that. -/
theorem numberPieces_cases {category category' : Category} {number after : List Char}
    {earlier later : List (Category × List Char)}
    (eq : numberPieces category number after = earlier ++ (category', w) :: later) :
    category' = category ∨
      (category' = .whitespace ∧ earlier = [(category, number)] ∧ w = after.takeWhile isBlank) ∨
      (category' = .operator ∧ w = slashAhead (after.dropWhile isBlank) ∧ later = []) := by
  rw [numberPieces] at eq
  rcases earlier with _ | ⟨first, _ | ⟨second, _ | ⟨third, earlier⟩⟩⟩
  · cases eq
    exact .inl rfl
  · cases eq
    exact .inr (.inl ⟨rfl, rfl, rfl⟩)
  · cases eq
    exact .inr (.inr ⟨rfl, rfl, rfl⟩)
  · simp at eq

namespace Scan

variable {place : Scan} {step : Step}

/-- What a rule for some characters of a class gives has no such character behind it. -/
theorem Gives.of_plus_one (h : place.Gives step front t back behind) {mode : Mode} {rule : Rule}
    {m : RuleMatch} {category : Category} {set : CharClass} {p : Char → Bool}
    (rest : place.rest = some s) (covers : ∀ c, set.covers c = p c)
    (mem : rule ∈ fancyTable.rules mode)
    (form : rule.form = .whole category (.plus true (.one set)))
    (attempt : rule.attempt s = .matched m)
    (given : emission? place.offset s rule.action m.found = some step.tokens) :
    ∀ c ∈ behind.head?, p c = false := by
  obtain ⟨rfl, -, -, rest'⟩ := h.of_single (tokens_eq_of_plus_one covers mem form attempt given)
  exact head?_of_takeWhile_append (Option.some.inj (rest.symm.trans rest'))

/-- What a rule for whole numbers gives is a piece of a number. -/
theorem Gives.of_number (h : place.Gives step front t back behind) {rule : Rule} {m : RuleMatch}
    (top : place.stack.top = .root) (rest : place.rest = some s)
    (chosen : choose (fancyTable.rules .root) s = .rule rule m)
    (whole : ∃ category ∈ rule.action.categories, category ∈ wholeNumberCategories) :
    t.category ∈ wholeNumberCategories ∨
      (t.category = .whitespace ∧ ∀ c ∈ behind.head?, isBlank c = false) ∨
      (t.category = .operator ∧ back = [] ∧ place.EndsNumber step t) := by
  obtain ⟨number, after, parts, isNumber, pieces⟩ :=
    exists_pieces_of_choose top h.taken rest chosen whole
  obtain ⟨nonempty, earlier, later, offset, split, before, last⟩ :=
    exists_of_pieceTokens_eq (pieces.symm.trans h.tokens)
  rcases numberPieces_cases split with own | ⟨white, rfl, blanks⟩ | ⟨operator, mark, rfl⟩
  · rw [own]
    exact .inl (numberCategory_mem s)
  · -- behind the number stand its white space and what is behind the token
    have all := Option.some.inj (rest.symm.trans h.rest)
    rw [before, List.flatMap_singleton, List.append_assoc, parts, blanks] at all
    exact .inr (.inl ⟨white, head?_of_takeWhile_append (List.append_cancel_left all)⟩)
  · have one : t.text ∈ [['/'], ['?']] := by
      rcases slashAhead_cases (after.dropWhile isBlank) with ⟨none, -⟩ | ⟨c, mem, one, -⟩
      · exact absurd (mark.trans none) nonempty
      · rw [mark, one]
        simpa using mem
    rw [numberPieces, ← mark] at pieces
    exact .inr (.inr
      ⟨operator, last, one, _, numberCategory_mem s, number, _, isNumber.ne_nil, pieces⟩)

/-- What a rule chosen for ordinary source gives as white space has no white space behind it. -/
theorem Gives.not_isBlank_of_choose (h : place.Gives step front t back behind)
    (kind : t.category = .whitespace) {rule : Rule} {m : RuleMatch}
    (top : place.stack.top = .root) (rest : place.rest = some s)
    (chosen : choose (fancyTable.rules .root) s = .rule rule m)
    (listed : .whitespace ∈ rule.action.categories)
    (given : emission? place.offset s rule.action m.found = some step.tokens) :
    ∀ c ∈ behind.head?, isBlank c = false := by
  have checked : ∀ form ∈ rootForms, .whitespace ∈ form.action.categories →
      form = .whole .whitespace (.plus true (.one .blanks)) ∨
        ∃ category ∈ form.action.categories, category ∈ wholeNumberCategories := by
    decide +kernel
  obtain ⟨mem, attempt⟩ := mem_of_choose chosen
  rcases checked _ (form_mem_rootForms mem) listed with form | number
  · exact h.of_plus_one rest CharClass.covers_blanks mem form attempt given
  · rcases h.of_number top rest chosen number with own | ⟨-, ends⟩ | ⟨operator, -⟩
    · rw [kind] at own
      exact absurd own (by decide)
    · exact ends
    · rw [kind] at operator
      cases operator

/-- No white space stands behind white space, unless a line break has left the mode for regular
expressions. -/
theorem Gives.whitespace (h : place.Gives step front t back behind)
    (kind : t.category = .whitespace) :
    (∀ c ∈ behind.head?, isBlank c = false) ∨
      place.stack.top = .balancedRegex ∧ ∃ rest, place.rest = some ('\n' :: rest) ∧
        choose (fancyTable.rules .balancedRegex) ('\n' :: rest) = .nothing ∧
        step = place.recover '\n' rest := by
  have mem := h.mem
  obtain ⟨c, s, rest, ⟨nothing, rfl⟩ | ⟨rule, m, tokens, chosen, given, rfl⟩⟩ :=
    step?_eq_some_iff.1 h.taken
  · right
    obtain rfl : c = '\n' := by
      by_contra other
      rw [recover, if_neg other, List.mem_singleton] at mem
      rw [mem] at kind
      cases kind
    cases top : place.stack.top with
    | root =>
      rw [top] at nothing
      exact absurd (isBlank_of_choose nothing) (by decide)
    | balancedRegex =>
      rw [top] at nothing
      exact ⟨rfl, s, rest, nothing, rfl⟩
  · left
    have listed : Category.whitespace ∈ rule.action.categories := by
      rcases category_of_mem_emission? given t mem with text | listed
      · rw [kind] at text
        cases text
      · exact kind ▸ listed
    cases top : place.stack.top with
    | root =>
      rw [top] at chosen
      exact h.not_isBlank_of_choose kind top rest chosen listed given
    | balancedRegex =>
      have memRule := (mem_of_choose chosen).1
      rw [top] at memRule
      rw [(of_mem_rules_balancedRegex memRule).1] at listed
      cases List.mem_singleton.1 listed

/-- No operator but a sigil stands behind an operator, unless the first one is a sigil or is taken
with a number. -/
theorem Gives.operator (h : place.Gives step front t back behind) (kind : t.category = .operator) :
    (∀ c ∈ behind.head?, c ∉ operatorChars) ∨ IsSigil t.text ∨
      back = [] ∧ place.EndsNumber step t := by
  have checked : ∀ form ∈ rootForms, .operator ∈ form.action.categories →
      form = .whole .operator (.plus true (.oneOf operatorChars)) ∨
        form = .whole .operator (.seq (.char '@') (.maybe (.char '@'))) ∨
          ∃ category ∈ form.action.categories, category ∈ wholeNumberCategories := by
    decide +kernel
  obtain ⟨top, rule, m, chosen, listed, given⟩ :=
    exists_rule_of_mem_step h.taken h.rest h.mem (by rw [kind]; decide)
  obtain ⟨memRule, attempt⟩ := mem_of_choose chosen
  rw [kind] at listed
  rcases checked _ (form_mem_rootForms memRule) listed with form | form | number
  · have ends := h.of_plus_one h.rest (CharClass.covers_ofChars_false operatorChars) memRule form
      attempt given
    exact .inl fun c head => of_decide_eq_false (ends c head)
  · right
    left
    obtain ⟨w, rest, eq, -, -, fits, takes⟩ :=
      Rule.fits_of_attempt (fancyTable_anchored _ rule memRule) attempt
    have action : rule.action = .whole .operator := congrArg Form.action form
    have pattern := congrArg Form.pattern form
    change rule.pattern = _ at pattern
    rw [eq, action, emission?_whole _ fits] at given
    rw [(h.of_single (Option.some.inj given).symm).1]
    rw [pattern] at takes
    exact takes.of_textStart_seq.isSigil
  · right
    right
    rcases h.of_number top h.rest chosen number with own | ⟨white, -⟩ | ⟨-, taken⟩
    · rw [kind] at own
      exact absurd own (by decide)
    · rw [kind] at white
      cases white
    · exact taken

/-- No character of a name stands behind a word. -/
theorem Gives.word (h : place.Gives step front t back behind)
    (kind : t.category ∈ wordCategories) (start : t.text.head?.any isNameStart = true) :
    ∀ c ∈ behind.head?, isNamePart c = false := by
  have apart : ∀ category ∈ wordCategories,
      category ∉ [Category.whitespace, .error, .text, .regex] := by
    decide
  obtain ⟨-, rule, m, chosen, listed, given⟩ :=
    exists_rule_of_mem_step h.taken h.rest h.mem (apart _ kind)
  have action := (word_of_mem_categories (mem_of_choose chosen).1 listed kind).2
  rw [action] at given
  obtain ⟨w, -, given⟩ := Option.bind_eq_some_iff.1 given
  obtain ⟨-, -, -, rest⟩ := h.of_single (Option.some.inj given).symm
  have word := word_of_mem_step h.taken rest h.mem kind start
  have text : t.text = (classifyWord (t.text ++ behind)).2 := congrArg Token.text word
  have own : t.category = (classifyWord (t.text ++ behind)).1 := congrArg Token.category word
  apply head?_of_takeWhile_append
  rw [← classifyWord_eq_takeWhile (own ▸ kind), ← text]

end Scan

/-! ## Neighbours -/

/-- The token is a word: a name, a word for a value or a class, or a keyword that is none of the
arrows. -/
def Token.IsWord (t : Token) : Prop :=
  t.category ∈ wordCategories ∧ (t.category = .keyword → FancyTokens.IsWord t.text)

theorem isNameStart_of_mem_reserved {names : List String}
    (listed : names ∈ [keywordNames, constantNames, builtinNames])
    (mem : w ∈ names.map String.toList) : w.head?.any isNameStart = true := by
  cases reserved : reservedCategory? w with
  | none => exact absurd mem (notMem_of_not_reserved reserved names listed)
  | some category => exact isNameStart_of_reserved reserved

theorem IsName.isNameStart {first : Char → Bool} (h : IsName first w)
    (starts : ∀ c, first c = true → isNameStart c = true) : w.head?.any isNameStart = true := by
  obtain ⟨c, part, rfl, covered, -⟩ := h
  exact starts c covered

/-- A word begins as a name does. -/
theorem Token.IsWord.isNameStart (h : t.IsWord) (fits : t.category.Fits t.text behind) :
    t.text.head?.any isNameStart = true := by
  obtain ⟨kind, arrow⟩ := h
  have letter {c : Char} (letter : c.isAlpha = true) : FancyTokens.isNameStart c = true := by
    rw [FancyTokens.isNameStart, letter, Bool.true_or]
  have upper (c : Char) (upper : c.isUpper = true) : FancyTokens.isNameStart c = true :=
    letter (by rw [CharClass.isAlpha_eq, upper, Bool.or_true])
  have lower (c : Char) (lower : (c.isLower || c = '_') = true) :
      FancyTokens.isNameStart c = true := by
    rw [FancyTokens.isNameStart, CharClass.isAlpha_eq, Bool.or_right_comm, lower, Bool.true_or]
  simp only [wordCategories, List.mem_cons, List.not_mem_nil, or_false] at kind
  obtain keyword | constant | builtin | name := kind
  · rw [keyword] at fits
    rcases fits with mem | text | text
    · exact isNameStart_of_mem_reserved (by simp) mem
    all_goals
      have none : ¬ FancyTokens.IsWord t.text := by
        rw [text]
        decide
      exact absurd (arrow keyword) none
  · rw [constant] at fits
    rcases fits with mem | name
    · exact isNameStart_of_mem_reserved (by simp) mem
    · exact name.isNameStart upper
  · rw [builtin] at fits
    have listed : builtinNames ∈ [keywordNames, constantNames, builtinNames] := by simp
    exact isNameStart_of_mem_reserved listed fits
  · rw [name] at fits
    exact fits.isNameStart lower

/-- The token is a line break that no rule takes, at which the scan leaves the mode for regular
expressions right behind the earlier tokens. -/
def LeavesRegex (source : List Char) (earlier : List Token) (t : Token) : Prop :=
  ∃ done place rest, Scan.Run fancyTable (.start source) done place ∧
    earlier = done.flatMap (·.tokens) ∧ place.stack = .inRegex ∧ place.rest = some ('\n' :: rest) ∧
    choose (fancyTable.rules .balancedRegex) ('\n' :: rest) = .nothing ∧
    t = .ofText .whitespace place.offset ['\n'] ∧
    place.step? fancyTable = some ⟨[t], [.reset place.offset .balancedRegex],
      ⟨place.offset + 1, .base, some rest⟩⟩

/-- The token is the slash or question mark that a step has taken with a number, right behind the
earlier tokens. -/
def EndsNumber (source : List Char) (earlier : List Token) (t : Token) : Prop :=
  ∃ done place step front, Scan.Run fancyTable (.start source) done place ∧
    earlier = done.flatMap (·.tokens) ++ front ∧ place.step? fancyTable = some step ∧
    step.tokens = front ++ [t] ∧ place.EndsNumber step t

variable {source : List Char}

/-- White space has none behind it, or the scan has left the mode for regular expressions there. -/
theorem leavesRegex_or (eq : tokenize source = earlier ++ t :: later)
    (kind : t.category = .whitespace) :
    LeavesRegex source earlier t ∨ ∀ c ∈ (detokenize later).head?, isBlank c = false := by
  obtain ⟨done, place, step, front, back, run, rfl, gives⟩ := Scan.exists_gives eq
  rcases gives.whitespace kind with ends | ⟨top, rest, rest_eq, nothing, rfl⟩
  · exact .inr ends
  · left
    have inside : place.stack = .inRegex := by
      rcases run.stack_eq with outermost | ⟨inside, -⟩
      · rw [outermost] at top
        cases top
      · exact inside
    have step : place.recover '\n' rest = ⟨[.ofText .whitespace place.offset ['\n']],
        [.reset place.offset .balancedRegex], ⟨place.offset + 1, .base, some rest⟩⟩ := by
      rw [Scan.recover, inside]
      rfl
    have taken := gives.taken
    rw [step] at gives taken
    obtain ⟨rfl, rfl, -, -⟩ := gives.of_single rfl
    exact ⟨done, place, rest, run, List.append_nil _, inside, rest_eq, nothing, rfl, taken⟩

/-- An operator has none behind it, or is a sigil or taken with a number. -/
theorem endsNumber_or (eq : tokenize source = earlier ++ t :: later)
    (kind : t.category = .operator) :
    EndsNumber source earlier t ∨ IsSigil t.text ∨
      ∀ c ∈ (detokenize later).head?, c ∉ operatorChars := by
  obtain ⟨done, place, step, front, back, run, rfl, gives⟩ := Scan.exists_gives eq
  rcases gives.operator kind with ends | sigil | ⟨rfl, number⟩
  · exact .inr (.inr ends)
  · exact .inr (.inl sigil)
  · exact .inl ⟨done, place, step, front, run, rfl, gives.taken, gives.tokens, number⟩

/-- A word has no character of a name behind it. -/
theorem not_isNamePart_of_isWord (eq : tokenize source = earlier ++ t :: later) (word : t.IsWord) :
    ∀ c ∈ (detokenize later).head?, isNamePart c = false := by
  have mem : t ∈ tokenize source := by simp [eq]
  obtain ⟨-, behind, -, -, fits⟩ := (Scan.behind_start source).fits_of_mem_tokens t mem
  obtain ⟨done, place, step, front, back, run, rfl, gives⟩ := Scan.exists_gives eq
  exact gives.word word.1 (word.isNameStart fits)

/-- Two tokens for white space stand side by side only where the first one is a line break at which
the scan has left the mode for regular expressions, two operators only where the first one has been
taken with a number or one of them is a sigil, and two words never. Apart from these cases white
space, operators and words end where no character of their kind follows. -/
theorem runs_are_one_token (eq : tokenize source = earlier ++ t :: u :: later) :
    (t.category = .whitespace →
      LeavesRegex source earlier t ∨ ∀ c ∈ u.text.head?, isBlank c = false) ∧
    (t.category = .operator → EndsNumber source earlier t ∨ IsSigil t.text ∨
      ∀ c ∈ u.text.head?, c ∉ operatorChars) ∧
    (t.IsWord → ∀ c ∈ u.text.head?, isNamePart c = false) ∧
    (t.category = .whitespace → u.category = .whitespace → LeavesRegex source earlier t) ∧
    (t.category = .operator → u.category = .operator →
      EndsNumber source earlier t ∨ IsSigil t.text ∨ IsSigil u.text) ∧
    ¬ (t.IsWord ∧ u.IsWord) := by
  have mem : u ∈ tokenize source := by simp [eq]
  obtain ⟨-, behind, -, -, fits⟩ := (Scan.behind_start source).fits_of_mem_tokens u mem
  have tiling := ((Scan.behind_start source).tiling_tokens fancyTable_anchored).1
  -- the text of the second token begins with what stands behind the first one
  obtain ⟨d, v, text⟩ := List.exists_cons_of_ne_nil (tiling.stop_eq u mem).1
  have head : (detokenize (u :: later)).head? = u.text.head? := by
    rw [detokenize_cons, text]
    rfl
  have first : d ∈ u.text.head? := by
    rw [text]
    rfl
  have white := leavesRegex_or eq
  have operator := endsNumber_or eq
  have word := not_isNamePart_of_isWord eq
  rw [head] at white operator word
  refine ⟨white, operator, word, fun kind kind' => ?_, fun kind kind' => ?_, ?_⟩
  · rw [kind'] at fits
    refine (white kind).resolve_right fun ends => ?_
    have blank := fits.2 d (List.mem_of_mem_head? first)
    rw [ends d first] at blank
    cases blank
  · rw [kind'] at fits
    rcases operator kind with number | sigil | ends
    · exact .inl number
    · exact .inr (.inl sigil)
    · rcases fits with ⟨-, all⟩ | sigil
      · exact absurd (all d (List.mem_of_mem_head? first)) (ends d first)
      · exact .inr (.inr (by simpa [IsSigil] using sigil))
  · rintro ⟨wordT, wordU⟩
    have start := wordU.isNameStart fits
    rw [text] at start
    have part := isNamePart_of_isNameStart start
    rw [word wordT d first] at part
    cases part

/-- The slash behind a number does not go together with the plus sign behind it. -/
theorem runs_are_one_token_division : ∃ u : Token, u.text = ['+'] ∧
    tokenize ['1', '/', '+'] = [.ofText .integer 0 ['1'], .ofText .operator 1 ['/'], u] ∧
    EndsNumber ['1', '/', '+'] [.ofText .integer 0 ['1']] (.ofText .operator 1 ['/']) := by
  have integer : numberCategory ['1', '/', '+'] = .integer := by decide +kernel
  have one : (numberCategory ['1', '/', '+']).IsNumber ['1'] := by
    rw [integer]
    exact ⟨[], by decide, ['1'], rfl, ['1'], [], rfl,
      ⟨by decide, List.all_eq_true.1 (by decide)⟩, by simp⟩
  have ends : EndsGrouped (numberCategory ['1', '/', '+']).isNumberDigit ['/', '+'] := by
    rw [integer]
    refine ⟨?_, by simp⟩
    rintro _ ⟨⟩
    decide
  have top : (Scan.start ['1', '/', '+']).stack.top = .root := rfl
  have parts : ['1', '/', '+'] = ['1'] ++ ['/', '+'] := rfl
  obtain ⟨step, taken, tokens⟩ := Scan.exists_step_of_isNumber top rfl (by decide) parts one ends
  rw [integer] at tokens
  have first : step.tokens = [.ofText .integer 0 ['1'], .ofText .operator 1 ['/']] := tokens
  obtain ⟨step', w, rest, taken', eq, -, tiling, next⟩ :=
    (Scan.behind_start ['1', '/', '+']).exists_step fancyTable_anchored
  obtain rfl : step = step' := Option.some.inj (taken.symm.trans taken')
  -- behind the number and the slash there is one character, for one more token
  have text := tiling.detokenize_eq
  rw [first] at text
  obtain rfl : ['1', '/'] = w := text
  obtain rfl : ['+'] = rest := by simpa using eq
  obtain ⟨category, last⟩ := (next.tiling_tokens fancyTable_anchored).1.exists_eq_singleton
  have all := Scan.tokens_of_step?_eq_some taken
  rw [first, last] at all
  have split : tokenize ['1', '/', '+'] = [.ofText .integer 0 ['1']] ++
      .ofText .operator 1 ['/'] :: .ofText category 2 ['+'] :: [] := all
  refine ⟨.ofText category 2 ['+'], rfl, split, ?_⟩
  rcases (runs_are_one_token split).2.1 rfl with number | sigil | ends
  · exact number
  · simp [IsSigil, Token.ofText] at sigil
  · exact absurd (by decide) (ends '+' rfl)

end FancyTokens
