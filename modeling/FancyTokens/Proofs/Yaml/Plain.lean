import FancyTokens.Proofs.Yaml.Reader

/-!
# Texts that stand for themselves

A text may be written without quotation marks if it `StandsPlain`: nothing in it is taken for a
mark, a key or a comment (`IsUnmarked`), and it is no form of nothing, a truth value or a number.
Such a text is read as itself (`IsUnmarked.readPlain?_eq`, `StandsPlain.resolve_eq`), and every text
of plain style is one (`standsPlain_of_style`).
-/

namespace FancyTokens
namespace Yaml

variable {s t : List Char} {c d : Char}

/-! ## Condition -/

/-- Nothing in the text is taken for a mark, a key or a comment. -/
structure IsUnmarked (s : List Char) : Prop where
  ne_nil : s ≠ []
  noIndicator : ∀ c ∈ s.head?, isIndicator c = false
  noMark : ∀ c rest, s = c :: rest → isMark c = true → ∃ d ∈ rest.head?, isWhite d = false
  noBlankStart : ∀ c ∈ s.head?, isWhite c = false
  noBlankEnd : ∀ c ∈ s.getLast?, isWhite c = false
  noColonEnd : s.getLast? ≠ some ':'
  noBreak : ∀ c ∈ s, isBreak c = false
  noKey : ∀ c, isWhite c = true → ¬ [':', c] <:+: s
  noComment : ∀ c, isWhite c = true → ¬ [c, '#'] <:+: s

/-- The text can stand plain in the line of a field: it is no form of anything else. -/
structure StandsPlain (s : List Char) : Prop extends IsUnmarked s where
  notNull : isWord nullWords s = false
  notTruth : isWord booleanWords s = false
  notSpecial : isWord specialNumberWords s = false
  notInteger : isInteger s = false
  notNumber : isFiniteNumber s = false

theorem isGap_eq_false (white : isWhite c = false) (break_ : isBreak c = false) :
    isGap (some c) = false := by
  simp only [isWhite, Bool.or_eq_false_iff, decide_eq_false_iff_not] at white
  simp [isGap, white.1, white.2, break_]

theorem isGap_of_isWhite (white : isWhite c = true) : isGap (some c) = true := by
  simp only [isWhite, Bool.or_eq_true, decide_eq_true_eq] at white
  rcases white with rfl | rfl <;> rfl

/-! ## Reading -/

/-- A line without comment is not cut. -/
theorem cutComment_eq_self (h : ∀ c, isWhite c = true → ¬ [c, '#'] <:+: s) :
    cutComment s = s := by
  induction s with
  | nil => rfl
  | cons c s ih =>
    have later : ∀ d, isWhite d = true → ¬ [d, '#'] <:+: s := by
      intro d white inside
      exact h d white (inside.trans (List.suffix_cons c s).isInfix)
    have here : ¬ (isWhite c && s.head? == some '#') = true := by
      intro both
      simp only [Bool.and_eq_true, beq_iff_eq] at both
      obtain ⟨rest, rfl⟩ := List.head?_eq_some_iff.1 both.2
      exact h c both.1 ⟨[], rest, rfl⟩
    rw [cutComment, if_neg here, ih later]

/-- No colon stands before white space or at the end. -/
theorem hasKey_eq_false (breaks : ∀ c ∈ s, isBreak c = false) (last : s.getLast? ≠ some ':')
    (h : ∀ c, isWhite c = true → ¬ [':', c] <:+: s) : hasKey s = false := by
  induction s with
  | nil => rfl
  | cons c s ih =>
    have here : (c = ':' && isGap s.head?) = false := by
      by_contra both
      simp only [Bool.and_eq_false_iff, not_or, Bool.not_eq_false, decide_eq_true_eq] at both
      obtain ⟨rfl, gap⟩ := both
      cases s with
      | nil => exact last rfl
      | cons d s =>
        -- no breaks are left, so the gap can only be white space
        have white : isWhite d = true := by
          by_contra dark
          have closed := isGap_eq_false (Bool.not_eq_true _ ▸ dark) (breaks d (by simp))
          rw [List.head?_cons, closed] at gap
          cases gap
        exact h d white ⟨[], s, rfl⟩
    have later : hasKey s = false := by
      apply ih
      · exact fun d mem => breaks d (List.mem_cons_of_mem c mem)
      · intro ends
        rw [List.getLast?_cons, ends] at last
        exact last rfl
      · exact fun d white inside => h d white (inside.trans (List.suffix_cons c s).isInfix)
    rw [hasKey, here, later]
    rfl

theorem IsUnmarked.startsPlain_eq (h : IsUnmarked s) : startsPlain s = true := by
  obtain ⟨c, rest, rfl⟩ := List.exists_cons_of_ne_nil h.ne_nil
  have gap : isGap (some c) = false := isGap_eq_false (h.noBlankStart c rfl) (h.noBreak c (by simp))
  have indicator : isIndicator c = false := h.noIndicator c rfl
  have mark : (isMark c && isGap rest.head?) = false := by
    by_cases marked : isMark c = true
    · obtain ⟨d, first, dark⟩ := h.noMark c rest rfl marked
      have mem : d ∈ c :: rest := List.mem_cons_of_mem c (List.mem_of_head? first)
      rw [show rest.head? = some d from first, isGap_eq_false dark (h.noBreak d mem),
        Bool.and_false]
    · rw [Bool.not_eq_true] at marked
      rw [marked, Bool.false_and]
  rw [startsPlain, gap, indicator, mark]
  rfl

/-- A text without marks is read as what it stands for. -/
theorem IsUnmarked.readPlain?_eq (h : IsUnmarked s) : readPlain? s = some (resolve s) := by
  have cut : cutComment s = s := cutComment_eq_self h.noComment
  have trimmed : s.rdropWhile isWhite = s := by
    rw [List.rdropWhile_eq_self_iff]
    intro nonempty white
    have last := h.noBlankEnd _ (List.getLast?_eq_some_getLast nonempty)
    rw [white] at last
    cases last
  have key : hasKey s = false := hasKey_eq_false h.noBreak h.noColonEnd h.noKey
  rw [readPlain?, cut, trimmed, h.startsPlain_eq, key]
  rfl

/-- A text that is none of the forms of other things stands for itself. -/
theorem StandsPlain.resolve_eq (h : StandsPlain s) : resolve s = .text s := by
  simp [resolve, h.notNull, h.notTruth, h.notSpecial, h.notInteger, h.notNumber]

/-! ## Plain style -/

theorem isWord_append (words words' : List String) (s : List Char) :
    isWord (words ++ words') s = (isWord words s || isWord words' s) :=
  List.any_append

/-- A text that is mistaken for nothing else is none of the forms. -/
theorem forms_of_isMistakable (h : isMistakable s = false) :
    isWord nullWords s = false ∧ isWord booleanWords s = false ∧
      isWord specialNumberWords s = false ∧ isInteger s = false ∧ isFiniteNumber s = false := by
  have forms : (isWord (nullWords ++ booleanWords ++ specialNumberWords) s || isZeroLed s ||
      isInteger s || isFiniteNumber s) = false := h
  simp only [isWord_append, Bool.or_eq_false_iff] at forms
  obtain ⟨⟨⟨⟨⟨null, truth⟩, special⟩, -⟩, integer⟩, number⟩ := forms
  exact ⟨null, truth, special, integer, number⟩

theorem isOrdinary_tab : isOrdinary '\t' = false := by decide

theorem isWhite_eq_false (ordinary : isOrdinary c = true) (space : c ≠ ' ') :
    isWhite c = false := by
  have tab : c ≠ '\t' := ne_of_class ordinary isOrdinary_tab
  simp [isWhite, space, tab]

/-- What is wrong at the end of a text is wrong with the text. -/
theorem hasInnerIndicator_of_suffix (suffix : t <:+ s) (h : hasInnerIndicator s = false) :
    hasInnerIndicator t = false := by
  obtain ⟨u, rfl⟩ := suffix
  induction u with
  | nil => exact h
  | cons c u ih =>
    apply ih
    cases rest : u ++ t with
    | nil => rfl
    | cons d v =>
      rw [List.cons_append, rest, hasInnerIndicator, Bool.or_eq_false_iff] at h
      exact h.2

/-- A colon in a text of plain style stands before another visible character. -/
theorem isGap_of_colon {u v : List Char} (leading : hasLeadingIndicator (u ++ ':' :: v) = false)
    (inner : hasInnerIndicator (u ++ ':' :: v) = false) : isGap v.head? = false := by
  rcases u.eq_nil_or_concat with rfl | ⟨u, c, rfl⟩
  · rw [List.nil_append, hasLeadingIndicator] at leading
    simp only [Bool.or_eq_false_iff] at leading
    simpa using leading.1.1.2
  · have behind : hasInnerIndicator (c :: ':' :: v) = false :=
      hasInnerIndicator_of_suffix ⟨u, by simp⟩ inner
    rw [hasInnerIndicator] at behind
    simp only [Bool.or_eq_false_iff] at behind
    simpa using behind.1.1

theorem exists_of_isGap {o : Option Char} (h : isGap o = false) : ∃ d ∈ o, isWhite d = false := by
  cases o with
  | none => cases h
  | some d =>
    refine ⟨d, rfl, ?_⟩
    by_contra white
    rw [isGap_of_isWhite (Bool.not_eq_false _ ▸ white)] at h
    cases h

/-- A text of plain style can stand plain. -/
theorem standsPlain_of_style (plain : style s = .plain) : StandsPlain s := by
  have both : allowsPlain s = true ∧ isMistakable s = false := by
    unfold style at plain
    split_ifs at plain with newline block allowed
    simpa using allowed
  obtain ⟨allowed, mistakable⟩ := both
  obtain ⟨null, truth, special, integer, number⟩ := forms_of_isMistakable mistakable
  simp only [allowsPlain, Bool.and_eq_true, List.all_eq_true, Bool.not_eq_true',
    List.any_eq_false] at allowed
  obtain ⟨⟨⟨⟨ordinary, breaks⟩, loose⟩, leading⟩, inner⟩ := allowed
  simp only [hasLooseEnd, Bool.or_eq_false_iff, Option.any_eq_false,
    decide_eq_false_iff_not] at loose
  -- what is left is `IsUnmarked`, each part of it from the test that looks for the opposite
  refine ⟨⟨?_, ?_, ?_, ?_, ?_, ?_, ?_, ?_, ?_⟩, null, truth, special, integer, number⟩
  · rintro rfl
    exact absurd null (by decide)
  · intro c first
    obtain ⟨rest, rfl⟩ := List.head?_eq_some_iff.1 first
    simp only [hasLeadingIndicator, Bool.or_eq_false_iff] at leading
    exact leading.1.1.1
  · rintro c rest rfl marked
    have mark : (isMark c && isGap rest.head?) = false := by
      simp only [hasLeadingIndicator, Bool.or_eq_false_iff] at leading
      exact leading.1.1.2
    rw [marked, Bool.true_and] at mark
    exact exists_of_isGap mark
  · exact fun c first => isWhite_eq_false (ordinary c (List.mem_of_head? first)) (loose.1 c first).1
  · exact fun c last => isWhite_eq_false (ordinary c (List.mem_of_getLast? last)) (loose.2 c last).1
  · intro ends
    obtain ⟨u, rfl⟩ := List.getLast?_eq_some_iff.1 ends
    cases isGap_of_colon leading inner
  · exact fun c mem => Bool.not_eq_true _ ▸ breaks c mem
  · rintro c white ⟨u, v, rfl⟩
    have closed : isGap (some c) = false := by
      simp only [List.append_assoc, List.cons_append, List.nil_append] at leading inner
      exact isGap_of_colon leading inner
    rw [isGap_of_isWhite white] at closed
    cases closed
  · rintro c white ⟨u, v, rfl⟩
    have behind : hasInnerIndicator (c :: '#' :: v) = false :=
      hasInnerIndicator_of_suffix ⟨u, by simp⟩ inner
    simp [hasInnerIndicator, isGap_of_isWhite white] at behind

end Yaml
end FancyTokens
