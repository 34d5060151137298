import FancyTokens.Proofs.Grammar.Words
import FancyTokens.Proofs.Regex.Preference
import Mathlib.Data.List.TakeWhile

/-!
# Escaped texts up to their end

A text behind an opening delimiter is read in units (`units`): a backslash with the character behind
it, or one character alone. What closes the text is a row of units, and of several such rows the
first one counts. `Delimiters` say what opens and closes a text and what may stand behind it,
`Delimiters.Closed` that a text is closed at all, and `Delimiters.Ends` where.

The expressions for such texts have one alternative for each kind of unit, so that no way of
matching reads a unit in two pieces or takes a delimiter for a unit. They therefore take nothing but
closed texts, and prefer them up to the first end (`Regex.encloses_escaped`,
`Regex.encloses_lazy`).
-/

namespace FancyTokens

/-! ## Units -/

/-- A text in units. -/
def units : List Char → List (List Char)
  | '\\' :: c :: s => ['\\', c] :: units s
  | c :: s => [c] :: units s
  | [] => []

variable {s t w : List Char} {us vs : List (List Char)} {c closer : Char} {stops : List Char}

theorem units_escape (c : Char) (s : List Char) : units ('\\' :: c :: s) = ['\\', c] :: units s :=
  rfl

theorem units_plain (plain : c ≠ '\\') (s : List Char) : units (c :: s) = [c] :: units s := by
  rw [units]
  rintro d s' rfl
  exact absurd rfl plain

theorem flatten_units (s : List Char) : (units s).flatten = s := by
  fun_induction units s with
  | case1 c s ih => rw [List.flatten_cons, ih]; rfl
  | case2 c s _ ih => rw [List.flatten_cons, ih]; rfl
  | case3 => rfl

/-- Of a row of whole units the first ones are the units of the text that they make up. -/
theorem units_append (whole : ∀ u ∈ us, IsEscapedUnit ['\\'] u) (s : List Char) :
    units (us.flatten ++ s) = us ++ units s := by
  induction us with
  | nil => rfl
  | cons u us ih =>
    obtain ⟨first, others⟩ := List.forall_mem_cons.1 whole
    rw [List.flatten_cons, List.append_assoc, List.cons_append, ← ih others]
    cases first with
    | escaped c => rfl
    | plain other => exact units_plain (by simpa using other) _

/-- The units before another one are whole: only the last one may be a backslash alone. -/
theorem isEscapedUnit_of_units (eq : units s = us ++ vs) (more : vs ≠ []) :
    ∀ u ∈ us, IsEscapedUnit ['\\'] u := by
  induction us generalizing s with
  | nil => exact List.forall_mem_nil _
  | cons u us ih =>
    rw [List.cons_append] at eq
    fun_cases units s with
    | case1 c s =>
      rw [units_escape, List.cons.injEq] at eq
      exact List.forall_mem_cons.2 ⟨eq.1 ▸ .escaped c, ih eq.2⟩
    | case2 c s alone =>
      by_cases backslash : c = '\\'
      · -- a backslash with a character behind it would be a unit with it
        subst backslash
        cases s with
        | nil =>
          have last : us ++ vs = [] := (List.cons.inj eq).2.symm
          exact absurd (List.append_eq_nil_iff.1 last).2 more
        | cons d s => exact absurd rfl (alone d s rfl)
      · rw [units_plain backslash, List.cons.injEq] at eq
        exact List.forall_mem_cons.2 ⟨eq.1 ▸ .plain (by simpa using backslash), ih eq.2⟩
    | case3 => cases eq

theorem IsEscapedUnit.whole {u : List Char} (backslash : '\\' ∈ stops) (h : IsEscapedUnit stops u) :
    IsEscapedUnit ['\\'] u := by
  cases h with
  | escaped c => exact .escaped c
  | plain other =>
    refine .plain fun mem => other ?_
    rwa [List.mem_singleton.1 mem]

/-- A whole unit that is none of the stops stands between them. -/
theorem IsEscapedUnit.of_notMem {u : List Char} (h : IsEscapedUnit ['\\'] u)
    (other : ∀ c ∈ stops, u ≠ [c]) : IsEscapedUnit stops u := by
  cases h with
  | escaped c => exact .escaped c
  | @plain c _ => exact .plain fun mem => other c mem rfl

/-! ## The first occurrence -/

/-- Of the places where some elements stand in a list there is a first one. -/
theorem exists_first_infix {α : Type} {sought l : List α} (nonempty : sought ≠ [])
    (h : sought <:+: l) :
    ∃ before behind, l = before ++ sought ++ behind ∧ ¬ sought <:+: before ++ sought.dropLast := by
  classical
  induction l with
  | nil => exact absurd (List.infix_nil.1 h) nonempty
  | cons a l ih =>
    by_cases here : sought <+: a :: l
    · obtain ⟨behind, eq⟩ := here
      refine ⟨[], behind, eq.symm, fun again => ?_⟩
      have shorter := again.length_le
      have pos := List.length_pos_iff.2 nonempty
      rw [List.nil_append, List.length_dropLast] at shorter
      omega
    · have later : sought <:+: l := (List.infix_cons_iff.1 h).resolve_left here
      obtain ⟨before, behind, eq, first⟩ := ih later
      refine ⟨a :: before, behind, by rw [eq]; rfl, fun again => ?_⟩
      rcases List.infix_cons_iff.1 again with start | later
      · -- the elements would stand at the start of the list too
        have beginning : before ++ sought.dropLast <+: l := by
          obtain ⟨last, parts⟩ : sought.dropLast <+: sought := List.dropLast_prefix sought
          refine ⟨last ++ behind, ?_⟩
          rw [eq, ← List.append_assoc, List.append_assoc before, parts]
        exact here (start.trans (List.cons_prefix_cons.2 ⟨rfl, beginning⟩))
      · exact first later

/-- Before its first place a list does not stand anywhere. -/
theorem not_prefix_of_first {α : Type} {sought done more rest : List α} {a : α}
    (first : ¬ sought <:+: done ++ a :: more ++ sought.dropLast) :
    ¬ sought <+: a :: more ++ sought ++ rest := by
  intro here
  have beginning : a :: more ++ sought.dropLast <+: a :: more ++ sought ++ rest := by
    rw [List.append_assoc, List.prefix_append_right_inj]
    exact (List.dropLast_prefix _).trans (List.prefix_append _ _)
  have early : sought <+: a :: more ++ sought.dropLast := by
    apply List.prefix_of_prefix_length_le here beginning
    rw [List.length_append, List.length_cons, List.length_dropLast]
    omega
  obtain ⟨behind, parts⟩ := early
  refine first ⟨done, behind, ?_⟩
  rw [List.append_assoc, parts, List.append_assoc]

/-! ## Delimiters -/

/-- What stands around an escaped text. -/
structure Delimiters where
  /-- The texts that open it. -/
  openers : List (List Char)
  /-- The units that close it. -/
  closing : List (List Char)
  /-- Units that must not come before those that close it. -/
  barred : List (List Char) := []
  /-- The characters that may stand behind it. -/
  tail : Char → Bool := fun _ => false

namespace Delimiters

variable (d : Delimiters)

/-- Behind the opener, the closing units come, and no barred unit before them. -/
def ClosedBehind (t : List Char) : Prop :=
  d.closing <:+: (units t).takeWhile (!d.barred.contains ·)

/-- Behind the opener, the text `w` goes up to the first closing units, with all characters of the
tail that stand behind these. -/
def EndsBehind (t w : List Char) : Prop :=
  ∃ us vs, units t = us ++ d.closing ++ vs ∧ (∀ u ∈ us, u ∉ d.barred) ∧
    ¬ d.closing <:+: us ++ d.closing.dropLast ∧
    w = us.flatten ++ d.closing.flatten ++ vs.flatten.takeWhile d.tail

/-- A text is opened and closed. -/
def Closed (s : List Char) : Prop :=
  ∃ opener ∈ d.openers, ∃ t, s = opener ++ t ∧ d.ClosedBehind t

/-- A text is opened, and `w` is all of it up to its end. -/
def Ends (s w : List Char) : Prop :=
  ∃ opener ∈ d.openers, ∃ t v, s = opener ++ t ∧ d.EndsBehind t v ∧ w = opener ++ v

variable {d}

theorem ClosedBehind.exists_ends (nonempty : d.closing ≠ []) (h : d.ClosedBehind t) :
    ∃ v, d.EndsBehind t v := by
  obtain ⟨us, vs, eq, first⟩ := exists_first_infix nonempty h
  have parts := List.takeWhile_append_dropWhile (p := (!d.barred.contains ·)) (l := units t)
  rw [eq, List.append_assoc] at parts
  refine ⟨_, us, _, parts.symm, fun u mem => ?_, first, rfl⟩
  have inside : u ∈ (units t).takeWhile (!d.barred.contains ·) := by
    rw [eq]
    simp [mem]
  simpa using List.mem_takeWhile_imp inside

/-- A closed text has an end. -/
theorem Closed.exists_ends (nonempty : d.closing ≠ []) (h : d.Closed s) : ∃ w, d.Ends s w := by
  obtain ⟨opener, mem, t, eq, closed⟩ := h
  obtain ⟨v, ends⟩ := closed.exists_ends nonempty
  exact ⟨opener ++ v, opener, mem, t, v, eq, ends, rfl⟩

end Delimiters

/-! ## Expressions -/

namespace Regex

/-- Behind the opener the expression takes nothing but closed texts, and prefers them up to their
end. -/
structure Encloses (r : Regex) (d : Delimiters) : Prop where
  closed : ∀ {before w behind}, Takes r before w behind → d.ClosedBehind (w ++ behind)
  prefers : ∀ before {t w}, d.EndsBehind t w → ∃ rest, t = w ++ rest ∧ Prefers r before w rest

/-- At the start of a text the expression takes nothing but texts that are opened and closed, and
prefers them up to their end. -/
structure Delimits (r : Regex) (d : Delimiters) : Prop where
  closed : ∀ {w behind}, Takes r none w behind → d.Closed (w ++ behind)
  prefers : ∀ {s w}, d.Ends s w → ∃ rest, s = w ++ rest ∧ Prefers r none w rest

variable {before : Option Char} {behind : List Char}

/-! ### Units -/

theorem Takes.head_of_escapedUnit {u : List Char} (h : Takes (escapedUnit stops) before u behind) :
    ∃ c v, u = c :: v ∧ (c = '\\' ∨ c ∉ stops) := by
  cases h.isEscapedUnit with
  | escaped c => exact ⟨_, _, rfl, Or.inl rfl⟩
  | plain other => exact ⟨_, _, rfl, Or.inr other⟩

/-- Each unit is read in one way only. -/
theorem prefers_escapedUnit (backslash : '\\' ∈ stops) {u : List Char}
    (h : IsEscapedUnit stops u) : Prefers (escapedUnit stops) before u behind := by
  have no_pair {c d : Char} {s : List Char} (other : c ≠ '\\' ∨ d ≠ '\\') :
      Misses (.seq (.char '\\') (.char '\\')) before (c :: d :: s) := by
    intro u v eq takes
    cases takes with
    | seq first second =>
      rw [first.of_char, second.of_char] at eq
      cases eq
      simp at other
  cases h with
  | escaped c =>
    by_cases again : c = '\\'
    · rw [again]
      exact .altLeft (.char_seq (prefers_char '\\'))
    · refine .altRight (no_pair (Or.inr again)) (.altLeft (.char_seq (prefers_one ?_)))
      simp [CharClass.covers_ofChars, again]
  | @plain c other =>
    have plain : c ≠ '\\' := by
      rintro rfl
      exact other backslash
    have no_escape {r : Regex} : Misses (.seq (.char '\\') r) before (c :: behind) :=
      .seq (misses_char (by simpa using plain))
    refine .altRight no_escape (.altRight no_escape (prefers_one ?_))
    simp [CharClass.covers_ofChars, other]

theorem prefersEach_escapedUnit (backslash : '\\' ∈ stops) (all : ∀ u ∈ us, IsEscapedUnit stops u) :
    PrefersEach (.group 0 (escapedUnit stops)) before us behind :=
  prefersEach fun u mem _ _ => (prefers_escapedUnit backslash (all u mem)).group

/-! ### Texts closed by one unit -/

/-- An escaped text prefers all units before the character that closes it. -/
theorem prefers_escaped (backslash : '\\' ∈ stops) (all : ∀ u ∈ us, IsEscapedUnit stops u)
    (mem : closer ∈ stops) (other : closer ≠ '\\') :
    Prefers (escaped true stops) before us.flatten (closer :: behind) := by
  apply prefers_star rfl (prefersEach_escapedUnit backslash all)
  apply Misses.group
  intro u v eq takes
  obtain ⟨c, u, rfl, head⟩ := takes.head_of_escapedUnit
  cases eq
  exact head.elim other fun outside => outside mem

/-- Units of an escaped text are none that it stops at. -/
theorem notMem_of_escapedUnits {bars : List Char} (barred : ∀ c ∈ bars, c ∈ stops)
    (all : ∀ u ∈ us, IsEscapedUnit stops u) : ∀ u ∈ us, u ∉ bars.map fun c => [c] := by
  intro u memU memBars
  obtain ⟨c, memC, rfl⟩ := List.mem_map.1 memBars
  cases all _ memU with
  | plain outside => exact outside (barred c memC)

/-- The units before the first closing one are those of an escaped text, if none is barred. -/
theorem escapedUnits_of_first {bars : List Char}
    (stop : ∀ c ∈ stops, c = closer ∨ c = '\\' ∨ c ∈ bars) (read : units s = us ++ [closer] :: vs)
    (free : ∀ u ∈ us, u ∉ bars.map fun c => [c]) (first : [closer] ∉ us) :
    ∀ u ∈ us, IsEscapedUnit stops u := by
  have whole : ∀ u ∈ us, IsEscapedUnit ['\\'] u := isEscapedUnit_of_units read (by simp)
  intro u memU
  refine (whole u memU).of_notMem ?_
  rintro c memC rfl
  rcases stop c memC with rfl | rfl | memBars
  · exact first memU
  · cases whole _ memU with
    | plain outside => exact outside List.mem_cons_self
  · exact free _ memU (List.mem_map_of_mem memBars)

/-- The expression for an escaped text that stops at a backslash, at the closing character and at
some others, with an expression behind it that takes the closing character and prefers the tail. -/
theorem encloses_escaped {d : Delimiters} (bars : List Char) {last : Regex}
    (closing : d.closing = [[closer]]) (barred : d.barred = bars.map fun c => [c])
    (other : closer ≠ '\\') (apart : closer ∉ bars)
    (stop : ∀ c, c ∈ stops ↔ c = closer ∨ c = '\\' ∨ c ∈ bars)
    (begins : ∀ {before w behind}, Takes last before w behind → ∃ v, w = closer :: v)
    (goes : ∀ before (v : List Char),
      Prefers last before (closer :: v.takeWhile d.tail) (v.dropWhile d.tail)) :
    Encloses (.seq (escaped true stops) last) d := by
  have mem : closer ∈ stops := (stop closer).2 (Or.inl rfl)
  have backslash : '\\' ∈ stops := (stop '\\').2 (Or.inr (Or.inl rfl))
  constructor
  · intro before w behind takes
    obtain ⟨body, v, rfl, body_takes, _, last_takes⟩ := takes.exists_of_seq
    obtain ⟨v, rfl⟩ := begins last_takes
    obtain ⟨us, rfl, all⟩ := body_takes.isEscaped
    have read : units (us.flatten ++ closer :: v ++ behind) =
        us ++ [[closer]] ++ units (v ++ behind) := by
      rw [List.append_assoc, units_append fun u mem => (all u mem).whole backslash,
        List.cons_append, units_plain other, List.append_assoc, List.singleton_append]
    -- no unit up to the closing one is barred
    have free : ∀ u ∈ us ++ [[closer]], u ∉ d.barred := by
      rw [barred, List.forall_mem_append, List.forall_mem_singleton]
      refine ⟨notMem_of_escapedUnits (fun c memC => (stop c).2 (Or.inr (Or.inr memC))) all, ?_⟩
      simpa using apart
    rw [Delimiters.ClosedBehind, read, closing,
      List.takeWhile_append_of_pos fun u memU => by simpa using free u memU]
    exact ⟨us, _, rfl⟩
  · rintro before t w ⟨us, vs, read, free, first, rfl⟩
    rw [closing] at read first ⊢
    have before_first : [closer] ∉ us := by
      intro memU
      obtain ⟨done, more, rfl⟩ := List.append_of_mem memU
      exact first ⟨done, more, by simp⟩
    have all : ∀ u ∈ us, IsEscapedUnit stops u :=
      escapedUnits_of_first (fun c => (stop c).1) (read.trans (List.append_assoc ..))
        (barred ▸ free) before_first
    have text : us.flatten ++ [[closer]].flatten ++ vs.flatten.takeWhile d.tail =
        us.flatten ++ (closer :: vs.flatten.takeWhile d.tail) := by
      simp
    refine ⟨vs.flatten.dropWhile d.tail, ?_, ?_⟩
    · rw [← flatten_units t, read]
      simp
    · rw [text]
      exact .seq (prefers_escaped backslash all mem other) (goes _ _)

/-! ### Texts closed by several units -/

theorem prefers_literal (s : List Char) : Prefers (literal s) before s behind := by
  fun_induction literal s generalizing before with
  | case1 => exact prefers_empty
  | case2 c => exact prefers_char c
  | case3 c s _ ih => exact .char_seq ih

/-- The expression for an escaped text up to the first place where some plain characters stand. -/
theorem encloses_lazy {d : Delimiters} (closing : List Char)
    (closes : d.closing = closing.map fun c => [c]) (open_ended : d.barred = [])
    (no_tail : d.tail = fun _ => false) (nonempty : closing ≠ []) (plain : '\\' ∉ closing) :
    Encloses (.seq (escaped false ['\\']) (literal closing)) d := by
  have closing_whole : ∀ u ∈ d.closing, IsEscapedUnit ['\\'] u := by
    rw [closes]
    intro u mem
    obtain ⟨c, memC, rfl⟩ := List.mem_map.1 mem
    refine .plain fun backslash => plain ?_
    rwa [← List.mem_singleton.1 backslash]
  have closing_text : d.closing.flatten = closing := by rw [closes, flatten_map_singleton]
  have closing_units (s : List Char) : units (closing ++ s) = d.closing ++ units s := by
    rw [← units_append closing_whole, closing_text]
  have closing_nonempty : d.closing ≠ [] := by
    rw [closes]
    simpa using nonempty
  constructor
  · intro before w behind takes
    obtain ⟨body, v, rfl, body_takes, _, last_takes⟩ := takes.exists_of_seq
    obtain ⟨us, rfl, all⟩ := body_takes.isEscaped
    rw [last_takes.of_literal, Delimiters.ClosedBehind, List.append_assoc, units_append all,
      closing_units, List.takeWhile_eq_self_iff.2 (by simp [open_ended])]
    exact ⟨us, units behind, List.append_assoc ..⟩
  · rintro before t w ⟨us, vs, read, -, first, rfl⟩
    have all : ∀ u ∈ us, IsEscapedUnit ['\\'] u :=
      isEscapedUnit_of_units (read.trans (List.append_assoc ..)) (by simp [closing_nonempty])
    refine ⟨vs.flatten, ?_, ?_⟩
    · rw [← flatten_units t, read, no_tail]
      simp
    · have text : us.flatten ++ d.closing.flatten ++ vs.flatten.takeWhile d.tail =
          us.flatten ++ closing := by
        rw [closing_text, no_tail]
        simp
      rw [text]
      apply prefers_lazy rfl (prefersEach_escapedUnit List.mem_cons_self all) _ (prefers_literal _)
      rintro done u more rfl v rest eq takes
      rw [takes.of_literal] at eq
      -- the closing units would stand before the first place where they do
      apply not_prefix_of_first first
      have whole : ∀ v ∈ u :: more, IsEscapedUnit ['\\'] v :=
        fun v mem => all v (List.mem_append_right _ mem)
      have same := congrArg units eq
      rw [← List.flatten_cons, units_append whole, closing_units, closing_units] at same
      rw [List.append_assoc, same]
      exact List.prefix_append _ _

/-! ### Behind an opener -/

/-- The expression for a text before another expression. -/
def behindText : List Char → Regex → Regex
  | [], r => r
  | c :: s, r => .seq (.char c) (behindText s r)

variable {r : Regex} {d : Delimiters}

theorem Takes.exists_of_behindText (h : Takes (behindText s r) before w behind) :
    ∃ v before, w = s ++ v ∧ Takes r before v behind := by
  induction s generalizing before w with
  | nil => exact ⟨w, before, rfl, h⟩
  | cons c s ih =>
    obtain ⟨_, rfl, _, h⟩ := h.exists_of_char_seq
    obtain ⟨v, _, rfl, takes⟩ := ih h
    exact ⟨v, _, rfl, takes⟩

theorem Prefers.behindText (h : ∀ {before}, Prefers r before w behind) :
    Prefers (behindText s r) before (s ++ w) behind := by
  induction s generalizing before with
  | nil => exact h
  | cons c s ih => exact .char_seq ih

/-- An expression behind the only opener. -/
theorem Encloses.behindText (h : Encloses r d) (opens : d.openers = [s]) :
    Delimits (behindText s r) d := by
  constructor
  · intro w behind takes
    obtain ⟨v, _, rfl, inner⟩ := takes.exists_of_behindText
    exact ⟨s, by simp [opens], v ++ behind, List.append_assoc .., h.closed inner⟩
  · rintro t w ⟨opener, mem, t, v, rfl, ends, rfl⟩
    rw [opens, List.mem_singleton] at mem
    obtain ⟨rest, rfl, -⟩ := h.prefers none ends
    refine ⟨rest, (List.append_assoc ..).symm, ?_⟩
    rw [mem]
    apply Prefers.behindText
    intro before
    obtain ⟨rest', eq, prefers⟩ := h.prefers before ends
    rwa [List.append_cancel_left eq]

/-- An expression behind an opener that may have a letter before it. -/
theorem Encloses.behindMaybe {c opener : Char} (h : Encloses r d) (apart : c ≠ opener)
    (opens : d.openers = [[opener], [c, opener]]) :
    Delimits (.seq (.alt (.char c) .empty) (.seq (.char opener) r)) d := by
  constructor
  · intro w behind takes
    obtain ⟨letter, _, rfl, first, _, takes⟩ := takes.exists_of_seq
    obtain ⟨v, rfl, _, takes⟩ := takes.exists_of_char_seq
    have closed := h.closed takes
    obtain rfl | letter_takes := first.of_optional
    · exact ⟨[opener], by simp [opens], v ++ behind, rfl, closed⟩
    · rw [letter_takes.of_char]
      exact ⟨[c, opener], by simp [opens], v ++ behind, rfl, closed⟩
  · rintro s w ⟨text, mem, t, v, rfl, ends, rfl⟩
    rw [opens, List.mem_cons, List.mem_singleton] at mem
    obtain ⟨rest, rfl, prefers⟩ := h.prefers (some opener) ends
    refine ⟨rest, (List.append_assoc ..).symm, ?_⟩
    obtain rfl | rfl := mem
    · apply Prefers.seq (u := [])
      · exact .altRight (misses_char (by simpa using apart.symm)) prefers_empty
      · exact .char_seq prefers
    · apply Prefers.seq (u := [c])
      · exact .altLeft (prefers_char c)
      · exact .char_seq prefers

end Regex
end FancyTokens
