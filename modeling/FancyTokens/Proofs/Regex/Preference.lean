import FancyTokens.Proofs.Regex.Completeness
import FancyTokens.Proofs.Regex.Inversion
import FancyTokens.Proofs.Text.Trimming

/-!
# What the search prefers

`Regex.Takes` says what an expression can match, and nothing about which of several matches the
search comes to. `Regex.Prefers` does: of all texts that an expression takes at some place, the
search goes along this one, provided that every position behind it is accepted. There is a lemma
for each form of expression. An alternative is preferred to the later ones where those before it
miss (`Misses`), a greedy repetition goes on until its body misses (`prefers_star`), and a lazy one
until what stands behind it does not (`prefers_lazy`).

Main statements:

* `Pattern.exists_search?_of_prefers`: an anchored pattern finds the text that it prefers;
* `prefers_star_one`: a greedy repetition of a class takes all characters of the class.
-/

namespace FancyTokens
namespace Regex

/-- The expression takes no beginning of a text. -/
def Misses (r : Regex) (before : Option Char) (s : List Char) : Prop :=
  ∀ u v, s = u ++ v → ¬ Takes r before u v

/-- If every position behind the text `w` is accepted, the search for the expression goes along
`w`. -/
def Prefers (r : Regex) (before : Option Char) (w behind : List Char) : Prop :=
  ∀ ⦃β : Type⦄ (part : Part) (p : Position) (captures : Captures) (k : Continuation β),
    p.rest = w ++ behind → p.previous = before →
    (∀ p' captures', p.Spans w p' → (k p' captures').isSome = true) →
    ∃ p' captures', p.Spans w p' ∧ r.explore part false p captures k = k p' captures'

variable {r s : Regex} {before : Option Char} {u v w behind : List Char} {c : Char}
  {set : CharClass}

theorem Position.Spans.eq {p p' : Position} (h : p.Spans u p') (h' : p.Spans v p') : u = v :=
  List.append_cancel_right (h.rest.symm.trans h'.rest)

/-- What the search prefers, the expression takes. -/
theorem Prefers.takes (h : Prefers r before w behind) : Takes r before w behind := by
  let p : Position := ⟨0, before, w ++ behind, []⟩
  -- a continuation that tells where it has been called
  obtain ⟨p', captures', spans, found⟩ := h [] p [] (fun p' _ => some p') rfl rfl
    fun _ _ _ => rfl
  obtain ⟨p'', captures'', ⟨w', spans', takes, -⟩, last⟩ := explore_finds r _ _ found
  obtain rfl : p'' = p' := Option.some.inj last
  rw [spans.eq spans']
  rwa [← spans.rest_eq rfl]

/-- Where an expression can take one text only, it prefers this one. -/
theorem prefers_of_unique (advances : r.loopsAdvance = true) (takes : Takes r before w behind)
    (unique : ∀ u v, w ++ behind = u ++ v → Takes r before u v → u = w) :
    Prefers r before w behind := by
  intro β part p captures k rest previous accepted
  rw [← previous] at takes unique
  obtain ⟨b, found⟩ :=
    Option.isSome_iff_exists.1 (explore_accepts advances part rest takes accepted)
  obtain ⟨p', captures', ⟨u, spans, takes', -⟩, last⟩ := explore_finds r _ _ found
  rw [unique u p'.rest (rest.symm.trans spans.rest) takes'] at spans
  exact ⟨p', captures', spans, found.trans last.symm⟩

/-! ## Expressions that miss -/

section Misses

variable {β : Type} {p : Position} {captures : Captures} {k : Continuation β} {part : Part}

/-- The search for an expression that misses comes to nothing. -/
theorem explore_eq_none (misses : Misses r p.previous p.rest) (looping : Bool) :
    r.explore part looping p captures k = none := by
  rw [Option.eq_none_iff_forall_ne_some]
  intro b found
  obtain ⟨p', _, ⟨w, spans, takes, -⟩, -⟩ := explore_finds r _ _ found
  exact misses w p'.rest spans.rest takes

theorem explorePlus_eq_none (misses : Misses r p.previous p.rest) (joint : Part)
    (ahead : List Char) (greedy : Bool) :
    explorePlus false joint greedy (r.explore part false) ahead p captures k = none := by
  rw [Option.eq_none_iff_forall_ne_some]
  intro b found
  obtain ⟨p', _, ⟨w, spans, takes, -⟩, -⟩ := explorePlus_finds (explore_finds r _ _) _ found
  cases takes with
  | @plus _ _ _ u v _ first _ =>
    have rest := spans.rest
    rw [List.append_assoc] at rest
    exact misses u _ rest first

end Misses

theorem misses_one (other : ∀ c ∈ w.head?, set.covers c = false) : Misses (.one set) before w := by
  rintro u v rfl takes
  obtain ⟨c, rfl, covered⟩ := takes.of_one
  rw [other c rfl] at covered
  cases covered

theorem misses_char (other : ∀ d ∈ w.head?, d ≠ c) : Misses (.char c) before w := by
  rintro u v rfl takes
  obtain rfl := takes.of_char
  exact other c rfl rfl

theorem Misses.group {index : Nat} (h : Misses r before w) : Misses (.group index r) before w := by
  rintro u v rfl takes
  cases takes with
  | group takes => exact h u v rfl takes

theorem Misses.alt (h : Misses r before w) (h' : Misses s before w) :
    Misses (.alt r s) before w := by
  rintro u v rfl takes
  cases takes with
  | altLeft takes => exact h u v rfl takes
  | altRight takes => exact h' u v rfl takes

theorem Misses.seq (h : Misses r before w) : Misses (.seq r s) before w := by
  rintro u v rfl takes
  cases takes with
  | seq first _ => exact h _ _ (List.append_assoc ..) first

/-! ## One way after the other -/

section Extension

variable {β : Type} {p : Position} {k : Continuation β}

/-- Behind the text that an expression prefers, a continuation may go on along another text. -/
theorem Prefers.extend (h : Prefers r before u (v ++ behind)) (part : Part) (captures : Captures)
    (k₁ : Continuation β) (rest : p.rest = u ++ v ++ behind) (previous : p.previous = before)
    (accepted : ∀ p' captures', p.Spans (u ++ v) p' → (k p' captures').isSome = true)
    (later : ∀ p₁ captures₁, p.Spans u p₁ →
      ∃ p₂ captures₂, p₁.Spans v p₂ ∧ k₁ p₁ captures₁ = k p₂ captures₂) :
    ∃ p₂ captures₂, p.Spans (u ++ v) p₂ ∧
      r.explore part false p captures k₁ = k p₂ captures₂ := by
  rw [List.append_assoc] at rest
  obtain ⟨p₁, captures₁, spans₁, first⟩ := h part p captures k₁ rest previous
    fun p₁ captures₁ spans => by
      obtain ⟨p₂, captures₂, spans₂, eq⟩ := later p₁ captures₁ spans
      rw [eq]
      exact accepted p₂ captures₂ (spans.trans spans₂)
  obtain ⟨p₂, captures₂, spans₂, eq⟩ := later p₁ captures₁ spans₁
  exact ⟨p₂, captures₂, spans₁.trans spans₂, first.trans eq⟩

end Extension

theorem prefers_empty : Prefers .empty before [] behind :=
  fun _ _ p captures _ _ _ _ => ⟨p, captures, .refl p, rfl⟩

theorem prefers_textStart : Prefers .textStart none [] behind := by
  intro β part p captures k _ previous _
  refine ⟨p, captures, .refl p, ?_⟩
  rw [explore, previous]
  rfl

theorem prefers_one (covered : set.covers c = true) : Prefers (.one set) before [c] behind := by
  intro β part p captures k rest _ _
  have next : p.next? = some (c, ⟨p.offset + c.utf8Size, some c, behind, []⟩) := by
    rw [Position.next?, rest]
    rfl
  refine ⟨_, captures, .of_next? next, ?_⟩
  rw [explore, next]
  exact if_pos covered

theorem prefers_char (c : Char) : Prefers (.char c) before [c] behind := by
  apply prefers_one
  rw [CharClass.covers, CharClass.single, List.any_cons, ClassItem.covers_range_self]
  simp

theorem Prefers.seq (h : Prefers r before u (v ++ behind))
    (h' : Prefers s (lastOr before u) v behind) : Prefers (.seq r s) before (u ++ v) behind := by
  intro β part p captures k rest previous accepted
  rw [explore]
  apply h.extend _ _ _ rest previous accepted
  intro p₁ captures₁ spans
  rw [List.append_assoc] at rest
  apply h' _ p₁ captures₁ k (spans.rest_eq rest) (by rw [spans.previous, previous])
  exact fun p₂ captures₂ spans₂ => accepted p₂ captures₂ (spans.trans spans₂)

theorem Prefers.char_seq (h : Prefers r (some c) w behind) :
    Prefers (.seq (.char c) r) before (c :: w) behind :=
  Prefers.seq (u := [c]) (prefers_char c) h

theorem Prefers.textStart_seq (h : Prefers r none w behind) :
    Prefers (.seq .textStart r) none w behind :=
  Prefers.seq (u := []) prefers_textStart h

theorem Prefers.group {index : Nat} (h : Prefers r before w behind) :
    Prefers (.group index r) before w behind := by
  intro β part p captures k rest previous accepted
  obtain ⟨p', captures', spans, eq⟩ := h (false :: part) p captures
    (fun p' captures' => k p' (captures'.set index (some ⟨p.offset, p'.offset⟩))) rest previous
    fun p' captures' spans => accepted p' _ spans
  exact ⟨p', _, spans, eq⟩

theorem Prefers.altLeft (h : Prefers r before w behind) : Prefers (.alt r s) before w behind := by
  intro β part p captures k rest previous accepted
  obtain ⟨p', captures', spans, eq⟩ := h (false :: part) p captures k rest previous accepted
  refine ⟨p', captures', spans, ?_⟩
  obtain ⟨b, found⟩ := Option.isSome_iff_exists.1 (accepted p' captures' spans)
  have first : r.explore (false :: part) false p captures (Regex.behind false part k) = some b :=
    eq.trans found
  rw [explore, first, found]
  rfl

theorem Prefers.altRight (misses : Misses r before (w ++ behind))
    (h : Prefers s before w behind) : Prefers (.alt r s) before w behind := by
  intro β part p captures k rest previous accepted
  obtain ⟨p', captures', spans, eq⟩ := h (true :: part) p captures k rest previous accepted
  refine ⟨p', captures', spans, ?_⟩
  have first : r.explore (false :: part) false p captures (Regex.behind false part k) = none :=
    explore_eq_none (by rwa [rest, previous]) false
  rw [explore, first]
  exact eq

/-! ## Repetitions -/

/-- An expression prefers some texts one after the other: each of them where those before it have
been taken and the later ones follow. -/
def PrefersEach (r : Regex) (before : Option Char) (texts : List (List Char))
    (behind : List Char) : Prop :=
  ∀ done u more, texts = done ++ u :: more →
    Prefers r (lastOr before done.flatten) u (more.flatten ++ behind)

theorem PrefersEach.head {texts : List (List Char)}
    (h : PrefersEach r before (u :: texts) behind) :
    Prefers r before u (texts.flatten ++ behind) :=
  h [] u texts rfl

theorem PrefersEach.tail {texts : List (List Char)}
    (h : PrefersEach r before (u :: texts) behind) :
    PrefersEach r (lastOr before u) texts behind := by
  intro done w more eq
  have later := h (u :: done) w more (by rw [eq]; rfl)
  rwa [List.flatten_cons, lastOr_append] at later

/-- Texts that are preferred whatever stands around them are preferred one after the other. -/
theorem prefersEach {texts : List (List Char)}
    (h : ∀ u ∈ texts, ∀ before behind, Prefers r before u behind) :
    PrefersEach r before texts behind := by
  rintro done u more rfl
  exact h u (by simp) _ _

section Repetition

variable {β : Type} {p : Position} {captures : Captures} {k : Continuation β} {joint part : Part}
  {texts : List (List Char)}

theorem goOnOrStop_true_of_isSome {goOn stop : Option β} (h : goOn.isSome = true) :
    goOnOrStop true goOn stop = goOn := by
  obtain ⟨b, rfl⟩ := Option.isSome_iff_exists.1 h
  rfl

/-- Where some text is left, the bound on the number of occurrences leaves room for one more. -/
theorem exists_cons_of_enough {ahead : List Char} (nonempty : u ≠ [])
    (rest : p.rest = u ++ v ++ behind) (enough : p.rest.length ≤ ahead.length) :
    ∃ d ahead', ahead = d :: ahead' ∧
      ∀ p', p.Spans u p' → p'.rest.length ≤ ahead'.length := by
  have pos : 0 < u.length := List.length_pos_iff.2 nonempty
  have some_left : u.length ≤ p.rest.length := by
    rw [rest, List.append_assoc, List.length_append]
    omega
  cases ahead with
  | nil =>
    rw [List.length_nil] at enough
    omega
  | cons d ahead' =>
    refine ⟨d, ahead', rfl, fun p' spans => ?_⟩
    have shorter := spans.length_lt nonempty
    rw [List.length_cons] at enough
    omega

/-- A greedy repetition goes along the texts that its body prefers until the body misses. -/
theorem exploreStar_prefers (advances : r.nullable = false)
    (each : PrefersEach r before texts behind)
    (stops : Misses r (lastOr before texts.flatten) behind) (ahead : List Char)
    (enough : p.rest.length ≤ ahead.length) (rest : p.rest = texts.flatten ++ behind)
    (previous : p.previous = before)
    (accepted : ∀ p' captures', p.Spans texts.flatten p' → (k p' captures').isSome = true) :
    ∃ p' captures', p.Spans texts.flatten p' ∧
      exploreStar false joint true (r.explore part false) ahead p captures k = k p' captures' := by
  induction texts generalizing before ahead p captures with
  | nil =>
    refine ⟨p, captures, .refl p, ?_⟩
    cases ahead with
    | nil => rfl
    | cons d ahead =>
      have first : r.explore part false p captures (fun p' captures' =>
          exploreStar false joint true (r.explore part false) ahead p' captures' k) = none :=
        explore_eq_none (by rw [rest, previous]; exact stops) false
      rw [exploreStar]
      change goOnOrStop true _ (k p captures) = _
      rw [first]
      rfl
  | cons u texts ih =>
    rw [List.flatten_cons] at rest accepted stops ⊢
    rw [lastOr_append] at stops
    have nonempty : u ≠ [] := each.head.takes.ne_nil advances
    obtain ⟨d, ahead, rfl, room⟩ := exists_cons_of_enough nonempty rest enough
    -- one occurrence takes the first text, and the repetition goes on along the others
    obtain ⟨p₂, captures₂, spans, going⟩ := each.head.extend part captures
      (fun p₁ captures₁ =>
        exploreStar false joint true (r.explore part false) ahead p₁ captures₁ k)
      rest previous accepted fun p₁ captures₁ spans =>
        ih each.tail stops ahead (room p₁ spans)
          (spans.rest_eq (rest.trans (List.append_assoc ..))) (by rw [spans.previous, previous])
          fun p₂ captures₂ spans₂ => accepted p₂ captures₂ (spans.trans spans₂)
    refine ⟨p₂, captures₂, spans, ?_⟩
    rw [exploreStar]
    change goOnOrStop true _ (k p captures) = _
    rw [going, goOnOrStop_true_of_isSome (accepted p₂ captures₂ spans)]

/-- One or more occurrences go along the texts that the body prefers until the body misses. -/
theorem explorePlus_prefers (advances : r.nullable = false)
    (each : PrefersEach r before (u :: texts) behind)
    (stops : Misses r (lastOr before (u ++ texts.flatten)) behind) (ahead : List Char)
    (enough : p.rest.length ≤ ahead.length) (rest : p.rest = u ++ texts.flatten ++ behind)
    (previous : p.previous = before)
    (accepted : ∀ p' captures', p.Spans (u ++ texts.flatten) p' →
      (k p' captures').isSome = true) :
    ∃ p' captures', p.Spans (u ++ texts.flatten) p' ∧
      explorePlus false joint true (r.explore part false) ahead p captures k = k p' captures' := by
  induction texts generalizing before ahead p captures u with
  | nil =>
    have nonempty : u ≠ [] := each.head.takes.ne_nil advances
    obtain ⟨d, ahead, rfl, -⟩ := exists_cons_of_enough nonempty rest enough
    rw [explorePlus]
    apply each.head.extend _ _ _ rest previous accepted
    intro p₁ captures₁ spans
    refine ⟨p₁, captures₁, .refl p₁, ?_⟩
    -- behind the last text the body misses, and the repetition ends
    have rest₁ : p₁.rest = behind := spans.rest_eq (by simpa using rest)
    rw [explorePlus_eq_none]
    · rfl
    · rw [rest₁, spans.previous, previous]
      simpa using stops
  | cons v texts ih =>
    rw [List.flatten_cons] at rest accepted stops ⊢
    rw [lastOr_append] at stops
    have nonempty : u ≠ [] := each.head.takes.ne_nil advances
    obtain ⟨d, ahead, rfl, room⟩ := exists_cons_of_enough nonempty rest enough
    rw [explorePlus]
    apply each.head.extend _ _ _ rest previous accepted
    intro p₁ captures₁ spans
    have accepted₁ : ∀ p₂ captures₂, p₁.Spans (v ++ texts.flatten) p₂ →
        (k p₂ captures₂).isSome = true :=
      fun p₂ captures₂ spans₂ => accepted p₂ captures₂ (spans.trans spans₂)
    have later : ∃ p₂ captures₂, p₁.Spans (v ++ texts.flatten) p₂ ∧
        explorePlus false joint true (r.explore part false) ahead p₁ captures₁ k =
          k p₂ captures₂ :=
      ih each.tail stops ahead (room p₁ spans)
        (spans.rest_eq (rest.trans (List.append_assoc ..))) (by rw [spans.previous, previous])
        accepted₁
    obtain ⟨p₂, captures₂, spans₂, going⟩ := later
    refine ⟨p₂, captures₂, spans₂, ?_⟩
    rw [going, goOnOrStop_true_of_isSome (accepted₁ p₂ captures₂ spans₂)]

/-- A lazy repetition goes along the texts that its body prefers as long as what stands behind it
misses. -/
theorem exploreStar_lazy_prefers {s : Regex} {part' : Part} (advances : r.nullable = false)
    (each : PrefersEach r before texts (v ++ behind))
    (misses : ∀ done u more, texts = done ++ u :: more →
      Misses s (lastOr before done.flatten) (u ++ more.flatten ++ (v ++ behind)))
    (last : Prefers s (lastOr before texts.flatten) v behind) (ahead : List Char)
    (enough : p.rest.length ≤ ahead.length) (rest : p.rest = texts.flatten ++ v ++ behind)
    (previous : p.previous = before)
    (accepted : ∀ p' captures', p.Spans (texts.flatten ++ v) p' →
      (k p' captures').isSome = true) :
    ∃ p' captures', p.Spans (texts.flatten ++ v) p' ∧
      exploreStar false joint false (r.explore part false) ahead p captures
        (fun p' captures' => s.explore part' false p' captures' k) = k p' captures' := by
  induction texts generalizing before ahead p captures with
  | nil =>
    obtain ⟨p', captures', spans, eq⟩ := last part' p captures k rest previous accepted
    refine ⟨p', captures', spans, ?_⟩
    cases ahead with
    | nil => exact eq
    | cons d ahead =>
      -- what stands behind is tried before another occurrence
      obtain ⟨b, found⟩ := Option.isSome_iff_exists.1 (accepted p' captures' spans)
      rw [exploreStar]
      change (s.explore part' false p captures k <|> _) = _
      rw [eq, found]
      rfl
  | cons u texts ih =>
    have missed := misses [] u texts rfl
    rw [List.flatten_cons, List.append_assoc u] at rest accepted ⊢
    rw [List.flatten_cons, lastOr_append] at last
    have nonempty : u ≠ [] := each.head.takes.ne_nil advances
    obtain ⟨d, ahead, rfl, room⟩ := exists_cons_of_enough nonempty rest enough
    have stop : s.explore part' false p captures k = none := by
      apply explore_eq_none _ false
      rw [rest, previous]
      simpa using missed
    rw [exploreStar]
    change ∃ p' captures', p.Spans (u ++ (texts.flatten ++ v)) p' ∧
      (s.explore part' false p captures k <|> r.explore part false p captures fun p' captures' =>
        exploreStar false joint false (r.explore part false) ahead p' captures'
          fun p' captures' => s.explore part' false p' captures' k) = k p' captures'
    rw [stop]
    have head : Prefers r before u (texts.flatten ++ v ++ behind) := by
      rw [List.append_assoc]
      exact each.head
    apply head.extend _ _ _ rest previous accepted
    intro p₁ captures₁ spans
    apply ih each.tail _ last ahead (room p₁ spans)
      (spans.rest_eq (rest.trans (List.append_assoc ..))) (by rw [spans.previous, previous])
      fun p₂ captures₂ spans₂ => accepted p₂ captures₂ (spans.trans spans₂)
    intro done w more eq
    have later := misses (u :: done) w more (by rw [eq]; rfl)
    rwa [List.flatten_cons, lastOr_append] at later

end Repetition

variable {texts : List (List Char)}

/-- A greedy repetition prefers the texts that its body prefers until the body misses. -/
theorem prefers_star (advances : r.nullable = false) (each : PrefersEach r before texts behind)
    (stops : Misses r (lastOr before texts.flatten) behind) :
    Prefers (.star true r) before texts.flatten behind := by
  intro β part p captures k rest previous accepted
  rw [explore, if_neg (by simp [advances])]
  exact exploreStar_prefers advances each stops p.rest (Nat.le_refl _) rest previous accepted

theorem prefers_plus (advances : r.nullable = false)
    (each : PrefersEach r before (u :: texts) behind)
    (stops : Misses r (lastOr before (u ++ texts.flatten)) behind) :
    Prefers (.plus true r) before (u ++ texts.flatten) behind := by
  intro β part p captures k rest previous accepted
  rw [explore, advances]
  exact explorePlus_prefers advances each stops p.rest (Nat.le_refl _) rest previous accepted

/-- A lazy repetition stops as soon as what stands behind it takes something. -/
theorem prefers_lazy (advances : r.nullable = false)
    (each : PrefersEach r before texts (v ++ behind))
    (misses : ∀ done u more, texts = done ++ u :: more →
      Misses s (lastOr before done.flatten) (u ++ more.flatten ++ (v ++ behind)))
    (last : Prefers s (lastOr before texts.flatten) v behind) :
    Prefers (.seq (.star false r) s) before (texts.flatten ++ v) behind := by
  intro β part p captures k rest previous accepted
  rw [explore, explore, if_neg (by simp [advances])]
  exact exploreStar_lazy_prefers advances each misses last p.rest (Nat.le_refl _) rest previous
    accepted

/-! ## Characters of a class in a row -/

theorem flatten_map_singleton (w : List Char) : (w.map fun c => [c]).flatten = w := by
  rw [← List.flatMap_def]
  exact List.flatMap_singleton' w

theorem prefersEach_one (covered : ∀ c ∈ w, set.covers c = true) :
    PrefersEach (.one set) before (w.map fun c => [c]) behind := by
  apply prefersEach
  intro u mem before behind
  obtain ⟨c, memW, rfl⟩ := List.mem_map.1 mem
  exact prefers_one (covered c memW)

/-- Any number of characters of a class: all that stand there. -/
theorem prefers_star_one (covered : ∀ c ∈ w, set.covers c = true)
    (stops : ∀ c ∈ behind.head?, set.covers c = false) :
    Prefers (.star true (.one set)) before w behind := by
  have each : PrefersEach (.one set) before _ behind := prefersEach_one covered
  have all := prefers_star rfl each (misses_one stops)
  rwa [flatten_map_singleton] at all

theorem prefers_star_takeWhile {p : Char → Bool} (covers : ∀ c, set.covers c = p c)
    (before : Option Char) (s : List Char) :
    Prefers (.star true (.one set)) before (s.takeWhile p) (s.dropWhile p) := by
  refine prefers_star_one (fun c mem => ?_) fun c head => ?_
  · rw [covers]
    exact List.mem_takeWhile_imp mem
  · rw [covers]
    exact head?_dropWhile_eq_false head

theorem prefers_plus_one (nonempty : w ≠ []) (covered : ∀ c ∈ w, set.covers c = true)
    (stops : ∀ c ∈ behind.head?, set.covers c = false) :
    Prefers (.plus true (.one set)) before w behind := by
  obtain ⟨c, w, rfl⟩ := List.exists_cons_of_ne_nil nonempty
  have each : PrefersEach (.one set) before _ behind := prefersEach_one covered
  have all := prefers_plus rfl each (misses_one stops)
  rwa [flatten_map_singleton] at all

end Regex

/-! ## Patterns -/

/-- An anchored pattern finds the text that it prefers. -/
theorem Pattern.exists_search?_of_prefers {pattern : Pattern} {w rest : List Char}
    (anchored : pattern.regex.anchored = true) (h : pattern.regex.Prefers none w rest) :
    ∃ found, pattern.search? (w ++ rest) = some found ∧ found.whole = ⟨0, byteLength w⟩ := by
  obtain ⟨p', captures', spans, eq⟩ := h [] (.start (w ++ rest))
    (List.replicate pattern.groups none)
    (fun p' captures => some (Found.mk ⟨0, p'.offset⟩ captures)) rfl rfl fun _ _ _ => rfl
  have size : p'.offset = byteLength w := by
    rw [spans.offset, Regex.Position.start, Nat.zero_add]
  rw [size] at eq
  refine ⟨⟨⟨0, byteLength w⟩, captures'⟩, ?_, rfl⟩
  rw [search?, if_pos anchored]
  exact eq

end FancyTokens
