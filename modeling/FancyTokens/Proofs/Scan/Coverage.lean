import FancyTokens.Proofs.Grammar.Matching
import FancyTokens.Proofs.Scan.Emission
import FancyTokens.Proofs.Scan.Run

/-!
# A scan covers its source

Under an anchored table the scanner never gets stuck before the end of the source, and the tokens
of each step tile the piece of the source that the step takes (`Scan.Behind.exists_step`). The
tokens of a whole scan therefore tile the source, and a cursor hands them out one by one until the
source is exhausted (`tokens_tile_source`).
-/

namespace FancyTokens

variable {table : RuleTable} {before rest : List Char}

namespace Scan

variable {scan : Scan} {step : Step}

/-- Where a scan stands, what remains is the end of the source, if the source can be cut there. -/
theorem Run.rest_eq {source : List Char} {done : List Step}
    (h : Run table (Scan.start source) done scan) :
    scan.rest = slice? source scan.offset (byteLength source) := by
  induction h with
  | start => exact (slice?_to_end_eq_some_iff.2 ⟨[], rfl, rfl⟩).symm
  | snoc _ taken ih =>
    obtain ⟨c, s, place_eq, ⟨-, rfl⟩ | ⟨rule, m, tokens, -, -, rfl⟩⟩ := step?_eq_some_iff.1 taken
    -- either way the place before has split the source into what is behind it and `c :: s`
    all_goals
      rw [place_eq] at ih
      obtain ⟨before, rfl, offset⟩ := slice?_to_end_eq_some_iff.1 ih.symm
    · have cut : cut? (c :: s) c.utf8Size = some ([c], s) := cut?_eq_some_iff.2 ⟨rfl, by simp⟩
      have left := slice?_to_end before (c :: s) c.utf8Size
      rw [cut] at left
      rw [recover]
      split <;> simpa [offset] using left.symm
    · have left := slice?_to_end before (c :: s) m.length
      simpa [advance, offset] using left.symm

/-- The scan stands behind the text `before`, and `rest` remains. -/
structure Behind (scan : Scan) (before rest : List Char) : Prop where
  offset : scan.offset = byteLength before
  rest : scan.rest = some rest

theorem behind_start (source : List Char) : (start source).Behind [] source :=
  ⟨rfl, rfl⟩

theorem Behind.step?_eq_none (h : scan.Behind before []) : scan.step? table = none := by
  rw [step?, h.rest]

/-- Under an anchored table there is a step before each character, and it takes a piece of the
source that its tokens tile. -/
theorem Behind.exists_step (anchored : table.Anchored) {c : Char} {s : List Char}
    (h : scan.Behind before (c :: s)) :
    ∃ step w rest, scan.step? table = some step ∧ c :: s = w ++ rest ∧ w ≠ [] ∧
      Tiling (byteLength before) w step.tokens ∧ step.next.Behind (before ++ w) rest := by
  cases chosen : choose (table.rules scan.stack.top) (c :: s) with
  | nothing =>
    -- the recovery takes the character itself, whatever it does to the stack
    refine ⟨scan.recover c s, [c], s, step?_eq_some_iff.2 ⟨c, s, h.rest, .inl ⟨chosen, rfl⟩⟩,
      rfl, by simp, ?_, ?_⟩
    · rw [recover, h.offset]
      split <;> exact .single (by simp)
    · rw [recover]
      split <;> exact ⟨by simp [h.offset], rfl⟩
  | torn => exact absurd chosen (anchored.choose_ne_torn _ _)
  | rule rule m =>
    obtain ⟨mem, attempt⟩ := mem_of_choose chosen
    obtain ⟨w, rest, eq, nonempty, length, fits, -⟩ :=
      Rule.fits_of_attempt (anchored _ rule mem) attempt
    obtain ⟨tokens, emitted, tiling⟩ :=
      exists_emission? scan.offset rest rule.action fits nonempty
    rw [← eq] at emitted
    have cut : cut? (c :: s) m.length = some (w, rest) := cut?_eq_some_iff.2 ⟨eq, length.symm⟩
    refine ⟨scan.advance (c :: s) rule m tokens, w, rest,
      step?_eq_some_iff.2 ⟨c, s, h.rest, .inr ⟨rule, m, tokens, chosen, emitted, rfl⟩⟩,
      eq, nonempty, h.offset ▸ tiling, ?_, ?_⟩
    · simp [advance, h.offset, length]
    · simp [advance, cut]

/-- A recovery gives white space or an error. -/
theorem category_of_mem_recover {c : Char} {s : List Char} {t : Token}
    (mem : t ∈ (scan.recover c s).tokens) : t.category = .whitespace ∨ t.category = .error := by
  rw [recover] at mem
  split at mem
  · exact Or.inl (congrArg Token.category (List.mem_singleton.1 mem))
  · exact Or.inr (congrArg Token.category (List.mem_singleton.1 mem))

/-- Under an anchored table the rule that is chosen gives the tokens of the step. -/
theorem exists_step_of_choose (anchored : table.Anchored) {s : List Char} {rule : Rule}
    {m : RuleMatch} (rest : scan.rest = some s)
    (chosen : choose (table.rules scan.stack.top) s = .rule rule m) :
    ∃ step, scan.step? table = some step ∧
      emission? scan.offset s rule.action m.found = some step.tokens := by
  obtain ⟨mem, attempt⟩ := mem_of_choose chosen
  obtain ⟨w, left, eq, nonempty, -, fits, -⟩ :=
    Rule.fits_of_attempt (anchored _ rule mem) attempt
  obtain ⟨tokens, given, -⟩ := exists_emission? scan.offset left rule.action fits nonempty
  rw [← eq] at given
  cases s with
  | nil => exact absurd (List.append_eq_nil_iff.1 eq.symm).1 nonempty
  | cons c s =>
    exact ⟨_, step?_eq_some_iff.2 ⟨c, s, rest, .inr ⟨rule, m, tokens, chosen, given, rfl⟩⟩, given⟩

/-- All that a step under an anchored table can be: the recovery from a character that no rule
takes, or a rule that takes a text, consumes it, and gives it as one token if it is a rule for
one. -/
theorem of_step? (anchored : table.Anchored) (taken : scan.step? table = some step) :
    (∃ c rest, scan.rest = some (c :: rest) ∧
      choose (table.rules scan.stack.top) (c :: rest) = .nothing ∧ step = scan.recover c rest) ∨
    ∃ rule ∈ table.rules scan.stack.top, ∃ w rest, scan.rest = some (w ++ rest) ∧ w ≠ [] ∧
      rule.pattern.regex.Takes none w rest ∧
      (∀ category, rule.action = .whole category →
        step.tokens = [.ofText category scan.offset w]) ∧
      step.next = ⟨scan.offset + byteLength w,
        (applyTransition (scan.offset + byteLength w) scan.stack rule.transition).2,
        some rest⟩ := by
  obtain ⟨c, s, rest_eq, ⟨chosen, rfl⟩ | ⟨rule, m, tokens, chosen, emitted, rfl⟩⟩ :=
    step?_eq_some_iff.1 taken
  · exact .inl ⟨c, s, rest_eq, chosen, rfl⟩
  · obtain ⟨mem, attempt⟩ := mem_of_choose chosen
    obtain ⟨w, rest, eq, nonempty, length, fits, takes⟩ :=
      Rule.fits_of_attempt (anchored _ rule mem) attempt
    rw [eq] at rest_eq emitted
    have cut : cut? (w ++ rest) m.length = some (w, rest) := cut?_eq_some_iff.2 ⟨rfl, length.symm⟩
    refine .inr ⟨rule, mem, w, rest, rest_eq, nonempty, takes, ?_, ?_⟩
    · intro category action
      rw [action, emission?_whole category fits] at emitted
      exact (Option.some.inj emitted).symm
    · rw [eq, advance, cut, length]
      rfl

/-- Each token still to come is given by a step somewhere in the source that remains, and so are
the other tokens of this step. -/
theorem Behind.exists_step_of_mem_tokens (anchored : table.Anchored) (h : scan.Behind before rest) :
    ∀ t ∈ scan.tokens table, ∃ (place : Scan) (step : Step) (w left : List Char),
      rest = w ++ left ∧ place.Behind (before ++ w) left ∧ place.step? table = some step ∧
        t ∈ step.tokens ∧ ∀ u ∈ step.tokens, u ∈ scan.tokens table := by
  induction scan using step_induction table generalizing before rest with
  | stop scan stopped =>
    rw [tokens_of_step?_eq_none stopped]
    simp
  | step scan step taken ih =>
    cases rest with
    | nil =>
      rw [h.step?_eq_none] at taken
      cases taken
    | cons c s =>
      obtain ⟨step', w, left, taken', eq, -, -, next⟩ := h.exists_step anchored
      obtain rfl : step = step' := Option.some.inj (taken.symm.trans taken')
      rw [tokens_of_step?_eq_some taken]
      intro t mem
      rcases List.mem_append.1 mem with mem | mem
      · exact ⟨scan, step, [], c :: s, rfl, by rwa [List.append_nil], taken, mem,
          fun u => List.mem_append_left _⟩
      · obtain ⟨place, later, w', left', rfl, behind, taken, mem, all⟩ := ih next t mem
        refine ⟨place, later, w ++ w', left', by rw [eq, List.append_assoc], ?_, taken, mem,
          fun u memU => List.mem_append_right _ (all u memU)⟩
        rwa [← List.append_assoc]

/-- The tokens still to come tile the source that remains, and the scan ends at its end. -/
theorem Behind.tiling_tokens (anchored : table.Anchored) (h : scan.Behind before rest) :
    Tiling (byteLength before) rest (scan.tokens table) ∧
      (scan.finish table).Behind (before ++ rest) [] := by
  induction scan using step_induction table generalizing before rest with
  | stop scan stopped =>
    cases rest with
    | nil =>
      rw [tokens_of_step?_eq_none stopped, finish_of_step?_eq_none stopped, List.append_nil]
      exact ⟨.nil, h⟩
    | cons c s =>
      obtain ⟨step, -, -, taken, -⟩ := h.exists_step anchored
      rw [stopped] at taken
      cases taken
  | step scan step taken ih =>
    cases rest with
    | nil =>
      rw [h.step?_eq_none] at taken
      cases taken
    | cons c s =>
      obtain ⟨step', w, rest, taken', eq, -, tiling, next⟩ := h.exists_step anchored
      obtain rfl : step = step' := Option.some.inj (taken.symm.trans taken')
      obtain ⟨later, finish⟩ := ih next
      rw [tokens_of_step?_eq_some taken, finish_of_step?_eq_some taken, eq, ← List.append_assoc]
      rw [byteLength_append] at later
      exact ⟨tiling.append later, finish⟩

end Scan

namespace Cursor

variable {cursor : Cursor} {ahead : List Char}

/-- The cursor has handed out the text `before`, its queue tiles the text `ahead`, behind which its
scan stands, and `rest` remains. -/
structure Stands (cursor : Cursor) (before ahead rest : List Char) : Prop where
  queue : Tiling (byteLength before) ahead cursor.queue
  scan : cursor.scan.Behind (before ++ ahead) rest

theorem stands_start (source : List Char) : (start source).Stands [] [] source :=
  ⟨.nil, Scan.behind_start source⟩

/-- A cursor whose queue is not empty hands out its first token, which stands right behind those
handed out before. -/
theorem Stands.next_of_queue {scan : Scan} {t : Token} {queue : List Token}
    (h : Stands ⟨scan, t :: queue⟩ before ahead rest) :
    ∃ ahead', ahead = t.text ++ ahead' ∧ Tiling (byteLength before) t.text [t] ∧
      Stands ⟨scan, queue⟩ (before ++ t.text) ahead' rest := by
  obtain ⟨tiling, behind⟩ := h
  cases tiling with
  | @cons category _ text ahead' _ nonempty tiling =>
    refine ⟨ahead', rfl, .single nonempty, ?_, ?_⟩
    · rwa [byteLength_append]
    · simpa [Token.ofText] using behind

/-- A cursor hands out a token that stands right behind those handed out before, unless the source
is exhausted. -/
theorem Stands.next (anchored : table.Anchored) (h : cursor.Stands before ahead rest) :
    (ahead = [] ∧ rest = [] ∧ cursor.next table = (none, cursor)) ∨
      ∃ t cursor' ahead' rest', cursor.next table = (some t, cursor') ∧
        Tiling (byteLength before) t.text [t] ∧ cursor'.Stands (before ++ t.text) ahead' rest' ∧
        ahead ++ rest = t.text ++ ahead' ++ rest' := by
  obtain ⟨scan, queue⟩ := cursor
  cases queue with
  | cons t queue =>
    obtain ⟨ahead', rfl, single, stands⟩ := h.next_of_queue
    exact .inr ⟨t, _, ahead', rest, Cursor.next_of_queue, single, stands, rfl⟩
  | nil =>
    obtain ⟨tiling, behind⟩ := h
    cases tiling
    rw [List.append_nil] at behind
    cases rest with
    | nil => exact .inl ⟨rfl, rfl, next_of_step?_eq_none behind.step?_eq_none⟩
    | cons c s =>
      -- the next step fills the queue
      obtain ⟨step, w, rest, taken, eq, nonempty, tiling, place⟩ := behind.exists_step anchored
      obtain ⟨t, queue, tokens_eq⟩ := List.exists_cons_of_ne_nil (tiling.ne_nil nonempty)
      have filled : Stands ⟨step.next, t :: queue⟩ before w rest := ⟨tokens_eq ▸ tiling, place⟩
      obtain ⟨ahead', rfl, single, stands⟩ := filled.next_of_queue
      refine .inr ⟨t, _, ahead', rest, ?_, single, stands, eq⟩
      rw [next_of_step?_eq_some taken, tokens_eq, Cursor.next_of_queue]

/-- After any number of requests the tokens handed out and the queue tile what the scan has left
behind. -/
theorem exists_stands_after (anchored : table.Anchored) (source : List Char) (n : Nat) :
    ∃ before ahead rest, source = before ++ ahead ++ rest ∧
      ((start source).after table n).Stands before ahead rest ∧
      Tiling 0 before (((Scan.start source).tokens table).take n) := by
  induction n with
  | zero => exact ⟨[], [], source, rfl, stands_start source, .nil⟩
  | succ n ih =>
    obtain ⟨before, ahead, rest, eq, stands, tiling⟩ := ih
    have handed := next_after table (start source) n
    rw [remaining_start] at handed
    rw [after, List.take_add_one]
    rcases stands.next anchored with
      ⟨-, -, next⟩ | ⟨t, cursor', ahead', rest', next, single, stands', parts⟩
    · rw [next] at handed ⊢
      rw [← handed]
      exact ⟨before, ahead, rest, eq, stands, by simpa using tiling⟩
    · rw [next] at handed ⊢
      rw [← handed]
      refine ⟨before ++ t.text, ahead', rest', ?_, stands', tiling.append ?_⟩
      · rw [eq, List.append_assoc, parts]
        simp only [List.append_assoc]
      · rwa [Nat.zero_add]

/-- Once all tokens have been handed out, nothing is queued and nothing remains. -/
theorem stands_after_of_length_le (anchored : table.Anchored) {source : List Char} {n : Nat}
    (exhausted : ((Scan.start source).tokens table).length ≤ n) :
    ((start source).after table n).Stands source [] [] ∧
      ((start source).after table n).next table = (none, (start source).after table n) := by
  obtain ⟨before, ahead, rest, eq, stands, -⟩ := exists_stands_after anchored source n
  have handed := next_after table (start source) n
  rw [remaining_start, List.getElem?_eq_none exhausted] at handed
  rcases stands.next anchored with ⟨rfl, rfl, next⟩ | ⟨t, cursor', -, -, next, -⟩
  · rw [List.append_nil, List.append_nil] at eq
    rw [← eq] at stands
    exact ⟨stands, next⟩
  · -- a token handed out now would be one too many
    rw [next] at handed
    cases handed

end Cursor

/-! ## The whole scan -/

/-- Under a well formed grammar a cursor hands out the tokens of the scan one after another, and
nothing once they are exhausted; it then stands at the end of the source. The tokens tile the
source, and together they give it back. -/
theorem tokens_tile_source {grammar : List (Mode × List RuleDef)}
    (wellFormed : WellFormed grammar) (compiled : RuleTable.compile? grammar = some table)
    (source : List Char) :
    let tokens := (Scan.start source).tokens table
    (∀ n, (((Cursor.start source).after table n).next table).1 = tokens[n]?) ∧
      (∀ n, tokens.length ≤ n →
        ((Cursor.start source).after table n).scan.offset = byteLength source) ∧
      tiles source tokens = true ∧
      (∀ t ∈ tokens, t.text ≠ [] ∧ t.stop = t.start + byteLength t.text) ∧
      detokenize tokens = source := by
  intro tokens
  have anchored := RuleTable.anchored_of_compile? wellFormed compiled
  obtain ⟨tiling, -⟩ := (Scan.behind_start source).tiling_tokens anchored
  refine ⟨Cursor.next_after table _, ?_, tiling.tiles_eq_true, tiling.stop_eq, tiling.detokenize_eq⟩
  intro n exhausted
  obtain ⟨stands, -⟩ := Cursor.stands_after_of_length_le anchored exhausted
  rw [stands.scan.offset, List.append_nil]

/-- A grammar with groups that nest, repeat and may be empty or absent, and fewer categories than
groups. -/
def nestedGrammar : List (Mode × List RuleDef) := [
  (.root, [
    .byGroups "nested" "((a)|b)*(c*)(d)?" [.name, .keyword, .operator],
    (RuleDef.whole "open" "<" .punctuation).before "x*" |>.push .balancedRegex]),
  (.balancedRegex, [RuleDef.whole "close" "x*>" .string |>.pop])]

theorem exists_compile?_nestedGrammar :
    ∃ table, RuleTable.compile? nestedGrammar = some table ∧ WellFormed nestedGrammar := by
  have compiles : (RuleTable.compile? nestedGrammar).isSome = true := by decide +kernel
  have wellFormed : WellFormed nestedGrammar := by decide +kernel
  obtain ⟨table, compiled⟩ := Option.isSome_iff_exists.1 compiles
  exact ⟨table, compiled, wellFormed⟩

theorem tokens_tile_source_nested : ∃ table, RuleTable.compile? nestedGrammar = some table ∧
    WellFormed nestedGrammar ∧
    (let source := "abacd<é\nx".toList
     let tokens := (Scan.start source).tokens table
     (∀ n, (((Cursor.start source).after table n).next table).1 = tokens[n]?) ∧
      (∀ n, tokens.length ≤ n →
        ((Cursor.start source).after table n).scan.offset = byteLength source) ∧
      tiles source tokens = true ∧
      (∀ t ∈ tokens, t.text ≠ [] ∧ t.stop = t.start + byteLength t.text) ∧
      detokenize tokens = source) := by
  obtain ⟨table, compiled, wellFormed⟩ := exists_compile?_nestedGrammar
  exact ⟨table, compiled, wellFormed, tokens_tile_source wellFormed compiled _⟩

end FancyTokens
