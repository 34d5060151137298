import FancyTokens.Proofs.Grammar.Fancy
import FancyTokens.Proofs.Scan.Coverage

/-!
# The log of a scan

Whoever reads the log can follow the scan: each event says how the stack of modes changes, and the
stack that has been replayed so far is that of the scan (`exists_replay?`). A step reports at most
one event (`events_of_step?`), so the beginnings of a log are the logs of the places of its scan.
The characters that no rule takes are reported one by one, in the order in which the recovery gives
them out as errors (`filterMap_error?_events`); in a scan of Fancy there are no other errors
(`filter_error_tokens`).
-/

namespace FancyTokens

/-! ## Replay -/

/-- The stack of modes, innermost first, behind an event, if the event fits the stack before it. -/
def Event.replay? (stack : List Mode) : Event → Option (List Mode)
  | .entered _ mode => some (mode :: stack)
  | .left _ mode => if stack.head? = some mode then some stack.tail else none
  | .reset _ mode =>
    if stack.head? = some mode ∧ 1 < stack.length then some (stack.drop (stack.length - 1))
    else none
  | .unmatched .. => some stack

/-- The stack of modes behind some events. -/
def replay? (stack : List Mode) (events : List Event) : Option (List Mode) :=
  events.foldlM Event.replay? stack

/-- The token that goes with a character that no rule takes. -/
def Event.error? : Event → Option Token
  | .unmatched offset _ c => some (.ofText .error offset [c])
  | _ => none

@[simp] theorem replay?_nil (stack : List Mode) : replay? stack [] = some stack := rfl

theorem replay?_cons (stack : List Mode) (event : Event) (events : List Event) :
    replay? stack (event :: events) = (event.replay? stack).bind (replay? · events) := rfl

namespace Scan

/-- The steps of a scan, each with the place from which it is taken. -/
def trail (table : RuleTable) (scan : Scan) : List (Scan × Step) :=
  (scan :: (scan.steps table).map (·.next)).zip (scan.steps table)

/-- No rule takes what remains, which is not empty. -/
def recovers (table : RuleTable) (scan : Scan) : Bool :=
  scan.rest.any fun s => !s.isEmpty && choose (table.rules scan.stack.top) s = .nothing

/-- The errors that the recovery from characters gives, and no others that rules may give. -/
def recoveredErrors (table : RuleTable) (scan : Scan) : List Token :=
  ((scan.trail table).filter (·.1.recovers table)).flatMap (·.2.tokens.filter (·.category = .error))

variable {table : RuleTable} {scan origin : Scan} {done : List Step} {step : Step}
  {c : Char} {rest : List Char}

theorem trail_of_step?_eq_none (h : scan.step? table = none) : scan.trail table = [] := by
  rw [trail, steps_of_step?_eq_none h, List.zip_nil_right]

theorem trail_of_step?_eq_some (h : scan.step? table = some step) :
    scan.trail table = (scan, step) :: step.next.trail table := by
  rw [trail, steps_of_step?_eq_some h, List.map_cons, List.zip_cons_cons, trail]

theorem recoveredErrors_of_step?_eq_none (h : scan.step? table = none) :
    scan.recoveredErrors table = [] := by
  rw [recoveredErrors, trail_of_step?_eq_none h]
  rfl

theorem recoveredErrors_of_step?_eq_some (h : scan.step? table = some step) :
    scan.recoveredErrors table =
      (if scan.recovers table then step.tokens.filter (·.category = .error) else []) ++
        step.next.recoveredErrors table := by
  rw [recoveredErrors, trail_of_step?_eq_some h, List.filter_cons, recoveredErrors]
  split <;> rfl

theorem events_of_step?_eq_none (h : scan.step? table = none) : scan.events table = [] := by
  rw [events, steps_of_step?_eq_none h, List.flatMap_nil]

theorem events_of_step?_eq_some (h : scan.step? table = some step) :
    scan.events table = step.events ++ step.next.events table := by
  rw [events, steps_of_step?_eq_some h, List.flatMap_cons, events]

/-! ## What a step reports -/

/-- A line break that no rule takes leads back to the outermost mode. -/
theorem recover_newline (scan : Scan) (rest : List Char) :
    scan.recover '\n' rest = ⟨[.ofText .whitespace scan.offset ['\n']],
      if scan.stack = .base then [] else [.reset scan.offset scan.stack.top],
      ⟨scan.offset + '\n'.utf8Size, .base, some rest⟩⟩ := by
  unfold recover
  exact if_pos rfl

/-- Any other character that no rule takes becomes an error. -/
theorem recover_of_ne_newline (scan : Scan) (rest : List Char) (other : c ≠ '\n') :
    scan.recover c rest = ⟨[.ofText .error scan.offset [c]],
      [.unmatched scan.offset scan.stack.top c],
      ⟨scan.offset + c.utf8Size, scan.stack, some rest⟩⟩ := by
  unfold recover
  exact if_neg other

theorem events_advance (scan : Scan) (s : List Char) (rule : Rule) (m : RuleMatch)
    (tokens : List Token) : (scan.advance s rule m tokens).events =
      (applyTransition (scan.offset + m.length) scan.stack rule.transition).1 := rfl

theorem stack_next_advance (scan : Scan) (s : List Char) (rule : Rule) (m : RuleMatch)
    (tokens : List Token) : (scan.advance s rule m tokens).next.stack =
      (applyTransition (scan.offset + m.length) scan.stack rule.transition).2 := rfl

/-- At depth one there is no mode to be left. -/
theorem applyTransition_pop_of_depth_eq_one (offset : Nat) {stack : Stack}
    (depth : stack.depth = 1) : applyTransition offset stack .pop = ([], stack) := by
  have empty : stack.above = [] := List.length_eq_zero_iff.1 (Nat.succ.inj depth)
  rw [applyTransition, Stack.pop?, empty]

/-- An event of a step from a place: it fits the stack, it lies between the two offsets of the step,
and a character that no rule takes is reported with the mode. -/
structure Reports (place : Scan) (step : Step) (event : Event) : Prop where
  replay : event.replay? place.stack.toList = some step.next.stack.toList
  lower : place.offset ≤ event.offset
  upper : event.offset ≤ step.next.offset
  mode : ∀ offset mode c, event = .unmatched offset mode c → place.stack.top = mode

theorem reports_entered {offset : Nat} {mode : Mode} (lower : scan.offset ≤ offset)
    (upper : offset ≤ step.next.offset) (stack : step.next.stack = scan.stack.push mode) :
    scan.Reports step (.entered offset mode) where
  replay := by rw [stack]; rfl
  lower := lower
  upper := upper
  mode := by rintro _ _ _ ⟨⟩

theorem reports_left {offset : Nat} {mode : Mode} (lower : scan.offset ≤ offset)
    (upper : offset ≤ step.next.offset)
    (popped : scan.stack.pop? = some (mode, step.next.stack)) :
    scan.Reports step (.left offset mode) where
  replay := by
    rw [Stack.toList_of_pop? popped, Event.replay?, List.head?_cons, if_pos rfl, List.tail_cons]
  lower := lower
  upper := upper
  mode := by rintro _ _ _ ⟨⟩

/-- The outermost mode is what remains of a stack when all above it is taken away. -/
theorem Stack.drop_toList (stack : Stack) :
    stack.toList.drop (stack.toList.length - 1) = Stack.base.toList := by
  simp [Stack.toList, Stack.base]

theorem reports_reset {offset : Nat} (lower : scan.offset ≤ offset)
    (upper : offset ≤ step.next.offset) (deep : scan.stack ≠ .base)
    (stack : step.next.stack = .base) : scan.Reports step (.reset offset scan.stack.top) where
  replay := by
    have above : scan.stack.above ≠ [] := fun empty => deep (congrArg Stack.mk empty)
    have length : 1 < scan.stack.toList.length := by
      have pos := List.length_pos_iff.2 above
      rw [Stack.length_toList, Stack.depth]
      omega
    rw [Event.replay?, if_pos ⟨Stack.head?_toList _, length⟩, Stack.drop_toList, stack]
  lower := lower
  upper := upper
  mode := by rintro _ _ _ ⟨⟩

theorem reports_unmatched {offset : Nat} (lower : scan.offset ≤ offset)
    (upper : offset ≤ step.next.offset) (stack : step.next.stack = scan.stack) :
    scan.Reports step (.unmatched offset scan.stack.top c) where
  replay := by rw [stack]; rfl
  lower := lower
  upper := upper
  mode := by rintro _ _ _ ⟨⟩; rfl

/-- A step reports nothing and leaves the stack as it is, or it reports one event. -/
theorem events_of_step? (taken : scan.step? table = some step) :
    (step.events = [] ∧ step.next.stack = scan.stack) ∨
      ∃ event, step.events = [event] ∧ scan.Reports step event := by
  obtain ⟨c, s, -, ⟨-, rfl⟩ | ⟨rule, m, tokens, -, -, rfl⟩⟩ := step?_eq_some_iff.1 taken
  · by_cases newline : c = '\n'
    · rw [newline, recover_newline]
      by_cases outermost : scan.stack = .base
      · rw [if_pos outermost]
        exact .inl ⟨rfl, outermost.symm⟩
      · rw [if_neg outermost]
        exact .inr ⟨_, rfl, reports_reset (Nat.le_refl _) (Nat.le_add_right ..) outermost rfl⟩
    · rw [recover_of_ne_newline scan s newline]
      exact .inr ⟨_, rfl, reports_unmatched (Nat.le_refl _) (Nat.le_add_right ..) rfl⟩
  · -- the offset of the event is that behind the match
    have lower : scan.offset ≤ scan.offset + m.length := Nat.le_add_right ..
    have stack := stack_next_advance scan (c :: s) rule m tokens
    rw [events_advance]
    cases transition : rule.transition with
    | stay =>
      rw [transition] at stack
      exact .inl ⟨rfl, stack⟩
    | push mode =>
      rw [transition] at stack
      exact .inr ⟨_, rfl, reports_entered lower (Nat.le_refl _) stack⟩
    | pop =>
      rw [transition, applyTransition] at stack
      rw [applyTransition]
      cases popped : scan.stack.pop? with
      | none =>
        rw [popped] at stack
        exact .inl ⟨rfl, stack⟩
      | some parts =>
        rw [popped] at stack
        refine .inr ⟨_, rfl, reports_left lower (Nat.le_refl _) ?_⟩
        rw [popped, stack]

/-- A rule that leaves the mode at depth one changes the stack as little as it reports anything. -/
theorem silent_of_pop {rule : Rule} {m : RuleMatch} {s : List Char}
    (taken : scan.step? table = some step) (rest : scan.rest = some s)
    (chosen : choose (table.rules scan.stack.top) s = .rule rule m)
    (pops : rule.transition = .pop) (depth : scan.stack.depth = 1) :
    step.events = [] ∧ step.next.stack = scan.stack := by
  obtain ⟨c, s', rest', ⟨chosen', -⟩ | ⟨rule', m', tokens, chosen', -, rfl⟩⟩ :=
    step?_eq_some_iff.1 taken
  all_goals
    obtain rfl : s = c :: s' := Option.some.inj (rest.symm.trans rest')
    rw [chosen] at chosen'
    cases chosen'
  have stays := applyTransition_pop_of_depth_eq_one (scan.offset + m.length) depth
  rw [events_advance, stack_next_advance, pops, stays]
  exact ⟨rfl, rfl⟩

/-- Each step moves forward, and makes the stack deeper by one mode at most. -/
theorem offset_depth_of_step? (taken : scan.step? table = some step) :
    scan.offset < step.next.offset ∧ step.next.stack.depth ≤ scan.stack.depth + 1 := by
  constructor
  · obtain ⟨c, s, -, ⟨-, rfl⟩ | ⟨rule, m, tokens, chosen, -, rfl⟩⟩ := step?_eq_some_iff.1 taken
    · have pos := c.utf8Size_pos
      rw [recover]
      split <;> exact Nat.lt_add_of_pos_right pos
    · exact Nat.lt_add_of_pos_right (length_pos_of_choose chosen)
  · rcases events_of_step? taken with ⟨-, same⟩ | ⟨event, -, reports⟩
    · rw [same]
      exact Nat.le_succ _
    · -- the replayed event pushes one mode or takes some away
      have replayed := reports.replay
      rw [← Stack.length_toList, ← Stack.length_toList]
      generalize step.next.stack.toList = after at replayed
      generalize scan.stack.toList = before at replayed
      cases event with
      | entered =>
        cases replayed
        exact Nat.le_refl _
      | left =>
        obtain ⟨-, eq⟩ := Option.ite_none_right_eq_some.1 replayed
        cases eq
        rw [List.length_tail]
        omega
      | reset =>
        obtain ⟨-, eq⟩ := Option.ite_none_right_eq_some.1 replayed
        cases eq
        rw [List.length_drop]
        omega
      | unmatched =>
        cases replayed
        exact Nat.le_succ _

/-! ## The whole log -/

/-- Each beginning of the log can be replayed, and gives the stack of some place: that at the end,
if the log ends there, and one in the mode that is reported with a character that no rule takes, if
such a report comes next. -/
theorem exists_replay? (scan : Scan) (earlier later : List Event)
    (eq : scan.events table = earlier ++ later) :
    ∃ stack : Stack, replay? scan.stack.toList earlier = some stack.toList ∧
      (later = [] → stack = (scan.finish table).stack) ∧
      ∀ offset mode c, later.head? = some (.unmatched offset mode c) → stack.top = mode := by
  induction scan using step_induction table generalizing earlier with
  | stop scan h =>
    rw [events_of_step?_eq_none h] at eq
    obtain ⟨rfl, rfl⟩ := List.append_eq_nil_iff.1 eq.symm
    refine ⟨scan.stack, rfl, fun _ => ?_, by simp⟩
    rw [finish_of_step?_eq_none h]
  | step scan step taken ih =>
    rw [events_of_step?_eq_some taken] at eq
    rw [finish_of_step?_eq_some taken]
    rcases events_of_step? taken with ⟨silent, same⟩ | ⟨event, single, reports⟩
    · rw [silent, List.nil_append] at eq
      rw [← same]
      exact ih earlier eq
    · rw [single, List.singleton_append] at eq
      cases earlier with
      | nil =>
        -- the report of this step comes next
        rw [List.nil_append] at eq
        rw [← eq]
        refine ⟨scan.stack, rfl, fun empty => absurd empty (List.cons_ne_nil _ _), ?_⟩
        intro offset mode c next
        exact reports.mode offset mode c (Option.some.inj next)
      | cons event' earlier =>
        obtain ⟨rfl, behind⟩ := List.cons.inj eq
        rw [replay?_cons, reports.replay, Option.bind_some]
        exact ih earlier behind

/-- The offsets in the log do not decrease, and none lies before the place where the scan starts. -/
theorem pairwise_offset_events (scan : Scan) :
    (scan.events table).Pairwise (·.offset ≤ ·.offset) ∧
      ∀ event ∈ scan.events table, scan.offset ≤ event.offset := by
  induction scan using step_induction table with
  | stop scan h =>
    rw [events_of_step?_eq_none h]
    exact ⟨.nil, by simp⟩
  | step scan step taken ih =>
    obtain ⟨sorted, lower⟩ := ih
    obtain ⟨forward, -⟩ := offset_depth_of_step? taken
    have behind : ∀ event ∈ step.next.events table, scan.offset ≤ event.offset :=
      fun event mem => Nat.le_trans (Nat.le_of_lt forward) (lower event mem)
    rw [events_of_step?_eq_some taken]
    rcases events_of_step? taken with ⟨silent, -⟩ | ⟨event, single, reports⟩
    · rw [silent, List.nil_append]
      exact ⟨sorted, behind⟩
    · rw [single, List.singleton_append]
      refine ⟨sorted.cons fun event' mem => Nat.le_trans reports.upper (lower event' mem), ?_⟩
      intro event' mem
      rcases List.mem_cons.1 mem with rfl | mem
      · exact reports.lower
      · exact behind event' mem

/-- The stack never gets deeper than the bytes that have been scanned allow. -/
theorem Run.depth_le (run : Run table origin done scan)
    (start : origin.stack.depth ≤ 1 + origin.offset) : scan.stack.depth ≤ 1 + scan.offset := by
  induction run with
  | start => exact start
  | snoc _ taken ih =>
    obtain ⟨forward, deeper⟩ := offset_depth_of_step? taken
    omega

/-! ## Errors -/

theorem recovers_eq_true {s : List Char} (rest : scan.rest = some (c :: s))
    (chosen : choose (table.rules scan.stack.top) (c :: s) = .nothing) :
    scan.recovers table = true := by
  simp [recovers, rest, chosen]

theorem recovers_eq_false {s : List Char} {rule : Rule} {m : RuleMatch}
    (rest : scan.rest = some (c :: s))
    (chosen : choose (table.rules scan.stack.top) (c :: s) = .rule rule m) :
    scan.recovers table = false := by
  simp [recovers, rest, chosen]

/-- The characters that a step reports are the errors that it gives in recovering. -/
theorem filterMap_error?_of_step? (taken : scan.step? table = some step) :
    step.events.filterMap Event.error? =
      if scan.recovers table then step.tokens.filter (·.category = .error) else [] := by
  obtain ⟨c, s, rest, ⟨chosen, rfl⟩ | ⟨rule, m, tokens, chosen, -, rfl⟩⟩ :=
    step?_eq_some_iff.1 taken
  · rw [recovers_eq_true rest chosen, if_pos rfl]
    by_cases newline : c = '\n'
    · rw [newline, recover_newline]
      split <;> rfl
    · rw [recover_of_ne_newline scan s newline]
      rfl
  · rw [recovers_eq_false rest chosen, events_advance]
    cases rule.transition with
    | stay => rfl
    | push mode => rfl
    | pop =>
      rw [applyTransition]
      cases scan.stack.pop? <;> rfl

/-- The characters that the log reports are, one by one, the errors of the recovery. -/
theorem filterMap_error?_events (scan : Scan) :
    (scan.events table).filterMap Event.error? = scan.recoveredErrors table := by
  induction scan using step_induction table with
  | stop scan h =>
    rw [events_of_step?_eq_none h, recoveredErrors_of_step?_eq_none h, List.filterMap_nil]
  | step scan step taken ih =>
    rw [events_of_step?_eq_some taken, recoveredErrors_of_step?_eq_some taken,
      List.filterMap_append, filterMap_error?_of_step? taken, ih]

/-- Rules that give no errors leave them to the recovery. -/
theorem filter_error_tokens
    (plain : ∀ mode, ∀ rule ∈ table.rules mode, .error ∉ rule.action.categories) (scan : Scan) :
    (scan.tokens table).filter (·.category = .error) = scan.recoveredErrors table := by
  induction scan using step_induction table with
  | stop scan h =>
    rw [tokens_of_step?_eq_none h, recoveredErrors_of_step?_eq_none h, List.filter_nil]
  | step scan step taken ih =>
    rw [tokens_of_step?_eq_some taken, recoveredErrors_of_step?_eq_some taken,
      List.filter_append, ih]
    obtain ⟨c, s, rest, ⟨chosen, -⟩ | ⟨rule, m, tokens, chosen, emitted, rfl⟩⟩ :=
      step?_eq_some_iff.1 taken
    · rw [recovers_eq_true rest chosen, if_pos rfl]
    · have none_given : tokens.filter (·.category = .error) = [] := by
        rw [List.filter_eq_nil_iff]
        intro t mem
        obtain ⟨memRules, -⟩ := mem_of_choose chosen
        rw [decide_eq_true_iff]
        intro isError
        rcases category_of_mem_emission? emitted t mem with gap | listed
        · rw [isError] at gap
          cases gap
        · exact plain _ rule memRules (isError ▸ listed)
      rw [recovers_eq_false rest chosen, advance, none_given]
      rfl

end Scan

/-- No rule of Fancy gives an error. -/
theorem error_notMem_categories (mode : Mode) :
    ∀ rule ∈ fancyTable.rules mode, .error ∉ rule.action.categories := by
  intro rule mem
  obtain ⟨defs, memGrammar, d, memDefs, compiled⟩ :=
    RuleTable.exists_of_mem_rules compile?_fancyGrammar mem
  obtain ⟨-, action, -⟩ := Rule.of_compile? compiled
  have plain : ∀ entry ∈ fancyGrammar, ∀ d ∈ entry.2, .error ∉ d.action.categories := by decide
  rw [action]
  exact plain _ memGrammar d memDefs

/-! ## The log and the scan -/

/-- The log of a scan can be replayed from the outermost mode on: every beginning of it fits and
keeps the outermost mode at the bottom, and all of it gives the stack at the end. Its offsets do not
decrease. The characters that it reports are, in order, the errors of the recovery, each with the
mode that has been replayed, and in a scan of Fancy these are all errors. At every place of a scan
the outermost mode is at the bottom, the depth is at most one more than the offset, and a rule that
leaves the mode at depth one changes and reports nothing. -/
theorem log_replays (table : RuleTable) (source : List Char) :
    let scan := Scan.start source
    let log := scan.events table
    (∀ earlier later, log = earlier ++ later → ∃ stack, replay? [.root] earlier = some stack ∧
        stack.getLast? = some .root ∧
        ∀ offset mode c, later.head? = some (.unmatched offset mode c) →
          stack.head? = some mode) ∧
      (∃ stack, replay? [.root] log = some stack ∧
        stack.head? = some (scan.finish table).stack.top ∧
        stack.length = (scan.finish table).stack.depth) ∧
      log.Pairwise (·.offset ≤ ·.offset) ∧
      log.filterMap Event.error? = scan.recoveredErrors table ∧
      (tokenize source).filter (·.category = .error) = scan.recoveredErrors fancyTable ∧
      (∀ done place, Scan.Run table scan done place →
        place.stack.toList.getLast? = some .root ∧ place.stack.depth ≤ 1 + place.offset ∧
          ∀ step rule m s, place.step? table = some step → place.rest = some s →
            choose (table.rules place.stack.top) s = .rule rule m → rule.transition = .pop →
            place.stack.depth = 1 → step.events = [] ∧ step.next.stack = place.stack) ∧
      ∀ n, let place := ((Cursor.start source).after table n).scan
        place.stack.toList.getLast? = some .root ∧ place.stack.depth ≤ 1 + place.offset := by
  intro scan log
  have bottom (stack : Stack) : stack.toList.getLast? = some .root := List.getLast?_concat
  have shallow {done : List Step} {place : Scan} (run : Scan.Run table scan done place) :
      place.stack.depth ≤ 1 + place.offset :=
    run.depth_le (Nat.le_refl 1)
  refine ⟨?_, ?_, (Scan.pairwise_offset_events scan).1, Scan.filterMap_error?_events scan,
    Scan.filter_error_tokens error_notMem_categories scan, ?_, ?_⟩
  · intro earlier later eq
    obtain ⟨stack, replayed, -, next⟩ := Scan.exists_replay? scan earlier later eq
    refine ⟨stack.toList, replayed, bottom stack, fun offset mode c reported => ?_⟩
    rw [Stack.head?_toList, next offset mode c reported]
  · obtain ⟨stack, replayed, final, -⟩ :=
      Scan.exists_replay? scan log [] (List.append_nil log).symm
    rw [← final rfl]
    exact ⟨stack.toList, replayed, Stack.head?_toList stack, Stack.length_toList stack⟩
  · intro done place run
    refine ⟨bottom place.stack, shallow run, fun step rule m s taken rest chosen pops depth => ?_⟩
    exact Scan.silent_of_pop taken rest chosen pops depth
  · intro n place
    obtain ⟨done, run⟩ := Cursor.exists_run_after table (Cursor.start source) n
    exact ⟨bottom place.stack, shallow run⟩

/-- A scan that enters a mode, meets a character that no rule of it takes, is led back by a line
break and meets another such character in the outermost mode. -/
theorem log_replays_nested : ∃ table, RuleTable.compile? nestedGrammar = some table ∧
    (let log := (Scan.start "<é\nx".toList).events table
     log = [.entered 1 .balancedRegex, .unmatched 1 .balancedRegex 'é'] ++
        [.reset 3 .balancedRegex, .unmatched 4 .root 'x'] ∧
      (∃ stack, replay? [.root] [.entered 1 .balancedRegex, .unmatched 1 .balancedRegex 'é'] =
        some stack ∧ stack.getLast? = some .root) ∧
      (Scan.start "<é\nx".toList).recoveredErrors table =
        [.ofText .error 1 ['é'], .ofText .error 4 ['x']]) := by
  have evaluated : (RuleTable.compile? nestedGrammar).map
      (fun table => (Scan.start "<é\nx".toList).events table) =
        some ([.entered 1 .balancedRegex, .unmatched 1 .balancedRegex 'é'] ++
          [.reset 3 .balancedRegex, .unmatched 4 .root 'x']) := by
    decide +kernel
  obtain ⟨table, compiled, log⟩ := Option.map_eq_some_iff.1 evaluated
  obtain ⟨replays, -, -, errors, -⟩ := log_replays table "<é\nx".toList
  obtain ⟨stack, replayed, bottom, -⟩ := replays _ _ log
  refine ⟨table, compiled, log, ⟨stack, replayed, bottom⟩, ?_⟩
  rw [← errors, log]
  rfl

end FancyTokens
