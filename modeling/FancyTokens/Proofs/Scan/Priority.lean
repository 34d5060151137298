import FancyTokens.Proofs.Scan.Division
import FancyTokens.Proofs.Scan.Log

/-!
# The order of rules is their only priority

A scan depends on its table through what is chosen at the places that it comes to. Two tables that
choose alike at these places take the same steps (`Scan.Run.transfer`, `RunAlike.of_choose`).

Rules behind all others of a mode change nothing before the first recovery, and rules that never
decide can be deleted (`order_decides`). The rule of Fancy for whole numbers that nothing follows is
such a rule in every source.
-/

namespace FancyTokens

/-! ## Tables with more and with fewer rules -/

/-- The table with further rules behind those of each mode. -/
def RuleTable.append (table : RuleTable) (more : Mode → List Rule) : RuleTable :=
  ⟨fun mode => table.rules mode ++ more mode⟩

/-- The table with the rules at some places of each mode, and no others. -/
def RuleTable.restrict (table : RuleTable) (kept : Mode → Nat → Bool) : RuleTable :=
  ⟨fun mode => ((table.rules mode).zipIdx.filter fun entry => kept mode entry.2).map Prod.fst⟩

theorem RuleTable.rules_set_self (table : RuleTable) (mode : Mode) (rules : List Rule) :
    (table.set mode rules).rules mode = rules :=
  if_pos rfl

theorem RuleTable.rules_set_of_ne {mode mode' : Mode} (other : mode' ≠ mode) (table : RuleTable)
    (rules : List Rule) : (table.set mode rules).rules mode' = table.rules mode' :=
  if_neg other

/-- The place of the first rule that does not miss. What it makes of the text decides, as no rule
behind it is tried. -/
def decider? (rules : List Rule) (s : List Char) : Option Nat :=
  rules.findIdx? fun rule => rule.attempt s ≠ .missed

variable {table table' : RuleTable} {rules : List Rule} {s : List Char}

theorem decider?_of_missed {first : Rule} (h : first.attempt s = .missed) :
    decider? (first :: rules) s = (decider? rules s).map (· + 1) := by
  rw [decider?, List.findIdx?_cons, h]
  rfl

theorem decider?_of_ne_missed {first : Rule} (h : first.attempt s ≠ .missed) :
    decider? (first :: rules) s = some 0 := by
  rw [decider?, List.findIdx?_cons, decide_eq_true h]
  rfl

/-- Where all rules miss, none decides. -/
theorem decider?_eq_none (h : choose rules s = .nothing) : decider? rules s = none := by
  refine List.findIdx?_eq_none_iff.2 fun rule mem => ?_
  rw [choose_eq_nothing_iff.1 h rule mem]
  rfl

/-- The rule that is chosen is the one that decides. -/
theorem exists_decider?_of_choose {rule : Rule} {m : RuleMatch}
    (chosen : choose rules s = .rule rule m) :
    ∃ i, decider? rules s = some i ∧ rules[i]? = some rule := by
  induction rules with
  | nil => cases chosen
  | cons first rules ih =>
    rw [choose] at chosen
    cases attempt : first.attempt s with
    | missed =>
      rw [attempt] at chosen
      obtain ⟨i, decides, found⟩ := ih chosen
      refine ⟨i + 1, ?_, found⟩
      rw [decider?_of_missed attempt, decides, Option.map_some]
    | torn =>
      rw [attempt] at chosen
      cases chosen
    | matched m' =>
      rw [attempt] at chosen
      cases chosen
      exact ⟨0, decider?_of_ne_missed (by simp [attempt]), rfl⟩

/-- Rules behind others do not matter where one of these does not miss. -/
theorem choose_append_of_ne_nothing (more : List Rule) (h : choose rules s ≠ .nothing) :
    choose (rules ++ more) s = choose rules s := by
  induction rules with
  | nil => exact absurd rfl h
  | cons first rules ih =>
    rw [choose] at h
    rw [List.cons_append, choose, choose]
    cases attempt : first.attempt s with
    | missed =>
      rw [attempt] at h
      exact ih h
    | torn => rfl
    | matched m => rfl

/-- Only the rule that decides matters. -/
theorem choose_restrict {kept : Nat → Bool} (k : Nat)
    (h : ∀ i ∈ decider? rules s, kept (k + i) = true) :
    choose (((rules.zipIdx k).filter fun entry => kept entry.2).map Prod.fst) s =
      choose rules s := by
  induction rules generalizing k with
  | nil => rfl
  | cons first rules ih =>
    rw [List.zipIdx_cons, List.filter_cons]
    cases attempt : first.attempt s with
    | missed =>
      -- the first rule may be kept or not
      have later : ∀ i ∈ decider? rules s, kept (k + 1 + i) = true := by
        intro i decides
        have keeps := h (i + 1) (by rw [decider?_of_missed attempt, decides]; rfl)
        rwa [Nat.add_right_comm, Nat.add_assoc]
      rw [choose_of_missed attempt, ← ih (k + 1) later]
      by_cases here : kept k = true
      · rw [if_pos here, List.map_cons, choose_of_missed attempt]
      · rw [if_neg here]
    | torn =>
      have here : kept k = true := h 0 (decider?_of_ne_missed (by simp [attempt]))
      rw [if_pos here, List.map_cons, choose, choose, attempt]
    | matched m =>
      have here : kept k = true := h 0 (decider?_of_ne_missed (by simp [attempt]))
      rw [if_pos here, List.map_cons, choose_of_matched attempt, choose_of_matched attempt]

/-- Places that are told by the rules standing there. -/
theorem restrict_eq_filter (rules : List Rule) (kept : Nat → Bool) (keep : Rule → Bool)
    (h : ∀ i rule, rules[i]? = some rule → kept i = keep rule) :
    ((rules.zipIdx.filter fun entry => kept entry.2).map Prod.fst) = rules.filter keep := by
  have same : ∀ entry ∈ rules.zipIdx, kept entry.2 = keep entry.1 :=
    fun entry mem => h _ _ (List.mem_zipIdx_iff_getElem?.1 mem)
  conv_rhs => rw [← List.zipIdx_map_fst 0 rules, List.filter_map]
  rw [List.filter_congr same]
  rfl

/-! ## Scans under two tables -/

namespace Scan

variable {origin scan place : Scan} {done later : List Step} {step : Step}

/-- On the way from the origin to `scan` a step is taken from `place`. -/
def Passes (table : RuleTable) (origin scan place : Scan) : Prop :=
  ∃ done step later, Run table origin done place ∧ place.step? table = some step ∧
    Run table step.next later scan

theorem Passes.of_run (run : Run table origin done scan) (taken : scan.step? table = some step)
    (more : Run table step.next later place) : Passes table origin place scan :=
  ⟨done, step, later, run, taken, more⟩

/-- What is passed on the way to a place is passed on the way to a later one. -/
theorem Passes.trans {target : Scan} (h : Passes table origin scan place)
    (more : Run table scan later target) : Passes table origin target place := by
  obtain ⟨done, step, middle, run, taken, run'⟩ := h
  exact .of_run run taken (run'.trans more)

/-- What is passed on the way from a place is passed on the way from an earlier one. -/
theorem Passes.of_later {middle : Scan} (before : Run table origin done middle)
    (h : Passes table middle scan place) : Passes table origin scan place := by
  obtain ⟨_, step, _, run, taken, run'⟩ := h
  exact .of_run (before.trans run) taken run'

/-- The next step depends on the table through what is chosen. -/
theorem step?_congr (h : ∀ c s, scan.rest = some (c :: s) →
    choose (table'.rules scan.stack.top) (c :: s) = choose (table.rules scan.stack.top) (c :: s)) :
    scan.step? table' = scan.step? table := by
  unfold step?
  split
  · rfl
  · rfl
  · rename_i c s rest
    rw [h c s rest]

/-- A run is one under another table, if the same steps are taken from all places on its way. -/
theorem Run.transfer (run : Run table origin done scan)
    (same : ∀ place, Passes table origin scan place →
      place.step? table' = place.step? table) : Run table' origin done scan := by
  induction run with
  | start => exact .start
  | snoc run taken ih =>
    refine (ih fun place passed => same place (passed.trans (.single taken))).snoc ?_
    rw [same _ (.of_run run taken .start)]
    exact taken

theorem steps_congr (same : ∀ done place, Run table origin done place →
    place.step? table' = place.step? table) : origin.steps table' = origin.steps table := by
  induction origin using step_induction table with
  | stop scan stopped =>
    rw [steps_of_step?_eq_none stopped, steps_of_step?_eq_none]
    rw [same [] scan .start, stopped]
  | step scan step taken ih =>
    have taken' : scan.step? table' = some step := by rw [same [] scan .start, taken]
    rw [steps_of_step?_eq_some taken, steps_of_step?_eq_some taken']
    exact congrArg _ (ih fun done place run => same _ place ((Run.single taken).trans run))

end Scan

namespace Cursor

variable {cursor : Cursor}

/-- A request for a token gives the same under another table, if the same steps are taken from all
places on its way, and none where the scan stops. -/
theorem next_congr
    (same : ∀ place, Scan.Passes table cursor.scan (cursor.next table).2.scan place →
      place.step? table' = place.step? table)
    (stops : ∀ done place, Scan.Run table cursor.scan done place → place.step? table = none →
      place.step? table' = none) :
    cursor.next table' = cursor.next table := by
  obtain ⟨scan, queue⟩ := cursor
  induction scan using Scan.step_induction table generalizing queue with
  | stop scan stopped =>
    cases queue with
    | nil =>
      rw [next_of_step?_eq_none stopped, next_of_step?_eq_none (stops [] scan .start stopped)]
    | cons t queue => rw [next_of_queue, next_of_queue]
  | step scan step taken ih =>
    cases queue with
    | nil =>
      obtain ⟨done, more⟩ := exists_run_next table ⟨step.next, step.tokens⟩
      rw [next_of_step?_eq_some taken] at same ⊢
      have here := same scan (.of_run .start taken more)
      rw [next_of_step?_eq_some (here.trans taken)]
      apply ih step.tokens
      · exact fun place passed => same place (passed.of_later (.single taken))
      · exact fun later place run => stops _ place ((Scan.Run.single taken).trans run)
    | cons t queue => rw [next_of_queue, next_of_queue]

/-- Requests that give the same one by one lead to the same cursor. -/
theorem after_congr {n : Nat} (same : ∀ k < n, (cursor.after table' k).next table' =
    (cursor.after table k).next table) : cursor.after table' n = cursor.after table n := by
  cases n with
  | zero => rfl
  | succ n => exact congrArg Prod.snd (same n (Nat.lt_succ_self n))

/-- The scan of a cursor goes on with each request. -/
theorem exists_run_after_of_le (table : RuleTable) (cursor : Cursor) {k n : Nat} (le : k ≤ n) :
    ∃ done, Scan.Run table (cursor.after table k).scan done (cursor.after table n).scan := by
  induction le with
  | refl => exact ⟨[], .start⟩
  | step _ ih =>
    obtain ⟨done, run⟩ := ih
    obtain ⟨more, further⟩ := exists_run_next table _
    exact ⟨done ++ more, run.trans further⟩

/-- Some requests give the same under another table, if the same steps are taken from all places on
their way, and none where the scan stops. -/
theorem next_after_congr {n : Nat}
    (same : ∀ place, Scan.Passes table cursor.scan (cursor.after table n).scan place →
      place.step? table' = place.step? table)
    (stops : ∀ done place, Scan.Run table cursor.scan done place → place.step? table = none →
      place.step? table' = none) :
    ∀ k < n, (cursor.after table' k).next table' = (cursor.after table k).next table := by
  intro k
  induction k using Nat.strongRecOn with
  | ind k ih =>
    intro lt
    rw [after_congr fun j less => ih j less (Nat.lt_trans less lt)]
    obtain ⟨before, run⟩ := exists_run_after table cursor k
    obtain ⟨behind, further⟩ := exists_run_after_of_le table cursor lt
    apply next_congr
    · exact fun place passed => same place ((passed.of_later run).trans further)
    · exact fun done place more => stops _ place (run.trans more)

end Cursor

/-- Over a source two tables take the same steps, and a cursor hands out the same token on each
request, and stands at the same place with the same tokens queued. -/
structure RunAlike (table table' : RuleTable) (source : List Char) : Prop where
  steps : (Scan.start source).steps table' = (Scan.start source).steps table
  next : ∀ n, ((Cursor.start source).after table' n).next table' =
    ((Cursor.start source).after table n).next table

variable {source : List Char}

theorem RunAlike.of_step? (same : ∀ done place, Scan.Run table (.start source) done place →
    place.step? table' = place.step? table) : RunAlike table table' source where
  steps := Scan.steps_congr same
  next := by
    intro n
    refine Cursor.next_after_congr (n := n + 1) ?_ ?_ n (Nat.lt_succ_self n)
    · rintro place ⟨done, -, -, run, -, -⟩
      exact same done place run
    · exact fun done place run stopped => (same done place run).trans stopped

/-- Tables that choose alike at all places of a scan run alike. -/
theorem RunAlike.of_choose (same : ∀ done place c s, Scan.Run table (.start source) done place →
    place.rest = some (c :: s) → choose (table'.rules place.stack.top) (c :: s) =
      choose (table.rules place.stack.top) (c :: s)) : RunAlike table table' source :=
  .of_step? fun done place run => Scan.step?_congr fun c s rest => same done place c s run rest

/-- Rules of which none decides at any place of a scan can be left out. -/
theorem RunAlike.restrict {kept : Mode → Nat → Bool}
    (keeps : ∀ done place c s, Scan.Run table (.start source) done place →
      place.rest = some (c :: s) → ∀ i ∈ decider? (table.rules place.stack.top) (c :: s),
        kept place.stack.top i = true) : RunAlike table (table.restrict kept) source := by
  refine .of_choose fun done place c s run rest => choose_restrict 0 fun i decides => ?_
  rw [Nat.zero_add]
  exact keeps done place c s run rest i decides

/-! ## Rules behind all others -/

section Append

variable {scan : Scan}

/-- Further rules matter only where the scanner would recover. -/
theorem Scan.step?_append (more : Mode → List Rule) (h : scan.recovers table = false) :
    scan.step? (table.append more) = scan.step? table := by
  apply step?_congr
  intro c s rest
  apply choose_append_of_ne_nothing
  intro nothing
  rw [recovers_eq_true rest nothing] at h
  cases h

/-- Where there is no step, there is no recovery. -/
theorem Scan.recovers_of_step?_eq_none (h : scan.step? table = none) :
    scan.recovers table = false := by
  cases rest : scan.rest with
  | none => simp [recovers, rest]
  | some left =>
    cases left with
    | nil => simp [recovers, rest]
    | cons c s =>
      have chosen : choose (table.rules scan.stack.top) (c :: s) ≠ .nothing := by
        intro nothing
        rw [step?_eq_some_iff.2 ⟨c, s, rest, .inl ⟨nothing, rfl⟩⟩] at h
        cases h
      simp [recovers, rest, chosen]

end Append

/-! ## Fancy without a rule -/

/-- The grammar without the rules of a name. -/
def withoutRule (name : String) (grammar : List (Mode × List RuleDef)) :
    List (Mode × List RuleDef) :=
  grammar.map fun (mode, defs) => (mode, defs.filter fun d => d.name ≠ name)

theorem mapM_filter_name {defs : List RuleDef} (h : defs.mapM Rule.compile? = some rules)
    (keep : String → Bool) : (defs.filter fun d => keep d.name).mapM Rule.compile? =
      some (rules.filter fun rule => keep rule.name) := by
  induction defs generalizing rules with
  | nil =>
    cases h
    rfl
  | cons d defs ih =>
    rw [List.mapM_cons] at h
    obtain ⟨rule, first, h⟩ := Option.bind_eq_some_iff.1 h
    obtain ⟨others, more, h⟩ := Option.bind_eq_some_iff.1 h
    cases h
    rw [List.filter_cons, List.filter_cons, Rule.name_of_compile? first]
    by_cases kept : keep d.name = true
    · rw [if_pos kept, if_pos kept, List.mapM_cons, first, ih more]
      rfl
    · rw [if_neg kept, if_neg kept, ih more]

/-- The grammar of Fancy without the rules of a name gives the table without these rules. -/
theorem compile?_withoutRule (name : String) :
    RuleTable.compile? (withoutRule name fancyGrammar) = some (fancyTable.restrict fun mode i =>
      (fancyTable.rules mode)[i]?.all fun rule => rule.name ≠ name) := by
  have filtered (mode : Mode) := restrict_eq_filter (fancyTable.rules mode)
    (fun i => (fancyTable.rules mode)[i]?.all fun rule => rule.name ≠ name)
    (fun rule => rule.name ≠ name) (by
      intro i rule found
      rw [found, Option.all_some])
  have root := mapM_filter_name mapM_rootRules fun n => n ≠ name
  have balanced := mapM_filter_name mapM_balancedRegexRules fun n => n ≠ name
  rw [RuleTable.compile?, withoutRule, fancyGrammar, List.map_cons, List.map_singleton]
  simp only [List.foldlM_cons, List.foldlM_nil, root, balanced, Option.map_some,
    Option.bind_eq_bind, Option.bind_some]
  refine congrArg (fun rules => some (RuleTable.mk rules)) (funext fun mode => ?_)
  change (RuleTable.set _ _ _).rules mode = _
  rw [filtered mode]
  cases mode with
  | root => rw [RuleTable.rules_set_of_ne (by decide), RuleTable.rules_set_self]
  | balancedRegex => rw [RuleTable.rules_set_self]

/-- The last rule of ordinary source decides nothing. -/
theorem ne_integer_plain_of_decider? {mode : Mode} {i : Nat} {rule : Rule}
    (decides : decider? (fancyTable.rules mode) s = some i)
    (found : (fancyTable.rules mode)[i]? = some rule) : rule.name ≠ "integer-plain" := by
  cases chosen : choose (fancyTable.rules mode) s with
  | nothing =>
    rw [decider?_eq_none chosen] at decides
    cases decides
  | torn => exact absurd chosen (fancyTable_anchored.choose_ne_torn mode s)
  | rule winner m =>
    obtain ⟨j, decides', found'⟩ := exists_decider?_of_choose chosen
    obtain rfl : i = j := Option.some.inj (decides.symm.trans decides')
    obtain rfl : rule = winner := Option.some.inj (found.symm.trans found')
    exact ne_integer_plain_of_choose chosen

/-- Only the order of the rules decides between them. Rules behind all others of a mode leave a scan
as it is up to the first place where it recovers, and so it is with a cursor that has not passed
such a place; a scan that never recovers they leave as it is. Rules of which none decides at any
place of a scan can be deleted. In Fancy the rule for whole numbers that nothing follows can be
deleted for every source. -/
theorem order_decides (table : RuleTable) (source : List Char) :
    (∀ more,
      (∀ done scan, Scan.Run table (.start source) done scan →
        (∀ place, Scan.Passes table (.start source) scan place → place.recovers table = false) →
        Scan.Run (table.append more) (.start source) done scan) ∧
      (∀ n, (∀ place, Scan.Passes table (.start source) ((Cursor.start source).after table n).scan
          place → place.recovers table = false) →
        ∀ k < n, ((Cursor.start source).after (table.append more) k).next (table.append more) =
          ((Cursor.start source).after table k).next table) ∧
      ((∀ done place, Scan.Run table (.start source) done place →
          place.recovers table = false) →
        RunAlike table (table.append more) source)) ∧
    (∀ kept, (∀ done place c s, Scan.Run table (.start source) done place →
          place.rest = some (c :: s) → ∀ i ∈ decider? (table.rules place.stack.top) (c :: s),
            kept place.stack.top i = true) →
        RunAlike table (table.restrict kept) source) ∧
    ∃ table', RuleTable.compile? (withoutRule "integer-plain" fancyGrammar) = some table' ∧
      ∀ source', RunAlike fancyTable table' source' := by
  refine ⟨fun more => ⟨?_, ?_, ?_⟩, ?_, _, compile?_withoutRule _, ?_⟩
  · intro done scan run smooth
    exact run.transfer fun place passed => Scan.step?_append more (smooth place passed)
  · intro n smooth
    apply Cursor.next_after_congr
    · exact fun place passed => Scan.step?_append more (smooth place passed)
    · intro done place run stopped
      rw [Scan.step?_append more (Scan.recovers_of_step?_eq_none stopped), stopped]
  · intro smooth
    exact .of_step? fun done place run => Scan.step?_append more (smooth done place run)
  · exact fun kept keeps => .restrict keeps
  · intro source'
    refine .restrict fun done place c s run rest i decides => ?_
    rw [Option.all_eq_true]
    intro rule found
    exact decide_eq_true (ne_integer_plain_of_decider? decides found)

/-- All rules but the first one can go, and rules can come behind it. -/
theorem order_decides_nested : ∃ table, RuleTable.compile? nestedGrammar = some table ∧
    (let source := "abacd".toList
     let more : Mode → List Rule := fun _ => (Rule.compile? (.whole "late" "a+" .error)).toList
     let kept : Mode → Nat → Bool := fun mode i => mode = .root && i = 0
     (∀ done place, Scan.Run table (.start source) done place →
        place.recovers table = false ∧ ∀ c s, place.rest = some (c :: s) →
          ∀ i ∈ decider? (table.rules place.stack.top) (c :: s),
            kept place.stack.top i = true) ∧
      RunAlike table (table.append more) source ∧ RunAlike table (table.restrict kept) source) := by
  have checked : (RuleTable.compile? nestedGrammar).map (fun table =>
      ((Scan.start "abacd".toList).recovers table, decider? (table.rules .root) "abacd".toList,
        ((Scan.start "abacd".toList).step? table).map Step.next)) =
      some (false, some 0, some ⟨5, .base, some []⟩) := by
    decide +kernel
  obtain ⟨table, compiled, eq⟩ := Option.map_eq_some_iff.1 checked
  obtain ⟨smooth, eq⟩ := Prod.mk.inj eq
  obtain ⟨decides, eq⟩ := Prod.mk.inj eq
  obtain ⟨step, taken, next⟩ := Option.map_eq_some_iff.1 eq
  have places : ∀ done place, Scan.Run table (.start "abacd".toList) done place →
      place = .start "abacd".toList ∨ place = ⟨5, .base, some []⟩ := by
    intro done place run
    induction run with
    | start => exact .inl rfl
    | snoc _ taken' ih =>
      rcases ih with rfl | rfl
      · obtain rfl : step = _ := Option.some.inj (taken.symm.trans taken')
        exact .inr next
      · cases taken'
  have keeps : ∀ done place, Scan.Run table (.start "abacd".toList) done place →
      place.recovers table = false ∧ ∀ c s, place.rest = some (c :: s) →
        ∀ i ∈ decider? (table.rules place.stack.top) (c :: s),
          (place.stack.top = .root && i = 0) = true := by
    intro done place run
    rcases places done place run with rfl | rfl
    · refine ⟨smooth, ?_⟩
      rintro c s ⟨⟩ i found
      cases decides.symm.trans found
      rfl
    · exact ⟨rfl, nofun⟩
  obtain ⟨longer, shorter, -⟩ := order_decides table "abacd".toList
  refine ⟨table, compiled, keeps, ?_, ?_⟩
  · exact (longer _).2.2 fun done place run => (keeps done place run).1
  · exact shorter _ fun done place c s run => (keeps done place run).2 c s

end FancyTokens
