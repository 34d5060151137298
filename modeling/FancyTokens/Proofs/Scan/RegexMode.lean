import FancyTokens.Proofs.Grammar.Fancy
import FancyTokens.Proofs.Scan.Coverage

/-!
# The mode for regular expressions

The scanner of Fancy is never deeper than one mode below the outermost one. Only an opener enters
the mode for regular expressions (`step_root`); there each step takes a literal or a line break and
leaves, or takes one character as an error and stays (`step_inRegex`). While the scanner is in the
mode, the tokens given so far therefore end with an opener and errors (`Unfinished`), and so do
those of a source that ends there (`regex_mode`).
-/

namespace FancyTokens

/-- The stack of a scan that awaits a regular expression. -/
def Stack.inRegex : Stack :=
  Stack.base.push .balancedRegex

/-- The characters of a text as errors, each a token of its own. -/
def errorTokens (offset : Nat) : List Char → List Token
  | [] => []
  | c :: s => .ofText .error offset [c] :: errorTokens (offset + c.utf8Size) s

theorem errorTokens_concat (offset : Nat) (v : List Char) (c : Char) :
    errorTokens offset (v ++ [c]) =
      errorTokens offset v ++ [.ofText .error (offset + byteLength v) [c]] := by
  induction v generalizing offset with
  | nil => rfl
  | cons d v ih => rw [List.cons_append, errorTokens, ih, errorTokens, byteLength_cons,
      List.cons_append, Nat.add_assoc]

/-- The tokens end with an opener and errors: behind the opener stands the text of the errors, which
holds no line break, and `rest` remains. -/
def Unfinished (source rest : List Char) (tokens : List Token) : Prop :=
  ∃ earlier u w v, source = u ++ w ++ v ++ rest ∧ IsOpener w ∧ '\n' ∉ v ∧
    tokens = earlier ++ .ofText .regex (byteLength u) w :: errorTokens (byteLength (u ++ w)) v

/-- The step gives one token, and its category decides what the step does: it takes a literal and
leaves the mode, or a line break and leaves the mode, or another character and stays. -/
def Step.InRegex (place : Scan) (step : Step) : Prop :=
  ∃ category w rest, step.tokens = [.ofText category place.offset w] ∧
    place.rest = some (w ++ rest) ∧ step.next.rest = some rest ∧
    match category with
    | .regex => IsLiteral w ∧ step.next.stack = .base
    | .whitespace => w = ['\n'] ∧ step.next.stack = .base
    | .error => (∃ c, c ≠ '\n' ∧ w = [c]) ∧ step.next.stack = .inRegex
    | _ => False

namespace Scan

variable {source rest : List Char} {done : List Step} {scan : Scan} {step : Step}

/-! ## Steps of each mode -/

/-- A step from the outermost mode stays there, or takes an opener. -/
theorem step_root (outermost : scan.stack = .base) (taken : scan.step? fancyTable = some step) :
    step.next.stack = .base ∨
      step.next.stack = .inRegex ∧ ∃ w rest, IsOpener w ∧ scan.rest = some (w ++ rest) ∧
        step.next.rest = some rest ∧ step.tokens = [.ofText .regex scan.offset w] := by
  rcases of_step? fancyTable_anchored taken with
    ⟨c, rest, -, -, rfl⟩ | ⟨rule, mem, w, rest, rest_eq, -, takes, tokens, next⟩
  · left
    rw [recover]
    split
    · rfl
    · exact outermost
  · have top : scan.stack.top = .root := congrArg Stack.top outermost
    rw [top] at mem
    rw [outermost] at next
    rw [next]
    rcases of_mem_rules_root mem with stays | ⟨action, transition, opener⟩
    · left
      rw [stays]
      rfl
    · right
      rw [transition]
      refine ⟨rfl, w, rest, ?_, rest_eq, rfl, tokens _ action⟩
      rcases opener with pattern | ⟨delimiters, memDelimiters, pattern⟩
      · rw [pattern] at takes
        exact isOpener_of_takes_letter takes
      · rw [pattern] at takes
        exact isOpener_of_takes memDelimiters takes

/-- A step from the mode for regular expressions. -/
theorem step_inRegex (inside : scan.stack = .inRegex) (taken : scan.step? fancyTable = some step) :
    step.InRegex scan := by
  rcases of_step? fancyTable_anchored taken with
    ⟨c, rest, rest_eq, -, rfl⟩ | ⟨rule, mem, w, rest, rest_eq, -, takes, tokens, next⟩
  · rw [recover]
    split
    case isTrue newline =>
      exact ⟨.whitespace, [c], rest, rfl, rest_eq, rfl, by rw [newline], rfl⟩
    case isFalse other => exact ⟨.error, [c], rest, rfl, rest_eq, rfl, ⟨c, other, rfl⟩, inside⟩
  · have top : scan.stack.top = .balancedRegex := congrArg Stack.top inside
    rw [top] at mem
    rw [inside] at next
    obtain ⟨action, transition, delimiters, memDelimiters, pattern⟩ :=
      of_mem_rules_balancedRegex mem
    rw [pattern] at takes
    rw [transition] at next
    refine ⟨.regex, w, rest, tokens _ action, rest_eq, ?_, ?_, ?_⟩
    · rw [next]
    · exact isLiteral_of_takes memDelimiters takes
    · rw [next]
      rfl

/-- A token that neither a recovery nor the mode for regular expressions gives is given by a rule
for ordinary source. -/
theorem exists_rule_of_mem_step {s : List Char} {t : Token}
    (taken : scan.step? fancyTable = some step) (rest : scan.rest = some s)
    (mem : t ∈ step.tokens) (kind : t.category ∉ [.whitespace, .error, .text, .regex]) :
    scan.stack.top = .root ∧ ∃ rule m, choose (fancyTable.rules .root) s = .rule rule m ∧
      t.category ∈ rule.action.categories ∧
      emission? scan.offset s rule.action m.found = some step.tokens := by
  simp only [List.mem_cons, List.not_mem_nil, or_false, not_or] at kind
  obtain ⟨no_white, no_error, no_text, no_regex⟩ := kind
  obtain ⟨c, s', rest', ⟨-, rfl⟩ | ⟨rule, m, tokens, chosen, given, rfl⟩⟩ :=
    step?_eq_some_iff.1 taken
  · rcases category_of_mem_recover mem with white | error
    · exact absurd white no_white
    · exact absurd error no_error
  · obtain rfl : s = c :: s' := Option.some.inj (rest.symm.trans rest')
    have listed := (category_of_mem_emission? given t mem).resolve_left no_text
    cases top : scan.stack.top with
    | root =>
      rw [top] at chosen
      exact ⟨rfl, rule, m, chosen, listed, given⟩
    | balancedRegex =>
      have memRule := (mem_of_choose chosen).1
      rw [top] at memRule
      rw [(of_mem_rules_balancedRegex memRule).1] at listed
      exact absurd (List.mem_singleton.1 listed) no_regex

/-! ## Runs -/

/-- An error behind an unfinished regular expression leaves it unfinished. -/
theorem unfinished_error {c : Char} {tokens : List Token} (other : c ≠ '\n')
    (h : Unfinished source (c :: rest) tokens) {before : List Char}
    (eq : source = before ++ c :: rest) :
    Unfinished source rest (tokens ++ [.ofText .error (byteLength before) [c]]) := by
  obtain ⟨earlier, u, w, v, source_eq, opener, noBreak, rfl⟩ := h
  obtain rfl : before = u ++ w ++ v := List.append_cancel_right (eq.symm.trans source_eq)
  refine ⟨earlier, u, w, v ++ [c], by simp [eq], opener, ?_, ?_⟩
  · rw [List.mem_append, List.mem_singleton, not_or]
    exact ⟨noBreak, other.symm⟩
  · rw [errorTokens_concat, ← byteLength_append, List.append_assoc, List.cons_append]

/-- At every place of a scan the stack holds the outermost mode alone, or the mode for regular
expressions is on it and the last opener has been followed by errors only. -/
theorem Run.stack_eq (run : Run fancyTable (Scan.start source) done scan) :
    scan.stack = .base ∨ scan.stack = .inRegex ∧
      ∃ rest, scan.rest = some rest ∧ Unfinished source rest (done.flatMap (·.tokens)) := by
  induction run with
  | start => exact .inl rfl
  | @snoc taken place step before last ih =>
    rw [List.flatMap_append, List.flatMap_singleton]
    rcases ih with outermost | ⟨inside, left, left_eq, unfinished⟩
    -- in the outermost mode only an opener matters, and it has no errors behind it yet
    · rcases step_root outermost last with
        stays | ⟨enters, w, rest, opener, rest_eq, next, tokens⟩
      · exact .inl stays
      · obtain ⟨u, source_eq, offset⟩ :=
          slice?_to_end_eq_some_iff.1 (before.rest_eq.symm.trans rest_eq)
        refine .inr ⟨enters, rest, next, taken.flatMap (·.tokens), u, w, [], ?_, opener, ?_, ?_⟩
        · simp [source_eq]
        · simp
        · rw [tokens, offset]
          rfl
    -- in the mode for regular expressions only an error stays, and adds to the errors
    · obtain ⟨category, w, rest, tokens, rest_eq, next, kind⟩ := step_inRegex inside last
      obtain ⟨u, source_eq, offset⟩ :=
        slice?_to_end_eq_some_iff.1 (before.rest_eq.symm.trans rest_eq)
      cases category with
      | regex => exact .inl kind.2
      | whitespace => exact .inl kind.2
      | error =>
        obtain ⟨⟨c, other, rfl⟩, stays⟩ := kind
        obtain rfl : left = c :: rest := Option.some.inj (left_eq.symm.trans rest_eq)
        refine .inr ⟨stays, rest, next, ?_⟩
        rw [tokens, ← offset]
        exact unfinished_error other unfinished source_eq
      | _ => exact kind.elim

end Scan

/-! ## Whole scans -/

/-- The stack of the scanner of Fancy holds `root` alone or `balancedRegex` above it, at every place
of a scan and of a cursor. In `balancedRegex` each step takes a literal or a line break and leaves,
or takes another character as an error and stays; the last opener has been followed by errors only,
and so it has been when the source ends there. -/
theorem regex_mode (source : List Char) :
    (∀ done scan, Scan.Run fancyTable (.start source) done scan →
      (scan.stack = .base ∨ scan.stack = .inRegex) ∧
        (scan.stack = .inRegex →
          (∃ rest, scan.rest = some rest ∧ Unfinished source rest (done.flatMap (·.tokens))) ∧
            ∀ step, scan.step? fancyTable = some step → step.InRegex scan)) ∧
      (∀ n, let stack := ((Cursor.start source).after fancyTable n).scan.stack
        stack = .base ∨ stack = .inRegex) ∧
      (((Scan.start source).finish fancyTable).stack = .inRegex →
        Unfinished source [] (tokenize source)) := by
  have shallow {done scan} (run : Scan.Run fancyTable (.start source) done scan) :
      scan.stack = .base ∨ scan.stack = .inRegex :=
    run.stack_eq.imp_right And.left
  have unfinished {done scan} (run : Scan.Run fancyTable (.start source) done scan)
      (inside : scan.stack = .inRegex) :
      ∃ rest, scan.rest = some rest ∧ Unfinished source rest (done.flatMap (·.tokens)) := by
    rcases run.stack_eq with outermost | ⟨-, unfinished⟩
    · rw [inside] at outermost
      cases outermost
    · exact unfinished
  refine ⟨fun done scan run => ⟨shallow run, fun inside => ⟨unfinished run inside, ?_⟩⟩, ?_, ?_⟩
  · exact fun step taken => Scan.step_inRegex inside taken
  · intro n
    obtain ⟨done, run⟩ := Cursor.exists_run_after fancyTable (Cursor.start source) n
    exact shallow run
  · intro inside
    obtain ⟨rest, rest_eq, ends⟩ := unfinished (Scan.run_steps (Scan.start source)) inside
    -- the scan ends at the end of the source
    have complete := ((Scan.behind_start source).tiling_tokens fancyTable_anchored).2.rest
    obtain rfl : rest = [] := Option.some.inj (rest_eq.symm.trans complete)
    exact ends

theorem regex_mode_unclosed : ∃ done scan,
    Scan.Run fancyTable (.start "m\x7bé".toList) done scan ∧ scan.stack = .inRegex ∧
      Unfinished "m\x7bé".toList "\x7bé".toList (done.flatMap (·.tokens)) ∧
      ∃ step, scan.step? fancyTable = some step ∧ step.InRegex scan := by
  let opened : Scan := ⟨1, .inRegex, some "\x7bé".toList⟩
  -- the rule that wins is among the first seven
  have first : ((rootRules.take 7).mapM Rule.compile?).bind
      (fun rules => (Scan.start "m\x7bé".toList).step? ⟨fun _ => rules⟩) =
        some ⟨[.ofText .regex 0 ['m']], [.entered 1 .balancedRegex], opened⟩ := by
    decide +kernel
  obtain ⟨rules, read, taken⟩ := Option.bind_eq_some_iff.1 first
  obtain ⟨more, rules_eq⟩ := exists_rules_root read
  have step : (Scan.start "m\x7bé".toList).step? fancyTable =
      some ⟨[.ofText .regex 0 ['m']], [.entered 1 .balancedRegex], opened⟩ := by
    obtain ⟨c, s, rest_eq, ⟨-, recovered⟩ | ⟨rule, m, tokens, chosen, given⟩⟩ :=
      Scan.step?_eq_some_iff.1 taken
    · cases rest_eq
      cases recovered
    · refine Scan.step?_eq_some_iff.2 ⟨c, s, rest_eq, .inr ⟨rule, m, tokens, ?_, given⟩⟩
      have top : (Scan.start "m\x7bé".toList).stack.top = .root := rfl
      rw [top, rules_eq]
      exact choose_append more chosen
  have run := Scan.Run.single step
  obtain ⟨⟨rest, rest_eq, unfinished⟩, inside⟩ := ((regex_mode _).1 _ _ run).2 rfl
  obtain rfl : "\x7bé".toList = rest := Option.some.inj rest_eq
  have behind : opened.Behind ['m'] "\x7bé".toList := ⟨rfl, rfl⟩
  obtain ⟨next, -, -, taken, -⟩ := behind.exists_step fancyTable_anchored
  exact ⟨_, _, run, rfl, unfinished, next, taken, inside next taken⟩

end FancyTokens
