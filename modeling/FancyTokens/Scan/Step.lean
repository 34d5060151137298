import FancyTokens.Scan.Emission
import FancyTokens.Scan.Event

/-!
# Steps of the scanner

The scanner walks through a source from left to right. In each step it tries the rules of its mode;
the first one that matches gives tokens and may change the mode. Where no rule matches, the scanner
recovers: a line break leads back to the outermost mode, and any other character becomes an error
of its own. Every step shortens the remaining source (`ahead_lt_of_step?`), and the scan depends on
nothing but the remaining source and the stack.
-/
namespace FancyTokens

/-- A place in a scan. -/
structure Scan where
  /-- The bytes scanned so far. -/
  offset : Nat
  stack : Stack
  /-- The source that remains. There is none when the last match has ended inside a character, which
  only a pattern with unbalanced parentheses can bring about. -/
  rest : Option (List Char)
deriving DecidableEq, Repr

/-- What one step gives, and where it leads. -/
structure Step where
  tokens : List Token
  events : List Event
  next : Scan
deriving DecidableEq, Repr

namespace Scan

/-- The start of a scan. -/
def start (source : List Char) : Scan :=
  ⟨0, .base, some source⟩

/-- The number of characters that the scanner can still see. -/
def ahead (scan : Scan) : Nat :=
  (scan.rest.getD []).length

/-- The effect of a transition on the stack, `offset` bytes into the source. -/
def applyTransition (offset : Nat) (stack : Stack) : Transition → List Event × Stack
  | .stay => ([], stack)
  | .push mode => ([.entered offset mode], stack.push mode)
  | .pop =>
    match stack.pop? with
    | none => ([], stack)
    | some (mode, stack) => ([.left offset mode], stack)

/-- The step of a rule that has matched at the start of `s` and gives some tokens. -/
def advance (scan : Scan) (s : List Char) (rule : Rule) (m : RuleMatch) (tokens : List Token) :
    Step :=
  let offset := scan.offset + m.length
  let (events, stack) := applyTransition offset scan.stack rule.transition
  ⟨tokens, events, ⟨offset, stack, (cut? s m.length).map Prod.snd⟩⟩

/-- The step at a character that no rule takes. -/
def recover (scan : Scan) (c : Char) (rest : List Char) : Step :=
  let offset := scan.offset + c.utf8Size
  if c = '\n' then
    let events := if scan.stack = .base then [] else [.reset scan.offset scan.stack.top]
    ⟨[.ofText .whitespace scan.offset [c]], events, ⟨offset, .base, some rest⟩⟩
  else
    ⟨[.ofText .error scan.offset [c]], [.unmatched scan.offset scan.stack.top c],
      ⟨offset, scan.stack, some rest⟩⟩

/-- The next step. There is none at the end of the source, nor where the source or a match cannot be
cut where the match says, which only a pattern with unbalanced parentheses can bring about. -/
def step? (table : RuleTable) (scan : Scan) : Option Step :=
  match scan.rest with
  | none | some [] => none
  | some (c :: rest) =>
    match choose (table.rules scan.stack.top) (c :: rest) with
    | .nothing => some (scan.recover c rest)
    | .torn => none
    | .rule rule m =>
      (emission? scan.offset (c :: rest) rule.action m.found).map (scan.advance (c :: rest) rule m)

end Scan

/-! ## Progress -/

theorem Rule.length_pos_of_attempt {rule : Rule} {s : List Char} {m : RuleMatch}
    (h : rule.attempt s = .matched m) : 0 < m.length := by
  unfold Rule.attempt at h
  split at h
  · cases h
  · dsimp only at h
    split at h
    · cases h
    · split at h
      · cases h
        exact Nat.pos_of_ne_zero ‹_›
      · split at h
        · cases h
        · split at h
          · cases h
            exact Nat.pos_of_ne_zero ‹_›
          · cases h

theorem length_pos_of_choose {rules : List Rule} {s : List Char} {rule : Rule} {m : RuleMatch}
    (h : choose rules s = .rule rule m) : 0 < m.length := by
  induction rules with
  | nil => cases h
  | cons r rules ih =>
    rw [choose] at h
    split at h
    · exact ih h
    · cases h
    · cases h
      exact Rule.length_pos_of_attempt ‹_›

/-- All that a step can be: the step of the rule that wins, or a recovery where none does. -/
theorem Scan.step?_eq_some_iff {table : RuleTable} {scan : Scan} {step : Step} :
    scan.step? table = some step ↔ ∃ c s, scan.rest = some (c :: s) ∧
      ((choose (table.rules scan.stack.top) (c :: s) = .nothing ∧ step = scan.recover c s) ∨
        ∃ rule m tokens, choose (table.rules scan.stack.top) (c :: s) = .rule rule m ∧
          emission? scan.offset (c :: s) rule.action m.found = some tokens ∧
          step = scan.advance (c :: s) rule m tokens) := by
  rw [Scan.step?]
  split
  case h_1 torn => simp [torn]
  case h_2 ended => simp [ended]
  case h_3 c s rest_eq =>
    simp only [rest_eq, Option.some.injEq, List.cons.injEq]
    constructor
    · intro h
      refine ⟨c, s, ⟨rfl, rfl⟩, ?_⟩
      split at h
      · exact .inl ⟨‹_›, (Option.some.inj h).symm⟩
      · cases h
      · obtain ⟨tokens, emitted, rfl⟩ := Option.map_eq_some_iff.1 h
        exact .inr ⟨_, _, tokens, ‹_›, emitted, rfl⟩
    · rintro ⟨_, _, ⟨rfl, rfl⟩, ⟨chosen, rfl⟩ | ⟨rule, m, tokens, chosen, emitted, rfl⟩⟩
      · rw [chosen]
      · rw [chosen]
        exact Option.map_eq_some_iff.2 ⟨tokens, emitted, rfl⟩

/-- Every step shortens the remaining source. -/
theorem Scan.ahead_lt_of_step? {table : RuleTable} {scan : Scan} {step : Step}
    (h : scan.step? table = some step) : step.next.ahead < scan.ahead := by
  obtain ⟨c, s, rest_eq, ⟨-, rfl⟩ | ⟨rule, m, tokens, chosen, -, rfl⟩⟩ := step?_eq_some_iff.1 h
  · simp only [Scan.ahead, rest_eq, Scan.recover]
    split <;> simp
  · simp only [Scan.ahead, rest_eq, Scan.advance]
    cases cut : cut? (c :: s) m.length with
    | none => simp
    | some parts => exact length_lt_of_cut? cut (length_pos_of_choose chosen)

end FancyTokens
