import FancyTokens.Grammar.Fancy
import FancyTokens.Scan.Step

/-!
# Whole scans

The steps of a scan up to its end, and what they give: tokens, a log, and the place where the scan
ends.
-/
namespace FancyTokens
namespace Scan

/-- The steps from a place to the end of the scan. -/
def steps (table : RuleTable) (scan : Scan) : List Step :=
  match h : scan.step? table with
  | none => []
  | some step =>
    have := ahead_lt_of_step? h
    step :: steps table step.next
termination_by scan.ahead

/-- The tokens of a scan. -/
def tokens (table : RuleTable) (scan : Scan) : List Token :=
  (scan.steps table).flatMap (·.tokens)

/-- The events of a scan. -/
def events (table : RuleTable) (scan : Scan) : List Event :=
  (scan.steps table).flatMap (·.events)

/-- The place where a scan ends. -/
def finish (table : RuleTable) (scan : Scan) : Scan :=
  (scan.steps table).foldl (fun _ step => step.next) scan

/-- The scan has reached the end of the source. -/
def isComplete (scan : Scan) : Bool :=
  scan.rest == some []

end Scan

/-- The tokens of Fancy source. -/
def tokenize (source : List Char) : List Token :=
  (Scan.start source).tokens fancyTable

/-- The tokens of Fancy source without their offsets. -/
def categorized (source : List Char) : List (Category × List Char) :=
  (tokenize source).map fun t => (t.category, t.text)

end FancyTokens
