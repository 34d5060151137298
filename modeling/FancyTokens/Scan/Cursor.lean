import FancyTokens.Scan.Run

/-!
# Cursors

A cursor hands out the tokens of a scan one at a time. A step may give several tokens; they queue
up while the scan already stands behind all of them.
-/
namespace FancyTokens

structure Cursor where
  scan : Scan
  /-- The tokens of the last step that have not been handed out. -/
  queue : List Token
deriving DecidableEq, Repr

namespace Cursor

/-- A cursor that has handed out nothing. -/
def start (source : List Char) : Cursor :=
  ⟨.start source, []⟩

/-- The next token, and the cursor behind it. At the end there is no token, and the cursor stays. -/
def next (table : RuleTable) (cursor : Cursor) : Option Token × Cursor :=
  match cursor.queue with
  | t :: queue => (some t, { cursor with queue })
  | [] =>
    match h : cursor.scan.step? table with
    | none => (none, cursor)
    | some step =>
      have := Scan.ahead_lt_of_step? h
      next table ⟨step.next, step.tokens⟩
termination_by cursor.scan.ahead

/-- All remaining tokens, and the cursor behind them. -/
def remaining (table : RuleTable) (cursor : Cursor) : List Token × Cursor :=
  (cursor.queue ++ cursor.scan.tokens table, ⟨cursor.scan.finish table, []⟩)

/-- The cursor has been stopped by a match that cannot be cut out of the source. -/
def isStuck (table : RuleTable) (cursor : Cursor) : Bool :=
  cursor.queue.isEmpty && (cursor.scan.step? table).isNone && !cursor.scan.isComplete

end Cursor
end FancyTokens
