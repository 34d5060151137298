import FancyTokens.Scan.Cursor

/-!
# Sessions of several cursors

In a session any number of cursors walk through one source, each on its own. A script is a list of
commands, each addressed to a cursor by its number.
-/
namespace FancyTokens

/-- What a cursor can be told to do. -/
inductive Session.Command
  /-- Hands out the next token. -/
  | next
  /-- Hands out all remaining tokens. -/
  | rest
  /-- Adds a copy of the cursor to the session. -/
  | clone
  /-- Goes back to the start of the source. -/
  | restart
  /-- Does nothing. -/
  | status
deriving DecidableEq, Repr

/-- What a command gives. -/
inductive Session.Reply
  | token (token : Option Token)
  | tokens (tokens : List Token)
  /-- The number of a new cursor. -/
  | cursor (number : Nat)
  | nothing
deriving DecidableEq, Repr

/-- A reply, and where the scan of the cursor stands behind it. -/
structure Session.Report where
  reply : Session.Reply
  scan : Scan
deriving DecidableEq, Repr

structure Session where
  source : List Char
  cursors : List Cursor
deriving DecidableEq, Repr

namespace Session

/-- Why a command cannot be carried out. -/
inductive Failure
  /-- There is no cursor of its number. -/
  | noCursor
  /-- The scan meets a match that cannot be cut out of the source. -/
  | torn
deriving DecidableEq, Repr

/-- A session with one cursor. -/
def start (source : List Char) : Session :=
  ⟨source, [.start source]⟩

/-- The session with another cursor in the place of one. -/
def setCursor (session : Session) (i : Nat) (cursor : Cursor) : Session :=
  { session with cursors := session.cursors.set i cursor }

/-- Carries out a command by a cursor. -/
def perform (table : RuleTable) (session : Session) (command : Command) (i : Nat) :
    Except Failure (Report × Session) := do
  let some cursor := session.cursors[i]? | throw .noCursor
  match command with
  | .next =>
    let (token, cursor) := cursor.next table
    if token.isNone && cursor.isStuck table then throw .torn
    return (⟨.token token, cursor.scan⟩, session.setCursor i cursor)
  | .rest =>
    let (tokens, cursor) := cursor.remaining table
    if cursor.isStuck table then throw .torn
    return (⟨.tokens tokens, cursor.scan⟩, session.setCursor i cursor)
  | .clone =>
    return (⟨.cursor session.cursors.length, cursor.scan⟩,
      { session with cursors := session.cursors ++ [cursor] })
  | .restart =>
    let cursor := Cursor.start session.source
    return (⟨.nothing, cursor.scan⟩, session.setCursor i cursor)
  | .status => return (⟨.nothing, cursor.scan⟩, session)

/-- Carries out a script. -/
def run (table : RuleTable) (session : Session) :
    List (Command × Nat) → Except Failure (List Report)
  | [] => return []
  | (command, i) :: script => do
    let (report, session) ← session.perform table command i
    return report :: (← session.run table script)

end Session
end FancyTokens
