import FancyTokens.Proofs.Scan.Coverage
import FancyTokens.Scan.Session

/-!
# A session only counts

Under an anchored table a cursor is no more than a number: it is the fresh cursor that has been
asked for as many tokens as it has handed out (`Cursor.advanced`). A session of any number of
cursors therefore replays a list of such numbers (`Session.perform_ofTally`), and so does a whole
script (`session_counts`). Between two requests, what is queued tiles the source from the last token
handed out to the place of the scan (`Cursor.exists_tiling_queue`).

Where a pattern finds anything but the beginning of a text, a cursor can lose its place
(`offset_beyond_unanchored`).
-/

namespace FancyTokens

variable {table : RuleTable} {source : List Char}

/-! ## Cursors as numbers -/

namespace Cursor

variable {cursor : Cursor} {before ahead rest : List Char}

/-- A fresh cursor that has been asked for a token `n` times. -/
def advanced (table : RuleTable) (source : List Char) (n : Nat) : Cursor :=
  (start source).after table n

/-- A cursor never gets stuck. -/
theorem Stands.isStuck_eq_false (anchored : table.Anchored) (h : cursor.Stands before ahead rest) :
    cursor.isStuck table = false := by
  unfold isStuck
  cases rest with
  | nil =>
    have complete : cursor.scan.isComplete = true := by simp [Scan.isComplete, h.scan.rest]
    simp [complete]
  | cons c s =>
    obtain ⟨step, -, -, taken, -⟩ := h.scan.exists_step anchored
    simp [taken]

theorem isStuck_advanced (anchored : table.Anchored) (source : List Char) (n : Nat) :
    (advanced table source n).isStuck table = false := by
  obtain ⟨before, ahead, rest, -, stands, -⟩ := exists_stands_after anchored source n
  exact stands.isStuck_eq_false anchored

/-- A cursor that has handed out all tokens stands where the scan ends, whether or not it has been
asked for more. -/
theorem advanced_of_length_le (anchored : table.Anchored) {n : Nat}
    (exhausted : ((Scan.start source).tokens table).length ≤ n) :
    advanced table source n = ⟨(Scan.start source).finish table, []⟩ := by
  obtain ⟨stands, -⟩ := stands_after_of_length_le anchored exhausted
  have stopped : (advanced table source n).scan.step? table = none := stands.scan.step?_eq_none
  have idle : (advanced table source n).queue = [] := stands.queue.tokens_eq_nil
  have left := remaining_after table (start source) n
  have finish := congrArg (fun cursor : Cursor => cursor.scan) (congrArg Prod.snd left)
  calc advanced table source n
      = ⟨(advanced table source n).scan.finish table, []⟩ := by
        rw [Scan.finish_of_step?_eq_none stopped, ← idle]
    _ = ⟨(Scan.start source).finish table, []⟩ := congrArg (Cursor.mk · []) finish

/-- A cursor that has handed out `n` tokens hands out token number `n` if there is one, and stays
otherwise. -/
theorem next_advanced (anchored : table.Anchored) (n : Nat) :
    let token := ((Scan.start source).tokens table)[n]?
    (advanced table source n).next table =
      (token, advanced table source (n + token.toList.length)) := by
  intro token
  by_cases exhausted : ((Scan.start source).tokens table).length ≤ n
  · have none_left : token = none := List.getElem?_eq_none exhausted
    rw [none_left]
    exact (stands_after_of_length_le anchored exhausted).2
  · have found : token = some _ := List.getElem?_eq_getElem (Nat.lt_of_not_le exhausted)
    have one : token.toList.length = 1 := by rw [found, Option.toList_some, List.length_singleton]
    rw [one]
    exact Prod.ext (next_after table _ n) rfl

/-- A cursor that has handed out `n` tokens hands out all others together, and stands behind them
as if it had handed them out one by one. -/
theorem remaining_advanced (anchored : table.Anchored) (n : Nat) :
    let tokens := ((Scan.start source).tokens table).drop n
    (advanced table source n).remaining table =
      (tokens, advanced table source (n + tokens.length)) := by
  intro tokens
  have exhausted : ((Scan.start source).tokens table).length ≤ n + tokens.length := by
    have length : tokens.length = ((Scan.start source).tokens table).length - n := List.length_drop
    omega
  rw [advanced_of_length_le anchored exhausted]
  exact remaining_after table (start source) n

/-- The tokens that a cursor has queued tile the source from the end of the last token that it has
handed out to the place where its scan stands. -/
theorem exists_tiling_queue (anchored : table.Anchored) (source : List Char) (n : Nat) :
    let handed := ((Scan.start source).tokens table).take n
    let e := (handed.getLast?.map (·.stop)).getD 0
    let cursor := advanced table source n
    ∃ ahead, slice? source e cursor.scan.offset = some ahead ∧ Tiling e ahead cursor.queue := by
  intro handed e cursor
  obtain ⟨before, ahead, rest, eq, stands, tiling⟩ := exists_stands_after anchored source n
  have stop : e = byteLength before := by
    rw [← Nat.zero_add (byteLength before)]
    exact tiling.getLast?_stop
  refine ⟨ahead, slice?_eq_some_iff.2 ⟨before, rest, eq, stop.symm, ?_⟩, stop ▸ stands.queue⟩
  rw [stop, ← byteLength_append]
  exact stands.scan.offset.symm

end Cursor

/-! ## Sessions as tallies -/

namespace Session

/-- How many tokens each cursor has handed out since its last restart. A copy counts what its
original has handed out. -/
abbrev Tally := List Nat

/-- Carries out a command by counting. -/
def Tally.perform (table : RuleTable) (source : List Char) (tally : Tally) (command : Command)
    (i : Nat) : Except Failure (Report × Tally) := do
  let tokens := (Scan.start source).tokens table
  let place n := (Cursor.advanced table source n).scan
  let some n := tally[i]? | throw .noCursor
  match command with
  | .next =>
    let token := tokens[n]?
    let n' := n + token.toList.length
    return (⟨.token token, place n'⟩, tally.set i n')
  | .rest =>
    let left := tokens.drop n
    let n' := n + left.length
    return (⟨.tokens left, place n'⟩, tally.set i n')
  | .clone => return (⟨.cursor tally.length, place n⟩, tally ++ [n])
  | .restart => return (⟨.nothing, place 0⟩, tally.set i 0)
  | .status => return (⟨.nothing, place n⟩, tally)

/-- Carries out a script by counting. -/
def Tally.run (table : RuleTable) (source : List Char) (tally : Tally) :
    List (Command × Nat) → Except Failure (List Report)
  | [] => return []
  | (command, i) :: script => do
    let (report, tally) ← tally.perform table source command i
    return report :: (← Tally.run table source tally script)

/-- The tally behind a script. -/
def Tally.after (table : RuleTable) (source : List Char) (tally : Tally)
    (script : List (Command × Nat)) : Except Failure Tally :=
  script.foldlM (fun tally (command, i) => Prod.snd <$> tally.perform table source command i) tally

/-- The session behind a script. -/
def after (table : RuleTable) (session : Session) (script : List (Command × Nat)) :
    Except Failure Session :=
  script.foldlM (fun session (command, i) => Prod.snd <$> session.perform table command i) session

/-- The session whose cursors are fresh ones that have been advanced as the tally says. -/
def ofTally (table : RuleTable) (source : List Char) (tally : Tally) : Session :=
  ⟨source, tally.map (Cursor.advanced table source)⟩

/-- Putting an advanced cursor into a session is setting its number in the tally. -/
theorem setCursor_ofTally (tally : Tally) (i n : Nat) :
    (ofTally table source tally).setCursor i (.advanced table source n) =
      ofTally table source (tally.set i n) := by
  rw [setCursor, ofTally, ofTally, List.map_set]

/-- Adding an advanced cursor to a session is adding its number to the tally. -/
theorem add_ofTally (tally : Tally) (n : Nat) :
    (⟨source, (ofTally table source tally).cursors ++ [.advanced table source n]⟩ : Session) =
      ofTally table source (tally ++ [n]) := by
  rw [ofTally, ofTally, List.map_append]
  rfl

/-- A session of advanced cursors carries out each command as its tally does, and stays one. -/
theorem perform_ofTally (anchored : table.Anchored) (tally : Tally) (command : Command) (i : Nat) :
    (ofTally table source tally).perform table command i =
      (tally.perform table source command i).map fun (report, tally) =>
        (report, ofTally table source tally) := by
  have cursor : (ofTally table source tally).cursors[i]? =
      tally[i]?.map (Cursor.advanced table source) := List.getElem?_map ..
  have stuck := Cursor.isStuck_advanced anchored source
  unfold perform Tally.perform
  rw [cursor]
  cases tally[i]? with
  | none => rfl
  | some n =>
    cases command with
    | next =>
      simp only [Option.map_some, Cursor.next_advanced anchored, stuck, Bool.and_false,
        setCursor_ofTally]
      rfl
    | rest =>
      simp only [Option.map_some, Cursor.remaining_advanced anchored, stuck, setCursor_ofTally]
      rfl
    | clone =>
      have number : (ofTally table source tally).cursors.length = tally.length :=
        List.length_map ..
      simp only [number]
      let report : Report := ⟨.cursor tally.length, (Cursor.advanced table source n).scan⟩
      exact congrArg (fun session => Except.ok (report, session)) (add_ofTally tally n)
    | restart =>
      let report : Report := ⟨.nothing, (Cursor.start source).scan⟩
      exact congrArg (fun session => Except.ok (report, session)) (setCursor_ofTally tally i 0)
    | status => rfl

/-- A session of advanced cursors carries out a script as its tally does. -/
theorem run_ofTally (anchored : table.Anchored) (tally : Tally) (script : List (Command × Nat)) :
    (ofTally table source tally).run table script = tally.run table source script := by
  induction script generalizing tally with
  | nil => rfl
  | cons line script ih =>
    obtain ⟨command, i⟩ := line
    rw [run, Tally.run, perform_ofTally anchored]
    -- a failure ends both scripts, and behind a report both go on from the same tally
    cases tally.perform table source command i with
    | error failure => rfl
    | ok result =>
      obtain ⟨report, tally⟩ := result
      exact congrArg (fun reports => do return report :: (← reports)) (ih tally)

/-- Behind a script a session of advanced cursors is one again. -/
theorem after_ofTally (anchored : table.Anchored) (tally : Tally)
    (script : List (Command × Nat)) : (ofTally table source tally).after table script =
      (tally.after table source script).map (ofTally table source) := by
  induction script generalizing tally with
  | nil => rfl
  | cons line script ih =>
    obtain ⟨command, i⟩ := line
    rw [after, Tally.after, List.foldlM_cons, List.foldlM_cons]
    dsimp only
    rw [perform_ofTally anchored]
    cases tally.perform table source command i with
    | error failure => rfl
    | ok result => exact ih result.2

end Session

/-! ## Scripts -/

/-- Under an anchored table a script of any commands to any cursors gives what counting the tokens
handed out by each cursor gives, and each cursor is then the fresh one that has been asked as many
times. What such a cursor has queued tiles the source from the last token handed out to its offset,
which lies at the end of the source once the tokens are exhausted. -/
theorem session_counts (anchored : table.Anchored) (source : List Char)
    (script : List (Session.Command × Nat)) :
    (Session.start source).run table script = Session.Tally.run table source [0] script ∧
      (Session.start source).after table script =
        (Session.Tally.after table source [0] script).map (Session.ofTally table source) ∧
      ∀ n, let tokens := (Scan.start source).tokens table
        let cursor := Cursor.advanced table source n
        let e := ((tokens.take n).getLast?.map (·.stop)).getD 0
        (∃ ahead, slice? source e cursor.scan.offset = some ahead ∧
            Tiling e ahead cursor.queue) ∧
          e ≤ cursor.scan.offset ∧
          (cursor.queue = [] → cursor.scan.offset = e) ∧
          (tokens.length ≤ n → cursor.scan.offset = byteLength source) := by
  refine ⟨Session.run_ofTally anchored [0] script, Session.after_ofTally anchored [0] script, ?_⟩
  intro n tokens cursor e
  obtain ⟨ahead, found, tiling⟩ := Cursor.exists_tiling_queue anchored source n
  obtain ⟨a, b, eq, start, stop⟩ := slice?_eq_some_iff.1 found
  refine ⟨⟨ahead, found, tiling⟩, ?_, ?_, ?_⟩
  · exact Nat.le.intro stop
  · intro idle
    rw [idle] at tiling
    rw [tiling.eq_nil] at stop
    exact stop.symm
  · intro exhausted
    obtain ⟨stands, -⟩ := Cursor.stands_after_of_length_le anchored exhausted
    have offset := stands.scan.offset
    rwa [List.append_nil] at offset

theorem session_counts_nested : ∃ table, RuleTable.compile? nestedGrammar = some table ∧
    table.Anchored ∧
    (let source := "abacd<é\nx".toList
     let script : List (Session.Command × Nat) :=
      [(.next, 0), (.clone, 0), (.rest, 1), (.next, 1), (.next, 0), (.restart, 1), (.status, 0)]
     (Session.start source).run table script = Session.Tally.run table source [0] script ∧
      (Session.start source).after table script =
        (Session.Tally.after table source [0] script).map (Session.ofTally table source)) := by
  obtain ⟨table, compiled, wellFormed⟩ := exists_compile?_nestedGrammar
  have anchored := RuleTable.anchored_of_compile? wellFormed compiled
  obtain ⟨reports, sessions, -⟩ := session_counts anchored "abacd<é\nx".toList
    [(.next, 0), (.clone, 0), (.rest, 1), (.next, 1), (.next, 0), (.restart, 1), (.status, 0)]
  exact ⟨table, compiled, anchored, reports, sessions⟩

/-- A pattern that is well formed only inside the group of the anchor, which its first parenthesis
closes. -/
def unanchoredGrammar : List (Mode × List RuleDef) :=
  [(.root, [.byGroups "unanchored" "x)|b(c*" [.name]])]

/-- The pattern finds the second character, and its token takes the place of the first one: the
cursor has nothing queued, but stands beyond the end of the token handed out. -/
theorem offset_beyond_unanchored : ∃ table, RuleTable.compile? unanchoredGrammar = some table ∧
    (let tokens := (Scan.start "ab".toList).tokens table
     let cursor := Cursor.advanced table "ab".toList 1
     let e := ((tokens.take 1).getLast?.map (·.stop)).getD 0
     ¬ (cursor.queue = [] → cursor.scan.offset = e)) := by
  have first : (RuleTable.compile? unanchoredGrammar).bind (Scan.step? · (.start "ab".toList)) =
      some ⟨[.ofText .text 0 ['b']], [], ⟨2, .base, some []⟩⟩ := by
    decide +kernel
  obtain ⟨table, compiled, taken⟩ := Option.bind_eq_some_iff.1 first
  have tokens : (Scan.start "ab".toList).tokens table = [.ofText .text 0 ['b']] := by
    rw [Scan.tokens_of_step?_eq_some taken, Scan.tokens_of_step?_eq_none (by rfl)]
    rfl
  have place : Cursor.advanced table "ab".toList 1 = ⟨⟨2, .base, some []⟩, []⟩ := by
    rw [Cursor.advanced, Cursor.after, Cursor.after, Cursor.start,
      Cursor.next_of_step?_eq_some taken, Cursor.next_of_queue]
  refine ⟨table, compiled, ?_⟩
  rw [tokens, place]
  decide

end FancyTokens
