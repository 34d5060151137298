import FancyTokens.Scan.Cursor

/-!
# Runs of the scanner and of a cursor

`Scan.Run` grows at its end, step by step, so that an invariant of a scan is an induction on the
run; `Scan.steps` is read from the front. `Run.steps_eq` joins the two: at every place of a scan the
steps still to come are the steps of the whole scan without those already taken.

A cursor that is asked for a token several times hands out one token after another. What it hands
out is independent of when its steps are taken (`Cursor.next_spec`, `Cursor.next_after`).
-/

namespace FancyTokens

variable {table : RuleTable}

namespace Scan

variable {origin scan : Scan} {done : List Step} {step : Step}

/-! ## Steps from a place -/

/-- Every scan comes to an end, so a property of all places is proved from the last one back. -/
@[elab_as_elim]
theorem step_induction (table : RuleTable) {motive : Scan → Prop}
    (stop : ∀ scan, scan.step? table = none → motive scan)
    (step : ∀ scan step, scan.step? table = some step → motive step.next → motive scan)
    (scan : Scan) : motive scan := by
  induction hn : scan.ahead using Nat.strongRecOn generalizing scan with
  | _ n ih =>
    cases h : scan.step? table with
    | none => exact stop scan h
    | some next =>
      have shorter : next.next.ahead < n := hn ▸ ahead_lt_of_step? h
      exact step scan next h (ih next.next.ahead shorter next.next rfl)

theorem steps_of_step?_eq_none (h : scan.step? table = none) : scan.steps table = [] := by
  rw [steps]
  split
  · rfl
  · rename_i step taken
    rw [h] at taken
    cases taken

theorem steps_of_step?_eq_some (h : scan.step? table = some step) :
    scan.steps table = step :: step.next.steps table := by
  rw [steps]
  split
  · rename_i stuck
    rw [h] at stuck
    cases stuck
  · rename_i step' taken
    rw [h] at taken
    cases taken
    rfl

theorem tokens_of_step?_eq_none (h : scan.step? table = none) : scan.tokens table = [] := by
  rw [tokens, steps_of_step?_eq_none h, List.flatMap_nil]

theorem tokens_of_step?_eq_some (h : scan.step? table = some step) :
    scan.tokens table = step.tokens ++ step.next.tokens table := by
  rw [tokens, steps_of_step?_eq_some h, List.flatMap_cons, tokens]

theorem finish_of_step?_eq_none (h : scan.step? table = none) : scan.finish table = scan := by
  rw [finish, steps_of_step?_eq_none h, List.foldl_nil]

theorem finish_of_step?_eq_some (h : scan.step? table = some step) :
    scan.finish table = step.next.finish table := by
  rw [finish, steps_of_step?_eq_some h, List.foldl_cons, finish]

/-! ## Runs -/

/-- Some steps lead from the origin to a place. -/
inductive Run (table : RuleTable) (origin : Scan) : List Step → Scan → Prop
  | start : Run table origin [] origin
  | snoc {taken place next} : Run table origin taken place → place.step? table = some next →
      Run table origin (taken ++ [next]) next.next

namespace Run

theorem trans {middle : Scan} {more : List Step} (h : Run table origin done middle)
    (h' : Run table middle more scan) : Run table origin (done ++ more) scan := by
  induction h' with
  | start => simpa using h
  | snoc _ last ih =>
    rw [← List.append_assoc]
    exact ih.snoc last

theorem single (h : scan.step? table = some step) : Run table scan [step] step.next :=
  start.snoc h

/-- The steps of a scan are those that have been taken and those still to come. -/
theorem steps_eq (h : Run table origin done scan) :
    origin.steps table = done ++ scan.steps table := by
  induction h with
  | start => rfl
  | snoc _ last ih =>
    rw [ih, steps_of_step?_eq_some last, List.append_assoc, List.singleton_append]

end Run

/-- The steps of a scan lead to the place where it ends. -/
theorem run_steps (scan : Scan) : Run table scan (scan.steps table) (scan.finish table) := by
  induction scan using step_induction table with
  | stop scan h =>
    rw [steps_of_step?_eq_none h, finish_of_step?_eq_none h]
    exact .start
  | step scan step h ih =>
    rw [steps_of_step?_eq_some h, finish_of_step?_eq_some h]
    exact (Run.single h).trans ih

end Scan

/-! ## Cursors -/

namespace Cursor

variable {cursor : Cursor} {scan : Scan}

/-- The cursor after it has been asked for a token `n` times. -/
def after (table : RuleTable) (cursor : Cursor) : Nat → Cursor
  | 0 => cursor
  | n + 1 => ((cursor.after table n).next table).2

theorem next_of_queue {t : Token} {queue : List Token} :
    next table ⟨scan, t :: queue⟩ = (some t, ⟨scan, queue⟩) := by
  rw [next]

theorem next_of_step?_eq_none (h : scan.step? table = none) :
    next table ⟨scan, []⟩ = (none, ⟨scan, []⟩) := by
  rw [next]
  dsimp only
  split
  · rfl
  · rename_i step taken
    rw [h] at taken
    cases taken

/-- A cursor with an empty queue takes a step, and goes on with what this gives. -/
theorem next_of_step?_eq_some {step : Step} (h : scan.step? table = some step) :
    next table ⟨scan, []⟩ = next table ⟨step.next, step.tokens⟩ := by
  rw [next]
  dsimp only
  split
  · rename_i stuck
    rw [h] at stuck
    cases stuck
  · rename_i step' taken
    rw [h] at taken
    cases taken
    rfl

/-- Asking a cursor for a token takes the first of its remaining tokens, and the scan behind it ends
where it would have ended. -/
theorem next_spec (table : RuleTable) (cursor : Cursor) :
    (cursor.next table).1 = (cursor.remaining table).1.head? ∧
      ((cursor.next table).2.remaining table).1 = (cursor.remaining table).1.tail ∧
      ((cursor.next table).2.remaining table).2 = (cursor.remaining table).2 := by
  obtain ⟨scan, queue⟩ := cursor
  induction scan using Scan.step_induction table generalizing queue with
  | stop scan h =>
    cases queue with
    | nil =>
      have none_left := Scan.tokens_of_step?_eq_none h
      rw [next_of_step?_eq_none h]
      simp [remaining, none_left]
    | cons t queue =>
      rw [next_of_queue]
      exact ⟨rfl, rfl, rfl⟩
  | step scan step h ih =>
    cases queue with
    | nil =>
      rw [next_of_step?_eq_some h]
      -- the step moves its tokens from the scan into the queue
      have same : remaining table ⟨scan, []⟩ = remaining table ⟨step.next, step.tokens⟩ := by
        rw [remaining, remaining, Scan.tokens_of_step?_eq_some h,
          Scan.finish_of_step?_eq_some h, List.nil_append]
      rw [same]
      exact ih step.tokens
    | cons t queue =>
      rw [next_of_queue]
      exact ⟨rfl, rfl, rfl⟩

/-- A cursor that has been asked `n` times has all tokens left but the first `n`. -/
theorem remaining_after (table : RuleTable) (cursor : Cursor) (n : Nat) :
    (cursor.after table n).remaining table =
      ((cursor.remaining table).1.drop n, (cursor.remaining table).2) := by
  induction n with
  | zero => rfl
  | succ n ih =>
    obtain ⟨-, tail, finish⟩ := next_spec table (cursor.after table n)
    rw [ih] at tail finish
    rw [List.tail_drop] at tail
    exact Prod.ext tail finish

/-- What a cursor hands out when it is asked for the token number `n`. -/
theorem next_after (table : RuleTable) (cursor : Cursor) (n : Nat) :
    ((cursor.after table n).next table).1 = (cursor.remaining table).1[n]? := by
  rw [(next_spec table _).1, remaining_after, List.head?_drop]

/-- The remaining tokens of a new cursor are the tokens of the source. -/
theorem remaining_start (source : List Char) : (start source).remaining table =
    ((Scan.start source).tokens table, ⟨(Scan.start source).finish table, []⟩) := rfl

/-- A request for a token leads the scan of a cursor some steps further. -/
theorem exists_run_next (table : RuleTable) (cursor : Cursor) :
    ∃ done, Scan.Run table cursor.scan done (cursor.next table).2.scan := by
  obtain ⟨scan, queue⟩ := cursor
  induction scan using Scan.step_induction table generalizing queue with
  | stop scan h =>
    cases queue with
    | nil =>
      rw [next_of_step?_eq_none h]
      exact ⟨[], .start⟩
    | cons t queue =>
      rw [next_of_queue]
      exact ⟨[], .start⟩
  | step scan step h ih =>
    cases queue with
    | nil =>
      -- the step may give no token, and then further steps follow
      rw [next_of_step?_eq_some h]
      obtain ⟨done, run⟩ := ih step.tokens
      exact ⟨step :: done, (Scan.Run.single h).trans run⟩
    | cons t queue =>
      rw [next_of_queue]
      exact ⟨[], .start⟩

/-- The scan of a cursor is always at some place of the whole scan. -/
theorem exists_run_after (table : RuleTable) (cursor : Cursor) (n : Nat) :
    ∃ done, Scan.Run table cursor.scan done (cursor.after table n).scan := by
  induction n with
  | zero => exact ⟨[], .start⟩
  | succ n ih =>
    obtain ⟨done, run⟩ := ih
    obtain ⟨more, further⟩ := exists_run_next table (cursor.after table n)
    exact ⟨done ++ more, run.trans further⟩

end Cursor
end FancyTokens
