import FancyTokens.Proofs.Scan.Coverage

/-!
# A scan can be resumed anywhere

A scan remembers nothing but its stack. Between two steps, what is still to come is what a scan of
the remaining text gives that begins with the same stack, moved by the bytes already scanned
(`scan_resumes`). The argument is that of two runs side by side: a scan that is moved takes the same
steps, moved (`step?_shift`), and therefore the same runs (`steps_shift`).
-/

namespace FancyTokens

/-! ## Moving by some bytes -/

/-- The token, `k` bytes further on. -/
def Token.shift (k : Nat) (t : Token) : Token :=
  { t with start := k + t.start, stop := k + t.stop }

/-- The event, `k` bytes further on. -/
def Event.shift (k : Nat) : Event → Event
  | .entered offset mode => .entered (k + offset) mode
  | .left offset mode => .left (k + offset) mode
  | .reset offset mode => .reset (k + offset) mode
  | .unmatched offset mode character => .unmatched (k + offset) mode character

/-- The same stack and remaining text, `k` bytes further on. -/
def Scan.shift (k : Nat) (scan : Scan) : Scan :=
  { scan with offset := k + scan.offset }

/-- The step, `k` bytes further on. -/
def Step.shift (k : Nat) (step : Step) : Step :=
  ⟨step.tokens.map (.shift k), step.events.map (.shift k), step.next.shift k⟩

variable {table : RuleTable} (k : Nat)

theorem Token.shift_ofText (category : Category) (start : Nat) (text : List Char) :
    (Token.ofText category start text).shift k = .ofText category (k + start) text := by
  simp [Token.shift, Token.ofText, Nat.add_assoc]

/-- Moving a token keeps its category and its text. -/
theorem Token.content_shift (tokens : List Token) :
    (tokens.map (Token.shift k)).map (fun t => (t.category, t.text)) =
      tokens.map fun t => (t.category, t.text) := by
  rw [List.map_map]
  rfl

/-! ## The tokens of a match -/

theorem gap?_shift (offset : Nat) (whole : List Char) (start stop : Nat) :
    gap? (k + offset) whole start stop = (gap? offset whole start stop).map (·.map (.shift k)) := by
  unfold gap?
  split
  · rw [Option.map_map]
    congr 1
    funext text
    simp [Token.shift_ofText, Nat.add_assoc]
  · rfl

theorem groupTokens?_shift (offset : Nat) (s whole : List Char) (covered : Nat)
    (groups : List (Category × Option Span)) :
    groupTokens? (k + offset) s whole covered groups =
      (groupTokens? offset s whole covered groups).map (·.map (.shift k)) := by
  induction groups generalizing covered with
  | nil => exact gap?_shift k offset whole covered (byteLength whole)
  | cons g groups ih =>
    obtain ⟨category, _ | span⟩ := g
    · exact ih covered
    · rw [groupTokens?, groupTokens?]
      split
      · rw [gap?_shift, ih]
        cases gap? offset whole covered span.start with
        | none => rfl
        | some gap =>
          cases slice? s span.start span.stop with
          | none => rfl
          | some text =>
            cases groupTokens? offset s whole span.stop groups with
            | none => rfl
            | some tokens => simp [Token.shift_ofText, Nat.add_assoc]
      · exact ih covered

theorem emission?_shift (offset : Nat) (s : List Char) (action : Action)
    (found : Pattern.Found) : emission? (k + offset) s action found =
      (emission? offset s action found).map (·.map (.shift k)) := by
  unfold emission?
  cases slice? s found.whole.start found.whole.stop with
  | none => rfl
  | some whole =>
    cases action with
    | whole category => simp [Token.shift_ofText]
    | byGroups categories => exact groupTokens?_shift k offset s whole 0 _

/-! ## Steps -/

namespace Scan

theorem applyTransition_shift (offset : Nat) (stack : Stack) (transition : Transition) :
    applyTransition (k + offset) stack transition =
      ((applyTransition offset stack transition).1.map (.shift k),
        (applyTransition offset stack transition).2) := by
  cases transition with
  | stay => rfl
  | push mode => rfl
  | pop =>
    unfold applyTransition
    dsimp only
    split <;> rfl

theorem advance_shift (scan : Scan) (s : List Char) (rule : Rule) (m : RuleMatch)
    (tokens : List Token) :
    (scan.shift k).advance s rule m (tokens.map (.shift k)) =
      (scan.advance s rule m tokens).shift k := by
  simp [advance, shift, Step.shift, Nat.add_assoc, applyTransition_shift]

theorem recover_shift (scan : Scan) (c : Char) (rest : List Char) :
    (scan.shift k).recover c rest = (scan.recover c rest).shift k := by
  unfold recover
  by_cases newline : c = '\n'
  · by_cases base : scan.stack = .base
    · simp [shift, newline, base, Step.shift, Token.shift_ofText, Nat.add_assoc]
    · simp [shift, newline, base, Step.shift, Token.shift_ofText, Event.shift, Nat.add_assoc]
  · simp [shift, if_neg newline, Step.shift, Token.shift_ofText, Event.shift, Nat.add_assoc]

/-- A scan that is moved takes the same steps, moved. -/
theorem step?_shift (scan : Scan) :
    (scan.shift k).step? table = (scan.step? table).map (.shift k) := by
  have rest : (scan.shift k).rest = scan.rest := rfl
  have stack : (scan.shift k).stack = scan.stack := rfl
  rw [step?, step?, rest, stack]
  split
  · rfl
  · rfl
  -- the rules see the remaining text and the top of the stack, which are not moved
  · split
    · rw [recover_shift]
      rfl
    · rfl
    · have offset : (scan.shift k).offset = k + scan.offset := rfl
      rw [offset, emission?_shift, Option.map_map, Option.map_map]
      congr 1
      funext tokens
      exact advance_shift k scan _ _ _ tokens

/-- A scan that is moved goes on as it would have gone on, moved. -/
theorem steps_shift (scan : Scan) :
    (scan.shift k).steps table = (scan.steps table).map (.shift k) := by
  induction scan using step_induction table with
  | stop scan h =>
    have moved : (scan.shift k).step? table = none := by rw [step?_shift, h, Option.map_none]
    rw [steps_of_step?_eq_none h, steps_of_step?_eq_none moved, List.map_nil]
  | step scan step h ih =>
    have moved : (scan.shift k).step? table = some (step.shift k) := by
      rw [step?_shift, h, Option.map_some]
    rw [steps_of_step?_eq_some h, steps_of_step?_eq_some moved, List.map_cons]
    exact congrArg _ ih

theorem tokens_shift (scan : Scan) :
    (scan.shift k).tokens table = (scan.tokens table).map (.shift k) := by
  rw [tokens, tokens, steps_shift, List.flatMap_map, List.map_flatMap]
  rfl

theorem events_shift (scan : Scan) :
    (scan.shift k).events table = (scan.events table).map (.shift k) := by
  rw [events, events, steps_shift, List.flatMap_map, List.map_flatMap]
  rfl

theorem finish_shift (scan : Scan) :
    (scan.shift k).finish table = (scan.finish table).shift k := by
  induction scan using step_induction table with
  | stop scan h =>
    have moved : (scan.shift k).step? table = none := by rw [step?_shift, h, Option.map_none]
    rw [finish_of_step?_eq_none h, finish_of_step?_eq_none moved]
  | step scan step h ih =>
    have moved : (scan.shift k).step? table = some (step.shift k) := by
      rw [step?_shift, h, Option.map_some]
    rw [finish_of_step?_eq_some h, finish_of_step?_eq_some moved]
    exact ih

end Scan

/-! ## Resumption -/

/-- A cursor with the text `rest` before it stands where a scan of `rest` with the same stack
begins, moved. -/
theorem Cursor.scan_after_eq_shift {source rest : List Char} {n : Nat}
    (remains : slice? source ((start source).after table n).scan.offset (byteLength source) =
      some rest) :
    ((start source).after table n).scan =
      Scan.shift ((start source).after table n).scan.offset
        ⟨0, ((start source).after table n).scan.stack, some rest⟩ := by
  obtain ⟨done, run⟩ := exists_run_after table (start source) n
  rw [Scan.shift, ← remains, ← run.rest_eq]
  rfl

/-- The remaining tokens of a cursor that has nothing queued are those of a scan of the remaining
text, moved. -/
theorem Cursor.remaining_after_eq_shift {source rest : List Char} {n : Nat}
    (idle : ((start source).after table n).queue = [])
    (remains : slice? source ((start source).after table n).scan.offset (byteLength source) =
      some rest) :
    (((start source).after table n).remaining table).1 =
      (Scan.tokens table ⟨0, ((start source).after table n).scan.stack, some rest⟩).map
        (.shift ((start source).after table n).scan.offset) := by
  have moved := congrArg (Scan.tokens table) (scan_after_eq_shift remains)
  rw [Scan.tokens_shift] at moved
  rw [remaining, idle, List.nil_append]
  exact moved

/-- The outermost mode is all that a stack of depth one holds. -/
theorem Stack.eq_base_of_depth_eq_one {stack : Stack} (h : stack.depth = 1) : stack = .base := by
  obtain ⟨above⟩ := stack
  have empty : above = [] := List.length_eq_zero_iff.1 (by simpa [Stack.depth] using h)
  rw [empty]
  rfl

/-- Whenever a cursor has nothing queued and `rest` is the source from its offset on, all that is
still to come is what a scan of `rest` gives that begins with the same stack, moved by the offset:
step by step, and so the tokens, the events and the place where it ends. At depth one this is the
scan of `rest` from the start; and wherever another source leaves the same remainder and the same
stack, the same tokens follow but for their offsets. -/
theorem scan_resumes (table : RuleTable) (source : List Char) (n : Nat) (rest : List Char) :
    let cursor := (Cursor.start source).after table n
    let k := cursor.scan.offset
    let anew : Scan := ⟨0, cursor.scan.stack, some rest⟩
    cursor.queue = [] → slice? source k (byteLength source) = some rest →
      cursor.scan.steps table = (anew.steps table).map (.shift k) ∧
      (cursor.remaining table).1 = (anew.tokens table).map (.shift k) ∧
      cursor.scan.events table = (anew.events table).map (.shift k) ∧
      (cursor.remaining table).2.scan = (anew.finish table).shift k ∧
      (cursor.scan.stack.depth = 1 →
        (cursor.remaining table).1 = ((Scan.start rest).tokens table).map (.shift k)) ∧
      ∀ source' n', let cursor' := (Cursor.start source').after table n'
        cursor'.queue = [] →
        slice? source' cursor'.scan.offset (byteLength source') = some rest →
        cursor'.scan.stack = cursor.scan.stack →
        (cursor'.remaining table).1.map (fun t => (t.category, t.text)) =
          (cursor.remaining table).1.map fun t => (t.category, t.text) := by
  intro cursor k anew idle remains
  -- the place of the cursor is the start of the new scan, moved; all else is moved with it
  have here : cursor.scan = anew.shift k := Cursor.scan_after_eq_shift remains
  have left := Cursor.remaining_after_eq_shift idle remains
  refine ⟨?_, left, ?_, ?_, ?_, ?_⟩
  · rw [here]
    exact Scan.steps_shift k anew
  · rw [here]
    exact Scan.events_shift k anew
  · show cursor.scan.finish table = _
    rw [here]
    exact Scan.finish_shift k anew
  · intro depth
    rw [left, Stack.eq_base_of_depth_eq_one depth]
    rfl
  · intro source' n' cursor' idle' remains' stack
    rw [Cursor.remaining_after_eq_shift idle' remains', left, Token.content_shift,
      Token.content_shift, stack]

theorem scan_resumes_nested : ∃ table, RuleTable.compile? nestedGrammar = some table ∧
    (let rest := "xé".toList
     let cursor := (Cursor.start ('<' :: rest)).after table 1
     cursor.queue = [] ∧ slice? ('<' :: rest) cursor.scan.offset 4 = some rest ∧
      (cursor.remaining table).1 =
        (Scan.tokens table ⟨0, ⟨[.balancedRegex]⟩, some rest⟩).map (.shift 1)) := by
  have first : (RuleTable.compile? nestedGrammar).bind (Scan.step? · (.start "<xé".toList)) =
      some ⟨[.ofText .punctuation 0 ['<']], [.entered 1 .balancedRegex],
        ⟨1, ⟨[.balancedRegex]⟩, some "xé".toList⟩⟩ := by
    decide +kernel
  obtain ⟨table, compiled, taken⟩ := Option.bind_eq_some_iff.1 first
  have place : (Cursor.start "<xé".toList).after table 1 =
      ⟨⟨1, ⟨[.balancedRegex]⟩, some "xé".toList⟩, []⟩ := by
    rw [Cursor.after, Cursor.after, Cursor.start, Cursor.next_of_step?_eq_some taken,
      Cursor.next_of_queue]
  have cut : slice? "<xé".toList 1 4 = some "xé".toList := by decide
  have resumed := scan_resumes table "<xé".toList 1 "xé".toList
  rw [place] at resumed
  refine ⟨table, compiled, ?_⟩
  dsimp only
  rw [show '<' :: "xé".toList = "<xé".toList from rfl, place]
  exact ⟨rfl, cut, (resumed rfl cut).2.1⟩

end FancyTokens
