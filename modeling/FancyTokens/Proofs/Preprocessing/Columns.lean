import FancyTokens.Proofs.Preprocessing.Lines
import Mathlib.Data.List.DropRight
import Mathlib.Order.Bounds.Basic

/-!
# Columns of an expanded text

The expansion of tabs counts columns while it goes over a text. What it should give is said without
a count (`Expands`): each tab becomes the least number of spaces, and at least one, behind which the
text written so far ends in a column of the grid. The count is that column all the time
(`expandTabsFrom_append`), and so the expansion is the one text that is right
(`tabs_lead_to_columns`).
-/

namespace FancyTokens
namespace Preprocessing

/-! ## Columns -/

/-- The column in which a text ends: how many characters there are behind its last line break. -/
def endColumn (s : List Char) : Nat :=
  (s.rtakeWhile (!isLineBreak ·)).length

/-- The second text is the first with its tabs expanded: any other character is kept, and a tab
becomes as few spaces as lead to the next column of the grid. -/
inductive Expands (tabSize : Nat) : (s out : List Char) → Prop
  | nil : Expands tabSize [] []
  | keep {s out c} : Expands tabSize s out → c ≠ '\t' → Expands tabSize (s ++ [c]) (out ++ [c])
  | tab {s out pad} : Expands tabSize s out →
      IsLeast {n | 0 < n ∧ tabSize ∣ endColumn out + n} pad →
      Expands tabSize (s ++ ['\t']) (out ++ List.replicate pad ' ')

variable {tabSize : Nat} {s out newline : List Char} {c : Char}

theorem endColumn_concat (s : List Char) (c : Char) :
    endColumn (s ++ [c]) = if c = '\n' ∨ c = '\r' then 0 else endColumn s + 1 := by
  unfold endColumn
  by_cases breaks : isLineBreak c = true
  · rw [List.rtakeWhile_concat_neg _ _ _ (by simp [breaks]), if_pos (isLineBreak_iff.1 breaks)]
    rfl
  · rw [List.rtakeWhile_concat_pos _ _ _ (by simp [breaks]),
      if_neg (breaks ∘ isLineBreak_iff.2), List.length_append, List.length_singleton]

/-- Each space goes one column on. -/
theorem endColumn_append_replicate (s : List Char) (n : Nat) :
    endColumn (s ++ List.replicate n ' ') = endColumn s + n := by
  induction n with
  | zero => simp
  | succ n ih =>
    rw [List.replicate_succ', ← List.append_assoc, endColumn_concat, ih, if_neg (by decide),
      Nat.add_assoc]

/-- The distance to the next column of the grid, which is not zero for a column of the grid. -/
theorem isLeast_pad (pos : 0 < tabSize) (column : Nat) :
    IsLeast {n | 0 < n ∧ tabSize ∣ column + n} (tabSize - column % tabSize) := by
  have below : column % tabSize < tabSize := Nat.mod_lt column pos
  have parts : tabSize * (column / tabSize) + column % tabSize = column :=
    Nat.div_add_mod column tabSize
  constructor
  · refine ⟨pad_pos column pos, column / tabSize + 1, ?_⟩
    rw [Nat.mul_succ]
    omega
  · rintro n ⟨least, k, eq⟩
    have further : column / tabSize + 1 ≤ k := by
      by_contra less
      have bound : tabSize * k ≤ tabSize * (column / tabSize) :=
        Nat.mul_le_mul_left tabSize (by omega)
      omega
    have bound : tabSize * (column / tabSize + 1) ≤ tabSize * k :=
      Nat.mul_le_mul_left tabSize further
    rw [Nat.mul_succ] at bound
    omega

/-! ## The expansion of a text in parts -/

/-- Behind a part of the text, the expansion goes on from the column in which what it wrote ends. -/
theorem expandTabsFrom_append (tabSize : Nat) (out a b : List Char) :
    expandTabsFrom tabSize (endColumn out) (a ++ b) =
      expandTabsFrom tabSize (endColumn out) a ++
        expandTabsFrom tabSize (endColumn (out ++ expandTabsFrom tabSize (endColumn out) a)) b := by
  -- `out` grows by what becomes of the first character
  induction a generalizing out with
  | nil => simp [expandTabsFrom]
  | cons c a ih =>
    by_cases tab : c = '\t'
    · rw [tab, List.cons_append, expandTabsFrom_tab, expandTabsFrom_tab,
        ← endColumn_append_replicate, ih, List.append_assoc, List.append_assoc]
    · rw [List.cons_append, expandTabsFrom_of_ne_tab _ _ _ tab, expandTabsFrom_of_ne_tab _ _ _ tab,
        ← endColumn_concat, ih, List.append_assoc, List.singleton_append, List.cons_append]

theorem expandTabs_append (tabSize : Nat) (a b : List Char) : expandTabs tabSize (a ++ b) =
    expandTabs tabSize a ++ expandTabsFrom tabSize (endColumn (expandTabs tabSize a)) b :=
  expandTabsFrom_append tabSize [] a b

/-- What follows a tab is expanded from the column to which its spaces lead. -/
theorem expandTabs_append_tab (tabSize : Nat) (a b : List Char) :
    expandTabs tabSize (a ++ '\t' :: b) = expandTabs tabSize a ++
      List.replicate (tabSize - endColumn (expandTabs tabSize a) % tabSize) ' ' ++
      expandTabsFrom tabSize (endColumn (expandTabs tabSize a ++
        List.replicate (tabSize - endColumn (expandTabs tabSize a) % tabSize) ' ')) b := by
  rw [expandTabs_append, expandTabsFrom_tab, endColumn_append_replicate, List.append_assoc]

/-- A line break starts the columns anew. -/
theorem expandTabs_append_break (breaks : isLineBreak c = true) (a b : List Char) :
    expandTabs tabSize (a ++ c :: b) = expandTabs tabSize a ++ c :: expandTabs tabSize b := by
  have other : c ≠ '\t' := by
    rintro rfl
    cases breaks
  rw [expandTabs_append, expandTabsFrom_of_ne_tab _ _ _ other, if_pos (isLineBreak_iff.1 breaks)]
  rfl

theorem expandTabs_append_newline (mem : newline ∈ lineBreaks) (a b : List Char) :
    expandTabs tabSize (a ++ newline ++ b) =
      expandTabs tabSize a ++ newline ++ expandTabs tabSize b := by
  rw [List.append_assoc, List.append_assoc]
  simp only [lineBreaks, List.mem_cons, List.not_mem_nil, or_false] at mem
  obtain rfl | rfl | rfl := mem
  · exact expandTabs_append_break rfl a b
  · exact expandTabs_append_break rfl a b
  · have feed : expandTabs tabSize ('\n' :: b) = '\n' :: expandTabs tabSize b :=
      expandTabs_append_break rfl [] b
    rw [List.cons_append, List.cons_append, List.nil_append, expandTabs_append_break rfl, feed]
    rfl

/-! ## The text that is right -/

theorem expands_expandTabs (pos : 0 < tabSize) (s : List Char) :
    Expands tabSize s (expandTabs tabSize s) := by
  induction s using List.reverseRecOn with
  | nil => exact .nil
  | append_singleton s c ih =>
    rw [expandTabs_append]
    by_cases tab : c = '\t'
    · rw [tab, expandTabsFrom_tab, expandTabsFrom, List.append_nil]
      exact .tab ih (isLeast_pad pos _)
    · rw [expandTabsFrom_of_ne_tab _ _ _ tab, expandTabsFrom]
      exact .keep ih tab

theorem Expands.eq_expandTabs (pos : 0 < tabSize) (h : Expands tabSize s out) :
    out = expandTabs tabSize s := by
  induction h with
  | nil => rfl
  | keep _ other ih =>
    rw [expandTabs_append, ← ih, expandTabsFrom_of_ne_tab _ _ _ other, expandTabsFrom]
  | tab _ least ih =>
    rw [expandTabs_append, ← ih, expandTabsFrom_tab, expandTabsFrom, List.append_nil,
      least.unique (isLeast_pad pos _)]

/-- Spaces break no line, and tabs did not. -/
theorem Expands.filter_isLineBreak (h : Expands tabSize s out) :
    out.filter isLineBreak = s.filter isLineBreak := by
  induction h with
  | nil => rfl
  | keep _ _ ih => rw [List.filter_append, List.filter_append, ih]
  | tab _ _ ih =>
    have spaces (n : Nat) : (List.replicate n ' ').filter isLineBreak = [] := by
      rw [List.filter_replicate_of_neg (by decide)]
    rw [List.filter_append, List.filter_append, ih, spaces]
    rfl

/-- A line is expanded by itself. -/
theorem brokenInto_expandTabs (pos : 0 < tabSize) {ls : List (List Char)} (h : BrokenInto s ls) :
    BrokenInto (expandTabs tabSize s) (ls.map (expandTabs tabSize)) := by
  have stays {line : List Char} (others : ∀ c ∈ line, isLineBreak c = false) :
      ∀ c ∈ expandTabs tabSize line, isLineBreak c = false := by
    intro c mem
    rcases of_mem_expandTabsFrom mem with rfl | ⟨mem, -⟩
    · rfl
    · exact others c mem
  induction h with
  | last others => exact .last (stays others)
  | @cons line newline s ls others mem alone _ ih =>
    rw [expandTabs_append_newline mem]
    refine .cons (stays others) mem ?_ ih
    intro eq head
    rw [expandTabs, head?_expandTabsFrom pos, Option.map_eq_some_iff] at head
    obtain ⟨c, head, same⟩ := head
    by_cases tab : c = '\t'
    · rw [if_pos tab] at same
      cases same
    · rw [if_neg tab] at same
      exact alone eq (same ▸ head)

/-- The expansion of tabs is exact in columns. It gives the one text in which each character other
than a tab is kept and each tab is the least positive number of spaces to a column of the grid. No
tab is left, each has become between one and as many spaces as the grid is wide, and what follows it
stands in a column of the grid. The line breaks stay, and each line is expanded by itself. -/
theorem tabs_lead_to_columns (pos : 0 < tabSize) :
    (∀ s out, expandTabs tabSize s = out ↔ Expands tabSize s out) ∧
      (∀ s, '\t' ∉ expandTabs tabSize s) ∧
      (∀ a b, ∃ pad later, 1 ≤ pad ∧ pad ≤ tabSize ∧
        tabSize ∣ endColumn (expandTabs tabSize a ++ List.replicate pad ' ') ∧
        expandTabs tabSize (a ++ '\t' :: b) =
          expandTabs tabSize a ++ List.replicate pad ' ' ++ later ∧
        later.head? = b.head?.map fun c => if c = '\t' then ' ' else c) ∧
      (∀ s, (expandTabs tabSize s).filter isLineBreak = s.filter isLineBreak) ∧
      (∀ s, lines (expandTabs tabSize s) = (lines s).map (expandTabs tabSize)) ∧
      (∀ newline ∈ lineBreaks, ∀ a b, expandTabs tabSize (a ++ newline ++ b) =
        expandTabs tabSize a ++ newline ++ expandTabs tabSize b) ∧
      ∀ s, '\t' ∉ s → expandTabs tabSize s = s := by
  refine ⟨?_, ?_, ?_, fun s => (expands_expandTabs pos s).filter_isLineBreak, ?_,
    fun newline mem => expandTabs_append_newline mem, fun s => expandTabsFrom_eq_self⟩
  · intro s out
    constructor
    · rintro rfl
      exact expands_expandTabs pos s
    · exact fun h => (h.eq_expandTabs pos).symm
  · intro s mem
    rcases of_mem_expandTabsFrom mem with eq | ⟨-, other⟩
    · cases eq
    · exact other rfl
  · intro a b
    obtain ⟨⟨positive, grid⟩, -⟩ := isLeast_pad pos (endColumn (expandTabs tabSize a))
    rw [← endColumn_append_replicate] at grid
    exact ⟨_, _, positive, Nat.sub_le _ _, grid, expandTabs_append_tab tabSize a b,
      head?_expandTabsFrom pos⟩
  · intro s
    exact lines_eq_iff.2 (brokenInto_expandTabs pos (brokenInto_lines s))

/-- A tab in a column of the grid becomes four spaces, and the letter before one takes one column,
however many bytes it has. -/
theorem tabs_lead_to_columns_four :
    0 < 4 ∧ Expands 4 "abcd\t.\r\né\t\t.".toList "abcd    .\r\né       .".toList ∧
      '\t' ∉ "é  .".toList ∧ expandTabs 4 "é  .".toList = "é  .".toList := by
  have pos : 0 < 4 := by decide
  obtain ⟨exactly, -, -, -, -, -, same⟩ := tabs_lead_to_columns pos
  have none : '\t' ∉ "é  .".toList := by decide
  exact ⟨pos, (exactly _ _).1 (by decide), none, same _ none⟩

end Preprocessing
end FancyTokens
