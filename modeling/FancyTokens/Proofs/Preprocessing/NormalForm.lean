import FancyTokens.Preprocessing
import FancyTokens.Proofs.Grammar.Fancy
import FancyTokens.Proofs.Scan.Coverage
import FancyTokens.Proofs.Text.Trimming

/-!
# The normal form of a source

Preprocessing runs four passes over a source: line breaks, trimming, tabs, last line break. What a
normal text is (`Preprocessing.IsNormal`) is said without them. Each pass keeps what the ones before
it have brought about: spaces for tabs at the ends of a text do not make it one to be trimmed
(`trimmed_expand`), and the line break put behind a trimmed text is what the next trimming takes
away (`Trimmed.trimEnds_concat`). Preprocessing therefore gives normal texts and leaves them as they
are (`normal_form`).
-/

namespace FancyTokens
namespace Preprocessing

variable {options : Preprocessing} {s core : List Char} {drop : Char → Bool} {c : Char}

/-! ## Normal texts -/

/-- The line break that the options put behind a trimmed text. -/
def lastBreak (options : Preprocessing) : List Char :=
  if options.ensureNewline then ['\n'] else []

/-- A text without carriage returns, without tabs if tabs are replaced, and trimmed as the options
say, with a line break behind it if there has to be one. -/
def IsNormal (options : Preprocessing) (s : List Char) : Prop :=
  '\r' ∉ s ∧ (0 < options.tabSize → '\t' ∉ s) ∧
    if options.stripAll then ∃ core, Trimmed isBlank core ∧ s = core ++ options.lastBreak
    else if options.stripNewlines then
      ∃ core, Trimmed (· == '\n') core ∧ s = core ++ options.lastBreak
    else options.ensureNewline = true → s.getLast? = some '\n'

/-! ## Line breaks -/

theorem return_notMem_normalizeBreaks (s : List Char) : '\r' ∉ normalizeBreaks s := by
  intro mem
  obtain ⟨c, -, eq⟩ := List.mem_map.1 mem
  by_cases h : c = '\r'
  · rw [if_pos h] at eq
    cases eq
  · rw [if_neg h] at eq
    exact h eq

theorem dropReturns_eq_self (h : '\r' ∉ s) : dropReturns s = s := by
  induction s with
  | nil => rfl
  | cons c s ih =>
    rw [List.mem_cons, not_or] at h
    rw [dropReturns, ih h.2]
    -- the first equation of the definition is for a carriage return
    rintro _ rfl -
    exact h.1 rfl

/-- A text without carriage returns has the line breaks that it should have. -/
theorem normalizeBreaks_eq_self (h : '\r' ∉ s) : normalizeBreaks s = s := by
  have same : ∀ c ∈ s, (if c = '\r' then '\n' else c) = c := by
    intro c mem
    have other : c ≠ '\r' := by
      rintro rfl
      exact h mem
    rw [if_neg other]
  rw [normalizeBreaks, dropReturns_eq_self h]
  exact (List.map_congr_left same).trans (List.map_id' s)

/-! ## Tabs -/

section Tabs

variable {tabSize : Nat} {column : Nat}

/-- A tab becomes the spaces up to the next column of the grid. -/
theorem expandTabsFrom_tab (tabSize column : Nat) (s : List Char) :
    expandTabsFrom tabSize column ('\t' :: s) = List.replicate (tabSize - column % tabSize) ' ' ++
      expandTabsFrom tabSize (column + (tabSize - column % tabSize)) s := by
  rw [expandTabsFrom]
  rfl

/-- Any other character stays, and a line break goes back to the first column. -/
theorem expandTabsFrom_of_ne_tab (tabSize column : Nat) (s : List Char) (other : c ≠ '\t') :
    expandTabsFrom tabSize column (c :: s) =
      c :: expandTabsFrom tabSize (if c = '\n' ∨ c = '\r' then 0 else column + 1) s := by
  rw [expandTabsFrom, if_neg other]
  split <;> rfl

/-- There is at least one space for each tab. -/
theorem pad_pos (column : Nat) (pos : 0 < tabSize) : 0 < tabSize - column % tabSize := by
  have below : column % tabSize < tabSize := Nat.mod_lt column pos
  omega

/-- Each character is one of the text other than a tab, or a space. -/
theorem of_mem_expandTabsFrom (mem : c ∈ expandTabsFrom tabSize column s) :
    c = ' ' ∨ c ∈ s ∧ c ≠ '\t' := by
  induction s generalizing column with
  | nil => cases mem
  | cons d s ih =>
    have later {column : Nat} (mem : c ∈ expandTabsFrom tabSize column s) :
        c = ' ' ∨ c ∈ d :: s ∧ c ≠ '\t' :=
      (ih mem).imp_right fun found => ⟨List.mem_cons_of_mem d found.1, found.2⟩
    by_cases tab : d = '\t'
    · rw [tab, expandTabsFrom_tab, List.mem_append] at mem
      rcases mem with space | mem
      · exact .inl (List.eq_of_mem_replicate space)
      · exact later mem
    · rw [expandTabsFrom_of_ne_tab _ _ _ tab] at mem
      rcases List.mem_cons.1 mem with rfl | mem
      · exact .inr ⟨List.mem_cons_self, tab⟩
      · exact later mem

/-- A text without tabs stays the same. -/
theorem expandTabsFrom_eq_self (h : '\t' ∉ s) : expandTabsFrom tabSize column s = s := by
  induction s generalizing column with
  | nil => rfl
  | cons c s ih =>
    rw [List.mem_cons, not_or] at h
    rw [expandTabsFrom_of_ne_tab _ _ _ (Ne.symm h.1), ih h.2]

/-- The first character is that of the text, or a space if that is a tab. -/
theorem head?_expandTabsFrom (pos : 0 < tabSize) :
    (expandTabsFrom tabSize column s).head? = s.head?.map fun c => if c = '\t' then ' ' else c := by
  cases s with
  | nil => rfl
  | cons c s =>
    by_cases tab : c = '\t'
    · have pad : tabSize - column % tabSize ≠ 0 := Nat.ne_of_gt (pad_pos column pos)
      rw [tab, expandTabsFrom_tab]
      simp [List.head?_append, List.head?_replicate, pad]
    · rw [expandTabsFrom_of_ne_tab _ _ _ tab]
      simp [tab]

/-- The last character is that of the text, or a space if that is a tab. -/
theorem getLast?_expandTabsFrom (pos : 0 < tabSize) :
    (expandTabsFrom tabSize column s).getLast? =
      s.getLast?.map fun c => if c = '\t' then ' ' else c := by
  induction s generalizing column with
  | nil => rfl
  | cons c s ih =>
    rw [List.getLast?_cons]
    by_cases tab : c = '\t'
    · have pad : tabSize - column % tabSize ≠ 0 := Nat.ne_of_gt (pad_pos column pos)
      rw [tab, expandTabsFrom_tab, List.getLast?_append, ih]
      cases s.getLast? <;> simp [List.getLast?_replicate, pad]
    · rw [expandTabsFrom_of_ne_tab _ _ _ tab, List.getLast?_cons, ih]
      cases s.getLast? <;> simp [tab]

end Tabs

/-- The text with spaces for its tabs, if tabs are replaced. -/
def expand (options : Preprocessing) (s : List Char) : List Char :=
  if options.tabSize > 0 then expandTabs options.tabSize s else s

theorem expand_eq_self (h : 0 < options.tabSize → '\t' ∉ s) : options.expand s = s := by
  unfold expand
  by_cases pos : options.tabSize > 0
  · rw [if_pos pos]
    exact expandTabsFrom_eq_self (h pos)
  · rw [if_neg pos]

theorem tab_notMem_expand (pos : 0 < options.tabSize) : '\t' ∉ options.expand s := by
  rw [expand, if_pos pos]
  intro mem
  rcases of_mem_expandTabsFrom mem with eq | ⟨-, other⟩
  · cases eq
  · exact other rfl

theorem of_mem_expand (mem : c ∈ options.expand s) : c = ' ' ∨ c ∈ s := by
  unfold expand at mem
  split at mem
  · exact (of_mem_expandTabsFrom mem).imp_right And.left
  · exact .inr mem

/-- Spaces for tabs do not make a trimmed text one to be trimmed, because spaces are dropped only
where tabs are. -/
theorem trimmed_expand (h : Trimmed drop s) (spaces : drop ' ' = true → drop '\t' = true) :
    Trimmed drop (options.expand s) := by
  have keeps {c : Char} (kept : drop c = false) : drop (if c = '\t' then ' ' else c) = false := by
    by_cases tab : c = '\t'
    · rw [if_pos tab]
      rw [tab] at kept
      cases space : drop ' ' with
      | false => rfl
      | true => rw [spaces space] at kept; cases kept
    · rw [if_neg tab]
      exact kept
  unfold Preprocessing.expand
  by_cases pos : options.tabSize > 0
  · rw [if_pos pos]
    constructor
    · rw [expandTabs, head?_expandTabsFrom pos]
      rintro _ mem
      obtain ⟨c, first, rfl⟩ := Option.map_eq_some_iff.1 mem
      exact keeps (h.head c first)
    · rw [expandTabs, getLast?_expandTabsFrom pos]
      rintro _ mem
      obtain ⟨c, last, rfl⟩ := Option.map_eq_some_iff.1 mem
      exact keeps (h.last c last)
  · rw [if_neg pos]
    exact h

/-! ## The last line break -/

/-- The text with a line break at its end, if there has to be one. -/
def finishLine (options : Preprocessing) (s : List Char) : List Char :=
  if options.ensureNewline then endLine s else s

/-- A trimmed text gets its line break. -/
theorem finishLine_of_trimmed (h : Trimmed drop s) (drops : drop '\n' = true) :
    options.finishLine s = s ++ options.lastBreak := by
  have other : s.getLast? ≠ some '\n' := by
    intro last
    have keeps := h.last _ last
    rw [drops] at keeps
    cases keeps
  unfold finishLine lastBreak endLine
  by_cases ensure : options.ensureNewline = true
  · rw [if_pos ensure, if_pos ensure, if_neg other]
  · rw [if_neg ensure, if_neg ensure, List.append_nil]

/-- A text that ends with a line break where it has to is left as it is. -/
theorem finishLine_eq_self (h : options.ensureNewline = true → s.getLast? = some '\n') :
    options.finishLine s = s := by
  unfold finishLine endLine
  by_cases ensure : options.ensureNewline = true
  · rw [if_pos ensure, if_pos (h ensure)]
  · rw [if_neg ensure]

theorem getLast?_finishLine (ensure : options.ensureNewline = true) :
    (options.finishLine s).getLast? = some '\n' := by
  rw [finishLine, if_pos ensure, endLine]
  by_cases last : s.getLast? = some '\n'
  · rw [if_pos last]
    exact last
  · rw [if_neg last]
    exact List.getLast?_concat

theorem of_mem_finishLine (mem : c ∈ options.finishLine s) : c = '\n' ∨ c ∈ s := by
  unfold finishLine endLine at mem
  split at mem
  · split at mem
    · exact .inr mem
    · rcases List.mem_append.1 mem with mem | mem
      · exact .inr mem
      · exact .inl (List.mem_singleton.1 mem)
  · exact .inr mem

/-! ## All passes -/

/-- All four passes may run, whether there is something to be replaced or not. -/
theorem apply_eq (options : Preprocessing) (s : List Char) : options.apply s =
    options.finishLine (options.expand (options.strip (normalizeBreaks s))) := by
  have breaks : (if '\r' ∈ s then normalizeBreaks s else s) = normalizeBreaks s := by
    split
    · rfl
    · next none => exact (normalizeBreaks_eq_self none).symm
  have tabs (t : List Char) : (if options.tabSize > 0 ∧ '\t' ∈ t then
      expandTabs options.tabSize t else t) = options.expand t := by
    by_cases tab : '\t' ∈ t
    · simp only [expand, tab, and_true]
    · rw [if_neg fun h => tab h.2, expand_eq_self fun _ => tab]
  unfold apply
  rw [breaks]
  exact congrArg options.finishLine (tabs _)

theorem strip_subset (options : Preprocessing) (s : List Char) : options.strip s ⊆ s := by
  unfold strip
  split
  · exact trimEnds_subset isBlank s
  · split
    · exact trimEnds_subset (· == '\n') s
    · exact List.Subset.refl s

/-- Each character is one of the text with its line breaks replaced, a space or a line break. -/
theorem of_mem_apply (mem : c ∈ options.apply s) :
    c = '\n' ∨ c = ' ' ∨ c ∈ normalizeBreaks s := by
  rw [apply_eq] at mem
  rcases of_mem_finishLine mem with newline | mem
  · exact .inl newline
  · rcases of_mem_expand mem with space | mem
    · exact .inr (.inl space)
    · exact .inr (.inr (strip_subset options _ mem))

theorem return_notMem_apply (options : Preprocessing) (s : List Char) : '\r' ∉ options.apply s := by
  intro mem
  rcases of_mem_apply mem with eq | eq | mem
  · cases eq
  · cases eq
  · exact return_notMem_normalizeBreaks s mem

theorem tab_notMem_apply (pos : 0 < options.tabSize) : '\t' ∉ options.apply s := by
  intro mem
  rw [apply_eq] at mem
  rcases of_mem_finishLine mem with eq | mem
  · cases eq
  · exact tab_notMem_expand pos mem

/-- The passes behind the trimming of a text: what has been trimmed is trimmed at the end too, and
has a line break behind it if there has to be one. -/
theorem exists_trimmed_eq (spaces : drop ' ' = true → drop '\t' = true)
    (drops : drop '\n' = true) :
    ∃ core, Trimmed drop core ∧
      options.finishLine (options.expand (trimEnds drop s)) = core ++ options.lastBreak := by
  have trimmed : Trimmed drop (options.expand (trimEnds drop s)) :=
    trimmed_expand (trimmed_trimEnds drop s) spaces
  exact ⟨_, trimmed, finishLine_of_trimmed trimmed drops⟩

/-- The passes undo and redo the line break behind a trimmed text. -/
theorem finishLine_expand_trimEnds (h : Trimmed drop core) (drops : drop '\n' = true)
    (tabs : 0 < options.tabSize → '\t' ∉ core ++ options.lastBreak) :
    options.finishLine (options.expand (trimEnds drop (core ++ options.lastBreak))) =
      core ++ options.lastBreak := by
  have trims : trimEnds drop (core ++ options.lastBreak) = core := by
    unfold lastBreak
    by_cases ensure : options.ensureNewline = true
    · rw [if_pos ensure]
      exact h.trimEnds_concat drops
    · rw [if_neg ensure, List.append_nil]
      exact h.trimEnds_eq
  have same : options.expand core = core :=
    expand_eq_self fun pos mem => tabs pos (List.mem_append_left _ mem)
  rw [trims, same, finishLine_of_trimmed h drops]

/-- Preprocessing gives a normal text. -/
theorem isNormal_apply (options : Preprocessing) (s : List Char) :
    options.IsNormal (options.apply s) := by
  refine ⟨return_notMem_apply options s, tab_notMem_apply, ?_⟩
  rw [apply_eq, strip]
  by_cases all : options.stripAll = true
  · rw [if_pos all, if_pos all]
    exact exists_trimmed_eq (fun _ => by decide) (by decide)
  · rw [if_neg all, if_neg all]
    by_cases newlines : options.stripNewlines = true
    · rw [if_pos newlines, if_pos newlines]
      exact exists_trimmed_eq (by decide) (by decide)
    · rw [if_neg newlines]
      exact getLast?_finishLine

/-- Preprocessing leaves a normal text as it is. -/
theorem IsNormal.apply_eq_self (h : options.IsNormal s) : options.apply s = s := by
  obtain ⟨returns, tabs, ends⟩ := h
  rw [apply_eq, normalizeBreaks_eq_self returns, strip]
  by_cases all : options.stripAll = true
  · rw [if_pos all] at ends ⊢
    obtain ⟨core, trimmed, rfl⟩ := ends
    exact finishLine_expand_trimEnds trimmed (by decide) tabs
  · rw [if_neg all] at ends ⊢
    by_cases newlines : options.stripNewlines = true
    · rw [if_pos newlines] at ends ⊢
      obtain ⟨core, trimmed, rfl⟩ := ends
      exact finishLine_expand_trimEnds trimmed (by decide) tabs
    · rw [if_neg newlines] at ends ⊢
      rw [expand_eq_self tabs, finishLine_eq_self ends]

/-- The tokens of a preprocessed source give it back. -/
theorem flatten_tokens (options : Preprocessing) (s : List Char) :
    ((options.tokens s).map Prod.snd).flatten = options.apply s := by
  obtain ⟨tiling, -⟩ := (Scan.behind_start (options.apply s)).tiling_tokens fancyTable_anchored
  have whole : detokenize (tokenize (options.apply s)) = options.apply s := tiling.detokenize_eq
  rw [tokens, categorized, List.map_map, ← List.flatMap_def]
  exact whole

/-- Preprocessing gives a normal text and leaves every normal text as it is. Doing it twice is
therefore doing it once, for the text and for its tokens, and the tokens make up a normal text. -/
theorem normal_form (options : Preprocessing) :
    (∀ s, options.IsNormal (options.apply s)) ∧
      (∀ s, options.IsNormal s → options.apply s = s) ∧
      (∀ s, options.apply (options.apply s) = options.apply s) ∧
      (∀ s, options.tokens (options.apply s) = options.tokens s) ∧
      ∀ s, options.IsNormal ((options.tokens s).map Prod.snd).flatten := by
  have twice (s : List Char) : options.apply (options.apply s) = options.apply s :=
    (isNormal_apply options s).apply_eq_self
  refine ⟨isNormal_apply options, fun s h => h.apply_eq_self, twice, ?_, ?_⟩
  · intro s
    rw [tokens, tokens, twice]
  · intro s
    rw [flatten_tokens]
    exact isNormal_apply options s

/-- A normal text whose core starts with a space and ends with a no-break space, which only the
trimming of all white space would take away. -/
theorem normal_form_spaced : ∃ options : Preprocessing, options.tabSize = 4 ∧
    options.IsNormal " a\nb\u00a0\n".toList ∧
    options.apply " a\nb\u00a0\n".toList = " a\nb\u00a0\n".toList := by
  have core : Trimmed (· == '\n') " a\nb\u00a0".toList := by
    constructor
    · intro c mem
      obtain rfl : ' ' = c := Option.some.inj mem
      decide
    · intro c mem
      obtain rfl : '\u00a0' = c := Option.some.inj mem
      decide
  have normal : IsNormal { tabSize := 4 } " a\nb\u00a0\n".toList :=
    ⟨by decide, by decide, _, core, by decide⟩
  exact ⟨{ tabSize := 4 }, rfl, normal, (normal_form { tabSize := 4 }).2.1 _ normal⟩

end Preprocessing
end FancyTokens
