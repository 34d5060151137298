import FancyTokens.Language
import FancyTokens.Proofs.FileName.LastName
import Mathlib.Data.List.Infix

/-!
# Names with endings

A pattern that is a star and some plain text describes the names that end with this text
(`Glob.any_accepts_star_iff`). The files of a language with such patterns only are those whose last
name in the path has one of the endings (`Language.HasEndings.matchesPath_iff`).
-/

namespace FancyTokens
namespace Glob

variable {w ending name : List Char}

/-! ## Patterns for endings -/

/-- A character that stands for itself in a pattern, wherever it is. -/
def isLiteral (c : Char) : Bool :=
  c != '?' && c != '*' && c != '['

theorem readParts?_cons_of_isLiteral {c : Char} (literal : isLiteral c = true) (fuel : Nat)
    (atStart : Bool) (s : List Char) :
    readParts? (fuel + 1) atStart (c :: s) =
      (readParts? fuel (c == '/') s).map (.char c :: ·) := by
  simp only [isLiteral, Bool.and_eq_true, bne_iff_ne] at literal
  obtain ⟨⟨notAny, notStar⟩, notSet⟩ := literal
  rw [readParts?] <;> simp [notAny, notStar, notSet]

/-- Literal characters are read as themselves. -/
theorem readParts?_of_isLiteral (literal : ∀ c ∈ w, isLiteral c = true) {fuel : Nat}
    (enough : w.length ≤ fuel) (atStart : Bool) :
    readParts? fuel atStart w = some (w.map .char) := by
  induction w generalizing fuel atStart with
  | nil => cases fuel <;> rfl
  | cons c w ih =>
    obtain ⟨first, others⟩ := List.forall_mem_cons.1 literal
    cases fuel with
    | zero => cases enough
    | succ fuel =>
      rw [readParts?_cons_of_isLiteral first, ih others (Nat.le_of_succ_le_succ enough)]
      rfl

/-- A star before literal characters is read as any text before them. -/
theorem read?_star (nonempty : w ≠ []) (literal : ∀ c ∈ w, isLiteral c = true) :
    read? ('*' :: w) = some (.anyText :: w.map .char) := by
  obtain ⟨c, w, rfl⟩ := List.exists_cons_of_ne_nil nonempty
  have notStar : c ≠ '*' := by
    rintro rfl
    cases literal _ List.mem_cons_self
  rw [read?, List.length_cons, readParts?]
  · rw [readParts?_of_isLiteral literal (Nat.le_refl _)]
    rfl
  all_goals simp [notStar]

theorem anyRest_eq_true_iff {p : List Char → Bool} {previous : Option Char} {s : List Char} :
    anyRest (fun _ => true) p previous s = true ↔ ∃ t, t <:+ s ∧ p t = true := by
  induction s generalizing previous with
  | nil => simp [anyRest]
  | cons c s ih =>
    rw [anyRest, Bool.or_eq_true, ih, Bool.true_and]
    simp only [List.suffix_cons_iff, or_and_right, exists_or, exists_eq_left]

theorem accepts_map_char_iff : accepts (w.map .char) name = true ↔ name = w := by
  induction w generalizing name with
  | nil => exact List.isEmpty_iff
  | cons c w ih =>
    cases name with
    | nil => simp [accepts]
    | cons d name =>
      show (c == d && accepts (w.map .char) name) = true ↔ _
      rw [Bool.and_eq_true, ih, beq_iff_eq, List.cons.injEq, eq_comm]

/-- A star and an ending describe the names with this ending. -/
theorem any_accepts_star_iff (nonempty : ending ≠ []) (literal : ∀ c ∈ ending, isLiteral c = true) :
    (read? ('*' :: ending)).any (·.accepts name) = true ↔ ending <:+ name := by
  rw [read?_star nonempty literal, Option.any_some, accepts, anyRest_eq_true_iff]
  simp only [accepts_map_char_iff, exists_eq_right]

end Glob

namespace Language

variable {language : Language} {endings : List (List Char)} {path name : List Char}

/-! ## Languages -/

/-- The last name of a path decides about its language. -/
theorem matchesPath_of_endsAt (h : EndsAt path name) :
    language.matchesPath path = language.describes name := by
  rw [matchesPath, h.fileName?_eq, Option.getD_some]

/-- A path without a name is taken as a whole. -/
theorem matchesPath_of_not_endsAt (h : ∀ name, ¬ EndsAt path name) :
    language.matchesPath path = language.describes path := by
  have none : fileName? path = none :=
    Option.eq_none_iff_forall_not_mem.2 fun name found => h name (fileName?_eq_some_iff.1 found)
  rw [matchesPath, none, Option.getD_none]

/-- The patterns of a language are a star with an ending each. The endings are plain text without
slashes, and not all of an ending is dots. -/
structure HasEndings (language : Language) (endings : List (List Char)) : Prop where
  patterns : language.fileNames.map String.toList = endings.map ('*' :: ·)
  literal : ∀ ending ∈ endings, ending.all Glob.isLiteral = true
  notMem : ∀ ending ∈ endings, '/' ∉ ending
  visible : ∀ ending ∈ endings, ending.any (· != '.') = true

theorem HasEndings.exists_mem (h : language.HasEndings endings) {ending : List Char}
    (mem : ending ∈ endings) : ∃ c ∈ ending, c ≠ '.' := by
  obtain ⟨c, inside, visible⟩ := List.any_eq_true.1 (h.visible ending mem)
  exact ⟨c, inside, bne_iff_ne.1 visible⟩

theorem HasEndings.describes_iff (h : language.HasEndings endings) :
    language.describes name = true ↔ ∃ ending ∈ endings, ending <:+ name := by
  have patterns : language.describes name = (endings.map ('*' :: ·)).any fun pattern =>
      (Glob.read? pattern).any (·.accepts name) := by
    rw [← h.patterns, List.any_map]
    rfl
  rw [patterns, List.any_map, List.any_eq_true]
  refine exists_congr fun ending => and_congr_right fun mem => ?_
  obtain ⟨c, inside, -⟩ := h.exists_mem mem
  exact Glob.any_accepts_star_iff (List.ne_nil_of_mem inside)
    (List.all_eq_true.1 (h.literal ending mem))

/-- The files of such a language are those whose name has one of the endings. A path without a name
has none of them. -/
theorem HasEndings.matchesPath_iff (h : language.HasEndings endings) :
    language.matchesPath path = true ↔
      ∃ name, EndsAt path name ∧ ∃ ending ∈ endings, ending <:+ name := by
  by_cases named : ∃ name, EndsAt path name
  · obtain ⟨name, ends⟩ := named
    rw [matchesPath_of_endsAt ends, h.describes_iff]
    constructor
    · exact fun found => ⟨name, ends, found⟩
    · rintro ⟨name', ends', found⟩
      rwa [ends.unique ends']
  · have nowhere : ¬ ∃ name, EndsAt path name ∧ ∃ ending ∈ endings, ending <:+ name :=
      fun ⟨name, ends, _⟩ => named ⟨name, ends⟩
    rw [matchesPath_of_not_endsAt (not_exists.1 named), h.describes_iff]
    refine iff_of_false ?_ nowhere
    rintro ⟨ending, mem, suffix⟩
    obtain ⟨c, inside, visible⟩ := h.exists_mem mem
    obtain ⟨name, ends, -⟩ := exists_endsAt_of_suffix (h.notMem ending mem) inside visible suffix
    exact named ⟨name, ends⟩

theorem hasEndings_fancy : fancy.HasEndings [".fy".toList, ".fancypack".toList] where
  patterns := rfl
  literal := by decide
  notMem := by decide
  visible := by decide

/-- Only the last name of a path decides about its language, whatever folder it is in and whether a
slash or a dot behind a slash follows. The files of Fancy are those whose name ends with one of two
endings, in lower case and behind any text. -/
theorem last_name_decides :
    (∀ (language : Language) (folder name : List Char), IsFileName name →
      language.matchesPath (folder ++ '/' :: name) = language.matchesPath name ∧
        language.matchesPath (name ++ ['/']) = language.matchesPath name ∧
        language.matchesPath (name ++ ['/', '.']) = language.matchesPath name) ∧
      ∀ path, fancy.matchesPath path = true ↔ ∃ name, EndsAt path name ∧
        (".fy".toList <:+ name ∨ ".fancypack".toList <:+ name) := by
  constructor
  · intro language folder name proper
    have slash : EndsAt (name ++ ['/']) name := .alone proper (.slash .nil)
    have dot : EndsAt (name ++ ['/', '.']) name := .alone proper (.dot .nil)
    rw [matchesPath_of_endsAt proper.endsAt, matchesPath_of_endsAt (proper.endsAt_within folder),
      matchesPath_of_endsAt slash, matchesPath_of_endsAt dot]
    exact ⟨rfl, rfl, rfl⟩
  · intro path
    rw [hasEndings_fancy.matchesPath_iff]
    simp only [List.mem_cons, List.not_mem_nil, or_false, exists_eq_or_imp, exists_eq_left]

/-- A name behind folders of all kinds, and a name that is nothing but an ending. -/
theorem last_name_decides_hidden :
    let spec : Language := { name := "Spec", fileNames := ["*.fy[ab]", "Fancyfile?"] }
    IsFileName "core.fya".toList ∧
      spec.matchesPath "/a.rb/..//core.fya".toList = spec.matchesPath "core.fya".toList ∧
      fancy.matchesPath "lib/.fy/.//".toList = true := by
  intro spec
  have proper : IsFileName "core.fya".toList := ⟨by decide, by decide, by decide, by decide⟩
  have hidden : EndsAt "lib/.fy/.//".toList ".fy".toList :=
    @EndsAt.within "lib".toList ".fy".toList _ ⟨by decide, by decide, by decide, by decide⟩
      (.dot (.slash (.slash .nil)))
  exact ⟨proper, (last_name_decides.1 spec "/a.rb/../".toList _ proper).1,
    (last_name_decides.2 _).2 ⟨_, hidden, .inl (List.suffix_refl _)⟩⟩

end Language
end FancyTokens
