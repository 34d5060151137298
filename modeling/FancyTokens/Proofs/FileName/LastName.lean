import FancyTokens.FileName.Component
import FancyTokens.Proofs.Text.Splitting

/-!
# The last name in a path

A path ends at a name if nothing follows the name but slashes and dots that stand alone behind
slashes (`EndsAt`). These are the names that are found in paths (`fileName?_eq_some_iff`).
-/

namespace FancyTokens

/-- A name that a file can have: it is not empty, holds no slash, and stands neither for the folder
itself nor for the one above it. -/
structure IsFileName (name : List Char) : Prop where
  ne_nil : name ≠ []
  notMem : '/' ∉ name
  ne_dot : name ≠ ['.']
  ne_dots : name ≠ ['.', '.']

/-- What has no meaning at the end of a path: slashes, and single dots behind slashes. -/
inductive IsTrail : List Char → Prop
  | nil : IsTrail []
  | slash {trail : List Char} : IsTrail trail → IsTrail ('/' :: trail)
  | dot {trail : List Char} : IsTrail trail → IsTrail ('/' :: '.' :: trail)

/-- A path ends at a name, which stands at its start or behind a slash. -/
inductive EndsAt : (path name : List Char) → Prop
  | alone {name trail : List Char} : IsFileName name → IsTrail trail → EndsAt (name ++ trail) name
  | within {folder name trail : List Char} : IsFileName name → IsTrail trail →
    EndsAt (folder ++ '/' :: (name ++ trail)) name

variable {path name trail trail' : List Char}

theorem IsTrail.append (h : IsTrail trail) (h' : IsTrail trail') : IsTrail (trail ++ trail') := by
  induction h with
  | nil => exact h'
  | slash _ ih => exact slash ih
  | dot _ ih => exact dot ih

theorem IsFileName.endsAt (h : IsFileName name) : EndsAt name name := by
  have found := EndsAt.alone h .nil
  rwa [List.append_nil] at found

theorem IsFileName.endsAt_within (h : IsFileName name) (folder : List Char) :
    EndsAt (folder ++ '/' :: name) name := by
  have found := @EndsAt.within folder name [] h .nil
  rwa [List.append_nil] at found

theorem EndsAt.append (h : EndsAt path name) (h' : IsTrail trail) :
    EndsAt (path ++ trail) name := by
  cases h with
  | alone proper h =>
    rw [List.append_assoc]
    exact alone proper (h.append h')
  | within proper h =>
    rw [List.append_assoc, List.cons_append, List.append_assoc]
    exact within proper (h.append h')

/-! ## Components -/

theorem pathComponents_append (folder path : List Char) :
    pathComponents (folder ++ '/' :: path) = pathComponents folder ++ pathComponents path := by
  rw [pathComponents, splitOn_append, List.filter_append]
  rfl

theorem pathComponents_append_trail (h : IsTrail trail) (path : List Char) :
    pathComponents (path ++ trail) = pathComponents path := by
  induction h generalizing path with
  | nil => rw [List.append_nil]
  | @slash trail _ ih =>
    have none : pathComponents trail = [] := ih []
    rw [pathComponents_append, none, List.append_nil]
  | @dot trail _ ih =>
    have none : pathComponents ('.' :: trail) = [] := ih ['.']
    rw [pathComponents_append, none, List.append_nil]

/-- A text without a slash has itself for its only component, or none at all. -/
theorem pathComponents_of_notMem (single : '/' ∉ name) :
    pathComponents name = if name = [] ∨ name = ['.'] then [] else [name] := by
  rw [pathComponents, splitOn_eq_singleton single]
  split
  case isTrue h => obtain rfl | rfl := h <;> rfl
  case isFalse h =>
    rw [not_or] at h
    exact List.filter_eq_self.2 (by simpa using h)

theorem IsFileName.pathComponents_eq (h : IsFileName name) : pathComponents name = [name] := by
  rw [pathComponents_of_notMem h.notMem, if_neg (not_or.2 ⟨h.ne_nil, h.ne_dot⟩)]

/-! ## The last name -/

theorem fileName?_eq_some_iff_of_concat {names : List (List Char)} {last : List Char}
    (h : pathComponents path = names ++ [last]) :
    fileName? path = some name ↔ last = name ∧ last ≠ ['.', '.'] := by
  rw [fileName?, lastName?, h, List.getLast?_concat, Option.filter_eq_some_iff, Option.some.injEq]
  refine and_congr_right ?_
  rintro rfl
  exact bne_iff_ne

theorem EndsAt.fileName?_eq (h : EndsAt path name) : fileName? path = some name := by
  cases h with
  | @alone _ trail proper h =>
    have last : pathComponents (name ++ trail) = [] ++ [name] := by
      rw [pathComponents_append_trail h, proper.pathComponents_eq]
      rfl
    exact (fileName?_eq_some_iff_of_concat last).2 ⟨rfl, proper.ne_dots⟩
  | @within folder _ trail proper h =>
    have last : pathComponents (folder ++ '/' :: (name ++ trail)) =
        pathComponents folder ++ [name] := by
      rw [pathComponents_append, pathComponents_append_trail h, proper.pathComponents_eq]
    exact (fileName?_eq_some_iff_of_concat last).2 ⟨rfl, proper.ne_dots⟩

/-- A path ends at the last name that is found in it. -/
theorem endsAt_of_fileName? {path name : List Char} (h : fileName? path = some name) :
    EndsAt path name := by
  obtain ⟨piece, single, parts⟩ := exists_last_piece '/' path
  have components := pathComponents_of_notMem single
  by_cases blank : piece = [] ∨ piece = ['.']
  · rw [if_pos blank] at components
    obtain rfl | ⟨front, eq⟩ := parts
    · rw [fileName?, components] at h
      cases h
    · -- the last piece does not count, so the name is looked for in front of it
      have shorter : front.length < path.length := by simp [eq]
      have trail : IsTrail ('/' :: piece) := by
        obtain rfl | rfl := blank
        · exact .slash .nil
        · exact .dot .nil
      rw [eq, fileName?, pathComponents_append, components, List.append_nil] at h
      rw [eq]
      exact (endsAt_of_fileName? h).append trail
  · rw [if_neg blank] at components
    rw [not_or] at blank
    obtain rfl | ⟨front, rfl⟩ := parts
    · have last : pathComponents path = [] ++ [path] := components
      obtain ⟨rfl, other⟩ := (fileName?_eq_some_iff_of_concat last).1 h
      exact IsFileName.endsAt ⟨blank.1, single, blank.2, other⟩
    · have last := pathComponents_append front piece
      rw [components] at last
      obtain ⟨rfl, other⟩ := (fileName?_eq_some_iff_of_concat last).1 h
      exact IsFileName.endsAt_within ⟨blank.1, single, blank.2, other⟩ front
termination_by path.length

theorem fileName?_eq_some_iff : fileName? path = some name ↔ EndsAt path name :=
  ⟨endsAt_of_fileName?, EndsAt.fileName?_eq⟩

/-- A path ends at one name at most. -/
theorem EndsAt.unique {name' : List Char} (h : EndsAt path name) (h' : EndsAt path name') :
    name = name' := by
  have found := h.fileName?_eq
  rw [h'.fileName?_eq] at found
  exact (Option.some.inj found).symm

/-! ## Endings -/

/-- A text without slashes in which not everything is a dot is a name. -/
theorem IsFileName.of_mem {c : Char} (single : '/' ∉ name) (mem : c ∈ name) (visible : c ≠ '.') :
    IsFileName name where
  ne_nil := List.ne_nil_of_mem mem
  notMem := single
  ne_dot := by
    rintro rfl
    simp [visible] at mem
  ne_dots := by
    rintro rfl
    simp [visible] at mem

/-- What a path ends with is the end of its last name, unless there are slashes or only dots in
it. -/
theorem exists_endsAt_of_suffix {ending : List Char} {c : Char} (single : '/' ∉ ending)
    (mem : c ∈ ending) (visible : c ≠ '.') (h : ending <:+ path) :
    ∃ name, EndsAt path name ∧ ending <:+ name := by
  obtain ⟨front, rfl⟩ := h
  obtain ⟨piece, none, parts⟩ := exists_last_piece '/' front
  have proper : IsFileName (piece ++ ending) :=
    .of_mem (List.not_mem_append none single) (List.mem_append_right _ mem) visible
  refine ⟨piece ++ ending, ?_, List.suffix_append _ _⟩
  obtain rfl | ⟨folder, rfl⟩ := parts
  · exact proper.endsAt
  · rw [List.append_assoc, List.cons_append]
    exact proper.endsAt_within folder

end FancyTokens
