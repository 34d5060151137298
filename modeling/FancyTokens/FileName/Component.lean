/-!
# The names in a path

Paths are names between slashes. Repeated slashes, a slash at the end and the name `.` have no
meaning, except that a path may consist of nothing else. A path that is not absolute is taken from
the folder in which a program runs, and any path can be shown as it is seen from there.
-/
namespace FancyTokens

/-- The pieces of a text between the occurrences of a character. -/
def splitOn (separator : Char) : List Char → List (List Char)
  | [] => [[]]
  | c :: s =>
    if c = separator then [] :: splitOn separator s
    else match splitOn separator s with
      | [] => [[c]]
      | piece :: pieces => (c :: piece) :: pieces

/-- The names in a path that mean something. -/
def pathComponents (path : List Char) : List (List Char) :=
  (splitOn '/' path).filter fun name => name != [] && name != ['.']

/-- The last of some names, unless it leads to a parent directory or there is none. -/
def lastName? (names : List (List Char)) : Option (List Char) :=
  names.getLast?.filter (· != ['.', '.'])

/-- The last name of a path, unless the path ends at a parent directory or has no name. -/
def fileName? (path : List Char) : Option (List Char) :=
  lastName? (pathComponents path)

/-! ## Paths from a folder -/

/-- The path of some names, with single slashes between them. -/
def joinNames (names : List (List Char)) : List Char :=
  ['/'].intercalate names

/-- The path is taken from the root. -/
def isAbsolute (path : List Char) : Bool :=
  path.head? = some '/'

/-- The names that lead from the root to a path, which is taken from a folder unless it is
absolute. -/
def namesFromRoot (folder : List (List Char)) (path : List Char) : List (List Char) :=
  if isAbsolute path then pathComponents path else folder ++ pathComponents path

/-- The names that lead from a folder to where others lead from the root: up to the folder in which
the two part, and down from there. -/
def seenFrom : (folder names : List (List Char)) → List (List Char)
  | name :: folder, next :: names =>
    if name = next then seenFrom folder names
    else (name :: folder).map (fun _ => ['.', '.']) ++ next :: names
  | folder, names => folder.map (fun _ => ['.', '.']) ++ names

theorem seenFrom_append (folder names : List (List Char)) :
    seenFrom folder (folder ++ names) = names := by
  induction folder with
  | nil => rw [List.nil_append, seenFrom, List.map_nil, List.nil_append]; nofun
  | cons name folder ih => rw [List.cons_append, seenFrom, if_pos rfl, ih]

/-- A path as it is seen from a folder, without what has no meaning in it. -/
def shownPath (folder : List (List Char)) (path : List Char) : List Char :=
  joinNames (seenFrom folder (namesFromRoot folder path))

/-- A path that is not absolute looks the same from every folder. -/
theorem shownPath_of_not_isAbsolute {path : List Char} (relative : isAbsolute path = false)
    (folder : List (List Char)) : shownPath folder path = joinNames (pathComponents path) := by
  rw [shownPath, namesFromRoot, if_neg (Bool.eq_false_iff.1 relative), seenFrom_append]

end FancyTokens
