import FancyTokens.FileName.Component
import FancyTokens.Files.Reading
import FancyTokens.Text.Bytes

/-!
# Folders of known files

A folder is given by the files in it and below it. Paths are followed from the folder, one name
after the other; of what lies outside nothing is known but the folders that contain this one.
-/
namespace FancyTokens

structure Folder where
  /-- Each file, by the names that lead to it. -/
  files : List (List (List Char) × ByteArray)

namespace Folder

/-- Where a path leads. -/
inductive Place
  | file (contents : ByteArray)
  /-- The folder itself, or one in it that the names lead to. -/
  | inside (names : List (List Char))
  /-- A folder that contains this one. -/
  | outside

/-- The longest name of a file, in bytes. -/
def nameLimit : Nat := 255

/-- The longest path, in bytes. -/
def pathLimit : Nat := 4095

/-- The place of a name in a folder. -/
def child (folder : Folder) (names : List (List Char)) : Except SystemError Place :=
  match folder.files.find? (·.1 == names) with
  | some (_, contents) => return .file contents
  | none =>
    if folder.files.any (names.isPrefixOf ·.1) then return .inside names else throw .notFound

/-- The place that a name leads to from another place. Empty names are those around superfluous
slashes; they mean the same as a single period. -/
def step (folder : Folder) (place : Place) (name : List Char) : Except SystemError Place :=
  match place with
  | .file _ => throw .notFolder
  | .inside names =>
    if name = [] ∨ name = ['.'] then return place
    else if name = ['.', '.'] then return if names = [] then .outside else .inside names.dropLast
    else if nameLimit < byteLength name then throw .nameTooLong
    else folder.child (names ++ [name])
  | .outside =>
    if name = [] ∨ name = ['.'] ∨ name = ['.', '.'] then return place
    else if nameLimit < byteLength name then throw .nameTooLong
    else throw .notFound

/-- The place that a path leads to. -/
def follow (folder : Folder) (path : List Char) : Except SystemError Place :=
  if path = [] then throw .notFound
  else if pathLimit < byteLength path then throw .nameTooLong
  else
    let start := if isAbsolute path then Place.outside else .inside []
    (splitOn '/' path).foldlM folder.step start

/-- The contents of the file that a path leads to. -/
def read (folder : Folder) (path : List Char) : Except SystemError ByteArray :=
  match folder.follow path with
  | .ok (.file contents) => return contents
  | .ok _ => throw .isFolder
  | .error e => throw e

/-- The surroundings of a program that is run in the folder and can read its standard input. No
names are known that lead to the folder. -/
def surroundings (folder : Folder) (standardInput : ByteArray) : Surroundings Id where
  standardInput := .ok standardInput
  folder := []
  isFile path := (folder.read path).isOk
  read path := folder.read path

end Folder
end FancyTokens
