/-!
# Reading files

A program sees the machine that it runs on through its `Surroundings`: the standard input, the
folder in which it runs and the files, as the actions of some monad.
-/
namespace FancyTokens

/-- Why a path cannot be read: the words of the operating system, and its number for them. -/
structure SystemError where
  description : String
  number : Nat
deriving DecidableEq, Repr

namespace SystemError

def notFound : SystemError := ⟨"No such file or directory", 2⟩

/-- Something other than a folder has names behind it in the path. -/
def notFolder : SystemError := ⟨"Not a directory", 20⟩

/-- A folder has no contents to read. -/
def isFolder : SystemError := ⟨"Is a directory", 21⟩

def nameTooLong : SystemError := ⟨"File name too long", 36⟩

def message (e : SystemError) : String :=
  s!"{e.description} (os error {e.number})"

end SystemError

/-- Why no text can be read. -/
inductive ReadError
  | system (e : SystemError)
  /-- The bytes are not the UTF-8 form of a text. -/
  | notText
deriving DecidableEq, Repr

def ReadError.message : ReadError → String
  | system e => e.message
  | notText => "stream did not contain valid UTF-8"

/-- The text whose UTF-8 form some bytes are. -/
def textOfBytes (bytes : ByteArray) : Except ReadError (List Char) :=
  match String.fromUTF8? bytes with
  | some s => return s.toList
  | none => throw .notText

/-- The text of a file whose bytes have been asked for. -/
def textOfReading (reading : Except SystemError ByteArray) : Except ReadError (List Char) :=
  match reading with
  | .ok bytes => textOfBytes bytes
  | .error e => throw (.system e)

/-- What a program can see of the machine that it runs on. -/
structure Surroundings (m : Type → Type) where
  standardInput : m (Except SystemError ByteArray)
  /-- The names that lead from the root to the folder in which the program runs. -/
  folder : m (List (List Char))
  /-- A path leads to a file, not to a folder or nowhere. -/
  isFile (path : List Char) : m Bool
  read (path : List Char) : m (Except SystemError ByteArray)

end FancyTokens
