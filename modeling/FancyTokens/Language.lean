import FancyTokens.FileName.Component
import FancyTokens.FileName.Glob
import FancyTokens.Text.Lowercase

/-!
# Languages as a highlighter knows them

The names, file names and media types by which a highlighter chooses the lexer of a language.
-/
namespace FancyTokens

structure Language where
  name : String
  aliases : List String := []
  /-- Patterns for the names of its files. -/
  fileNames : List String := []
  mediaTypes : List String := []
deriving DecidableEq, Repr

namespace Language

/-- The language goes by a name, in whatever case. -/
def hasAlias (language : Language) (name : List Char) : Bool :=
  language.aliases.any (equalIgnoringCase ·.toList name)

/-- The language has a media type, in whatever case. -/
def hasMediaType (language : Language) (type : List Char) : Bool :=
  language.mediaTypes.any (equalIgnoringCase ·.toList type)

/-- A text is described by one of the patterns for file names. A malformed pattern describes
nothing. -/
def describes (language : Language) (name : List Char) : Bool :=
  language.fileNames.any fun pattern => (Glob.read? pattern.toList).any (·.accepts name)

/-- The file of a path belongs to the language. The last name in the path decides, or the whole
path if it has none. -/
def matchesPath (language : Language) (path : List Char) : Bool :=
  language.describes ((fileName? path).getD path)

end Language

/-- The language Fancy. -/
def fancy : Language where
  name := "Fancy"
  aliases := ["fancy", "fy"]
  fileNames := ["*.fy", "*.fancypack"]
  mediaTypes := ["text/x-fancysrc"]

end FancyTokens
