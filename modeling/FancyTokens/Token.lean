import FancyTokens.Category
import FancyTokens.Text.Bytes

/-!
# Tokens

A token is a piece of text with a category and the byte offsets between which it stands.
-/
namespace FancyTokens

structure Token where
  category : Category
  start : Nat
  stop : Nat
  text : List Char
deriving DecidableEq, Repr

namespace Token

/-- The token of a text that starts at an offset. -/
def ofText (category : Category) (start : Nat) (text : List Char) : Token :=
  ⟨category, start, start + byteLength text, text⟩

/-- The token between two offsets of a source. -/
def ofSpan? (source : List Char) (category : Category) (start stop : Nat) : Option Token :=
  (slice? source start stop).map (ofText category start)

/-- The distance between the offsets. -/
def size (t : Token) : Nat :=
  t.stop - t.start

/-- The offsets are the same. -/
def isEmpty (t : Token) : Bool :=
  t.start == t.stop

end Token

/-- The text that some tokens make up. -/
def detokenize (tokens : List Token) : List Char :=
  tokens.flatMap (·.text)

/-- The tokens cover a source from an offset to its end: each starts where the one before it ends,
holds at least one byte and has the text that stands there. -/
def tilesFrom (source : List Char) (offset : Nat) : List Token → Bool
  | [] => offset == byteLength source
  | t :: tokens =>
    t.start == offset && !t.isEmpty && slice? source t.start t.stop == some t.text &&
      tilesFrom source t.stop tokens

/-- The tokens cover a source exactly, in order and without gaps. -/
def tiles (source : List Char) (tokens : List Token) : Bool :=
  tilesFrom source 0 tokens

end FancyTokens
