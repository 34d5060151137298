import FancyTokens.Settings.Decode

/-!
# Layers of settings

Settings come in layers: the defaults, files in the order in which they are named, and single
settings, which win over all files. The layers are merged key by key, and only what comes out is
looked at, so a wrong value does no harm below a right one.

Within a layer there is no order to rely on. The overrides, and the entries of one file, are meant
as maps: they are applied here in the order in which their keys first came, and another order would
do as well. It does not matter where their paths part (`SameLayers.build`). Where one leads through
what another one sets, or where two keys differ in case only, the outcome is that of this order and
nothing that a user of the library may count on.
-/
namespace FancyTokens
namespace Settings

/-! ## Single settings -/

/-- The value of a text: a truth value, an integer of 64 bits or else the text itself. -/
def valueOfText (text : List Char) : Scalar :=
  if text = "true".toList then .boolean true
  else if text = "false".toList then .boolean false
  else match readSigned? 10 64 text with
    | some i => .integer i
    | none => .string text

/-- The two sides of the first equals sign. -/
def splitSetting? (setting : List Char) : Option (List Char × List Char) :=
  match setting.span (· ≠ '=') with
  | (key, _ :: value) => some (trimBlanks key, trimBlanks value)
  | (_, []) => none

end Settings

/-- What can go wrong in loading a configuration. -/
inductive LoadError
  /-- A setting has no key or no equals sign. -/
  | invalidSetting (setting : List Char)
  | settings (e : Settings.Error)
deriving DecidableEq, Repr

def LoadError.message : LoadError → String
  | invalidSetting setting =>
    "invalid setting '" ++ .ofList setting ++ "' (expected key=value, e.g. lexer.tabsize=4)"
  | settings e => "configuration error: " ++ e.message

open Settings

/-- What is known of a file. -/
inductive FileContents
  | missing
  | unreadable (e : ReadError)
  | text (s : List Char)
deriving DecidableEq, Repr

/-- The layers above the defaults. -/
structure Loader where
  /-- The files, each with its name. -/
  files : List (List Char × FileContents) := []
  /-- The single settings, no two of them for one path, in the order in which their paths first
  came. -/
  overrides : List (KeyPath × Scalar) := []

namespace Loader

/-- The settings that hold if nothing else is said. -/
def defaults : List (Settings.Key × Value) :=
  let table (entries : List (String × Scalar)) : Value :=
    .table none (entries.map fun (name, value) => (name.toList, .scalar none value))
  [("lexer".toList, table [
      ("stripnl", .boolean true),
      ("stripall", .boolean false),
      ("ensurenl", .boolean true),
      ("tabsize", .integer 0)]),
    ("output".toList, table [("format", .string "raw".toList)])]

/-- The loader with a further file. -/
def withFile (loader : Loader) (name : List Char) (contents : FileContents) : Loader :=
  { loader with files := loader.files ++ [(name, contents)] }

/-- The loader with a further setting. -/
def withSetting (loader : Loader) (setting : List Char) : Except LoadError Loader :=
  match splitSetting? setting with
  | none | some ([], _) => throw (.invalidSetting setting)
  | some (key, value) =>
    match KeyPath.read key with
    | .error e => throw (.settings (.path e))
    | .ok path => return { loader with
        overrides := Entries.put path (valueOfText value) loader.overrides }

/-- The loader with further settings. The first one that cannot be taken decides. -/
def withSettings (loader : Loader) (settings : List (List Char)) : Except LoadError Loader :=
  settings.foldlM withSetting loader

/-- What can be added to a loader. -/
inductive Layer
  | file (name : List Char) (contents : FileContents)
  | settings (settings : List (List Char))
deriving DecidableEq, Repr

/-- The loader with a further layer. -/
def add (loader : Loader) : Layer → Except LoadError Loader
  | .file name contents => return loader.withFile name contents
  | .settings settings => loader.withSettings settings

/-- The loader with some layers. -/
def ofLayers (layers : List Layer) : Except LoadError Loader :=
  layers.foldlM add {}

/-! ## Putting the layers together -/

/-- The tree with an entry of a file, whose key may be a path. -/
def addEntry? (root : Value) (entry : Settings.Key × Value) : Option Value :=
  match KeyPath.read entry.1 with
  | .ok path => path.set? entry.2 root
  | .error _ => some (root.set entry.1 entry.2)

/-- The tree with all entries of a file, in the order in which they stand there. -/
def addFile (root : Value) (file : List Char × FileContents) : Except Settings.Error Value :=
  match file with
  | (name, .missing) => throw (.missing name)
  | (_, .unreadable e) => throw (.unreadable e)
  | (name, .text contents) =>
    match Toml.read? contents with
    | none => throw (.malformed name)
    | some entries =>
      match (Value.ofEntries (some name) entries).foldlM addEntry? root with
      | none => throw .outOfRange
      | some root => return root

/-- The tree of all layers: the files in their order, and over them the overrides in theirs. -/
def tree (loader : Loader) : Except Settings.Error Value := do
  let root ← loader.files.foldlM addFile (Value.setAll .empty defaults)
  let overridden := loader.overrides.foldlM
    (fun root (path, value) => path.set? (.scalar none value) root) root
  match overridden with
  | none => throw .outOfRange
  | some root => return root

/-- The configuration of all layers. -/
def build (loader : Loader) : Except LoadError Configuration :=
  (loader.tree.bind Configuration.ofSettings).mapError .settings

end Loader
end FancyTokens
