/-!
# Arguments of the command

The arguments are switches, each with or without a value, and at most one path. They are taken from
left to right, and the first one that asks for a page or cannot be taken decides.
-/
namespace FancyTokens
namespace CommandLine

/-- A page about the command itself. -/
inductive Page
  | help
  | version
deriving DecidableEq, Repr

/-- A switch without a value. -/
inductive Flag
  | unprocessed
  | info
  | listFormats
deriving DecidableEq, Repr

/-- A switch with a value. -/
inductive Parameter
  | format
  | config
  | set
deriving DecidableEq, Repr

inductive Switch
  | page (page : Page)
  | flag (flag : Flag)
  | parameter (parameter : Parameter)
deriving DecidableEq, Repr

namespace Switch

/-- Every switch with its name. -/
def all : List (String × Switch) :=
  [("format", .parameter .format), ("config", .parameter .config), ("set", .parameter .set),
    ("unprocessed", .flag .unprocessed), ("info", .flag .info),
    ("list-formats", .flag .listFormats), ("help", .page .help), ("version", .page .version)]

/-- The switch of a full name. -/
def ofName? (name : List Char) : Option Switch :=
  (all.find? (·.1.toList == name)).map Prod.snd

/-- The switch of a letter. -/
def ofLetter? : Char → Option Switch
  | 'f' => some (.parameter .format)
  | 'c' => some (.parameter .config)
  | 's' => some (.parameter .set)
  | 'h' => some (.page .help)
  | 'V' => some (.page .version)
  | _ => none

end Switch

/-- What the arguments say. -/
structure Arguments where
  path : Option (List Char) := none
  format : Option (List Char) := none
  config : Option (List Char) := none
  /-- The settings, in their order. -/
  settings : List (List Char) := []
  unprocessed : Bool := false
  info : Bool := false
  listFormats : Bool := false
deriving DecidableEq, Repr

namespace Arguments

/-- The arguments with a path, of which there may be only one. -/
def withPath? (a : Arguments) (path : List Char) : Option Arguments :=
  if a.path.isSome then none else some { a with path := some path }

/-- The arguments with a flag, which may be given only once. -/
def withFlag? (a : Arguments) : Flag → Option Arguments
  | .unprocessed => if a.unprocessed then none else some { a with unprocessed := true }
  | .info => if a.info then none else some { a with info := true }
  | .listFormats => if a.listFormats then none else some { a with listFormats := true }

/-- The arguments with a value for a parameter. Only settings may be given more than once. -/
def withValue? (a : Arguments) (value : List Char) : Parameter → Option Arguments
  | .format => if a.format.isSome then none else some { a with format := some value }
  | .config => if a.config.isSome then none else some { a with config := some value }
  | .set => some { a with settings := a.settings ++ [value] }

end Arguments

/-- What the command is asked to do. -/
inductive Request
  | show (page : Page)
  | run (a : Arguments)
deriving DecidableEq, Repr

/-! ## Reading -/

/-- What is known once an argument has been read. -/
inductive Progress
  | show (page : Page)
  | next (a : Arguments)
  /-- The next argument is the value of a parameter. -/
  | await (parameter : Parameter) (a : Arguments)
deriving DecidableEq, Repr

/-- The name of a switch, and the value that is attached to it by an equals sign. -/
def splitValue (s : List Char) : List Char × Option (List Char) :=
  match s.span (· ≠ '=') with
  | (name, _ :: value) => (name, some value)
  | (name, []) => (name, none)

/-- Takes a switch with the value that is attached to it. -/
def Arguments.take? (a : Arguments) : Switch → Option (List Char) → Option Progress
  | .page page, none => some (.show page)
  | .flag flag, none => (a.withFlag? flag).map .next
  | .parameter parameter, none => some (.await parameter a)
  | .parameter parameter, some value => (a.withValue? value parameter).map .next
  | _, some _ => none

/-- Takes an argument that is not the value of a parameter. Behind a letter that takes a value all
the rest is the value, with or without an equals sign; a letter that asks for a page decides at
once, whatever is behind it. -/
def Arguments.takeArgument? (a : Arguments) (argument : List Char) : Option Progress :=
  match argument with
  | '-' :: '-' :: s =>
    let (name, value) := splitValue s
    (Switch.ofName? name).bind (a.take? · value)
  | '-' :: letter :: s =>
    match Switch.ofLetter? letter, s with
    | none, _ => none
    | some (.page page), _ => some (.show page)
    | some switch, [] => a.take? switch none
    | some switch, '=' :: value => a.take? switch (some value)
    | some switch, value => a.take? switch (some value)
  | path => (a.withPath? path).map .next

/-- An argument that cannot be the value of a parameter. -/
def isSwitch : List Char → Bool
  | '-' :: _ :: _ => true
  | _ => false

mutual

/-- Reads arguments behind those that have been taken, unless they cannot be understood. Behind two
dashes there are only paths. -/
def Arguments.readFrom? (a : Arguments) : List (List Char) → Option Request
  | [] => some (.run a)
  | argument :: rest =>
    if argument = ['-', '-'] then (rest.foldlM withPath? a).map .run
    else match a.takeArgument? argument with
      | none => none
      | some (.show page) => some (.show page)
      | some (.next a) => a.readFrom? rest
      | some (.await parameter a) => a.readValueFrom? parameter rest

/-- Reads arguments of which the first one has to be the value of a parameter. -/
def Arguments.readValueFrom? (a : Arguments) (parameter : Parameter) :
    List (List Char) → Option Request
  | [] => none
  | value :: rest =>
    if isSwitch value then none
    else match a.withValue? value parameter with
      | none => none
      | some a => a.readFrom? rest

end

/-- Reads the arguments of the command, unless they cannot be understood. -/
def Request.read? (arguments : List (List Char)) : Option Request :=
  Arguments.readFrom? {} arguments

end CommandLine
end FancyTokens
