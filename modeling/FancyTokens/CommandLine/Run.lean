import FancyTokens.CommandLine.Pages
import FancyTokens.Files.Reading
import FancyTokens.FileName.Component
import FancyTokens.Scan.Run
import FancyTokens.Settings.Loader

/-!
# Running the command

A run settles the configuration first, then the format and last the input, and stops at the first of
them that fails. Nothing is printed before all is known.
-/
namespace FancyTokens
namespace CommandLine

/-! ## The configuration file -/

/-- The path with an ending added to its last name. A path without names has that of the folder
from which it is taken. -/
def withEnding? (folder : List (List Char)) (ending path : List Char) : Option (List Char) :=
  let names := namesFromRoot folder path
  (lastName? names).map fun name =>
    let names := names.dropLast ++ [name ++ ending]
    if isAbsolute path then '/' :: joinNames names else joinNames (seenFrom folder names)

/-- The file that a path leads to, or else the one with the ending of a TOML file. -/
def settingsFile? {m : Type → Type} [Monad m] (here : Surroundings m) (path : List Char) :
    m (Option (List Char)) := do
  if ← here.isFile path then return some path
  match withEnding? (← here.folder) ".toml".toList path with
  | none => return none
  | some path => if ← here.isFile path then return some path else return none

/-- A loader with the layer of a settings file, which messages call by its path as it is seen from
the folder in which the command runs. -/
def addSettingsFile {m : Type → Type} [Monad m] (here : Surroundings m) (path : List Char) :
    m Loader := do
  match ← settingsFile? here path with
  | none => return Loader.withFile {} path .missing
  | some path =>
    let contents := match textOfReading (← here.read path) with
      | .ok text => .text text
      | .error e => .unreadable e
    return Loader.withFile {} (shownPath (← here.folder) path) contents

/-! ## The outcome -/

/-- Why a run fails. -/
inductive Failure
  | load (e : LoadError)
  | format (e : UnknownFormat)
  | input (e : ReadError)
deriving DecidableEq, Repr

def Failure.message : Failure → String
  | load e => e.message
  | format e => e.message
  | input e => "I/O error: " ++ e.message

/-- What is to be done with the input. -/
structure Plan where
  /-- How the input is preprocessed, unless it is taken as it is. -/
  preprocessing : Option Preprocessing
  format : OutputFormat
deriving DecidableEq, Repr

/-- What the arguments say is to be done, with a loader that has the settings file. -/
def Arguments.plan (a : Arguments) (loader : Loader) : Except Failure Plan := do
  let loader ← (loader.withSettings a.settings).mapError .load
  let configuration ← loader.build.mapError .load
  let format ← match a.format with
    | some name => (OutputFormat.read name).mapError .format
    | none => pure configuration.format
  return ⟨if a.unprocessed then none else some configuration.preprocessing, format⟩

/-- The output for an input. -/
def Plan.output (plan : Plan) (source : List Char) : List Char :=
  plan.format.render <| tokenize <| match plan.preprocessing with
    | some options => options.apply source
    | none => source

/-- The text at a path. A dash stands for the standard input. -/
def source {m : Type → Type} [Monad m] (here : Surroundings m) (path : List Char) :
    m (Except ReadError (List Char)) := do
  if path = ['-'] then return textOfReading (← here.standardInput)
  else return textOfReading (← here.read path)

/-- The output for the input that the arguments name. -/
def Arguments.output {m : Type → Type} [Monad m] (here : Surroundings m) (a : Arguments) :
    m (Except Failure (List Char)) := do
  let loader ← match a.config with
    | some path => addSettingsFile here path
    | none => pure {}
  match a.plan loader with
  | .error e => return .error e
  | .ok plan =>
    let text ← source here (a.path.getD ['-'])
    return (text.mapError .input).map plan.output

/-- What a run leaves behind. -/
structure Outcome where
  /-- Zero if all went well. -/
  status : UInt32 := 0
  output : List Char := []
  complaint : List Char := []
deriving DecidableEq, Repr

/-- What is left behind by a run with given arguments. -/
def Arguments.outcome {m : Type → Type} [Monad m] (here : Surroundings m) (a : Arguments) :
    m Outcome := do
  if a.info then return { output := (languagePage fancy).toList }
  else if a.listFormats then return { output := formatsPage.toList }
  else match ← a.output here with
    | .ok output => return { output }
    | .error e => return { status := 1, complaint := s!"Error: {e.message}\n".toList }

/-- Runs the command. -/
def run {m : Type → Type} [Monad m] (here : Surroundings m) (arguments : List (List Char)) :
    m Outcome :=
  match Request.read? arguments with
  | none => pure { status := 2, complaint := misuse.toList }
  | some (.show page) => pure { output := page.text.toList }
  | some (.run a) => a.outcome here

end CommandLine
end FancyTokens
