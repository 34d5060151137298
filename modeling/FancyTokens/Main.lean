import FancyTokens.CommandLine.Run

/-!
# The command

The outermost layer: what the machine gives is handed to a run, and what the run leaves behind is
printed.
-/
namespace FancyTokens

/-- What the operating system says against an action. Its number may come with either sign. -/
def systemError : IO.Error → SystemError
  | .noFileOrDirectory _ code details | .inappropriateType _ code details
  | .permissionDenied _ code details | .resourceExhausted _ code details
  | .invalidArgument _ code details | .noSuchThing _ code details
  | .hardwareFault code details | .otherError code details =>
    ⟨details.capitalize, code.toInt32.toInt.natAbs⟩
  | e => ⟨e.toString, 0⟩

/-- What an action gives, or what the operating system says against it. -/
def attempt {α : Type} (action : IO α) : IO (Except SystemError α) :=
  return (← action.toBaseIO).mapError systemError

/-- A path leads to something on the machine. -/
def leads (path : List Char) : IO Bool :=
  return (← attempt (IO.FS.realPath (String.ofList path))).isOk

/-- The machine itself. -/
def machine : Surroundings IO where
  standardInput := attempt do (← IO.getStdin).readBinToEnd
  folder := return match ← attempt IO.currentDir with
    | .ok folder => pathComponents (toString folder).toList
    | .error _ => []
  -- a slash may stand behind the path of a folder only; devices count as files, readable or not
  isFile path := return (← leads path) && !(← leads (path ++ ['/']))
  read path := attempt (IO.FS.readBinFile (String.ofList path))

end FancyTokens

def main (arguments : List String) : IO UInt32 := do
  let outcome ← FancyTokens.CommandLine.run FancyTokens.machine (arguments.map String.toList)
  (← IO.getStdout).putStr (.ofList outcome.output)
  (← IO.getStderr).putStr (.ofList outcome.complaint)
  return outcome.status
