import Chainwatch.Command.Run

/-!
# Program

Reads the files that the arguments name, runs the command and prints what comes of it.
-/

namespace Chainwatch

/-- Whether a folder is at a path: it can be opened and not read. -/
def isFolder (path : String) : IO Bool :=
  try
    discard (IO.FS.readFile path)
    return false
  catch
    | .inappropriateType none .. => return true
    | _ => return false

def lookAt (path : String) : IO Command.Entry :=
  try return .text (← IO.FS.readFile path)
  catch
    | .noFileOrDirectory .. => return .nothing (← isFolder (Command.Locator.parent path))
    | .inappropriateType (some _) .. => return .nothing false
    | _ => return .unreadable

def pathsOf : Command.Request → List String
  | .tiers _ (some path) _ => [path]
  | .inspect name _ _ _ _ => name :: ((Command.Locator.ofName? name).bind (·.path)).toList
  | _ => []

def gatherFiles (request : Option Command.Request) : IO Command.Files := do
  let entries ← ((request.map pathsOf).getD []).mapM fun path => return (path, ← lookAt path)
  return { look := fun path => (entries.lookup path).getD (.nothing false) }

end Chainwatch

def main (arguments : List String) : IO UInt32 := do
  let files ← Chainwatch.gatherFiles (Chainwatch.Command.readArguments arguments)
  let outcome := Chainwatch.Command.run files arguments
  match outcome with
  | .printed text => IO.print text
  | .failed message => IO.eprintln message
  | .misused => IO.eprintln "error: invalid arguments; try --help"
  return UInt32.ofNat outcome.exitCode
