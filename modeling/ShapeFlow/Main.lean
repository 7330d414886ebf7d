/-
The command line: flags, then the file of a model. Results go to the standard
output, the log and errors to the standard error.
-/
import ShapeFlow.Cli.Run

namespace ShapeFlow

namespace Cli

def complain (message : Text) : IO Unit := do
  (← IO.getStderr).write ⟨(message ++ "\n").bytes.toArray⟩

def contents (path : String) : IO (Except PathFault Text) := do
  try
    return .ok ⟨(← IO.FS.readBinFile path).toList⟩
  catch
    | .inappropriateType _ _ _ => return .error .isFolder
    | .invalidArgument _ _ _ => return .error .invalid
    | _ => return .error .missing

/-- Runs the command on a file; the exit code tells whether it succeeded. -/
def runFile (settings : Settings) (path : String) : IO UInt32 := do
  let outcome := run settings path (← contents path)
  (← IO.getStdout).write ⟨outcome.output.bytes.toArray⟩
  for message in outcome.log do
    complain message
  match outcome.error with
  | none => return 0
  | some e =>
    complain e.message
    return 1

end Cli

end ShapeFlow

open ShapeFlow

def main (args : List String) : IO UInt32 := do
  match Cli.readFlags {} (args.map Text.ofString) with
  | .error e =>
    Cli.complain e.message
    return 2
  | .ok (settings, operands) =>
    match args.drop (args.length - operands.length) with
    | [path] => Cli.runFile settings path
    | [] =>
      Cli.complain "Missing model file to read."
      return 1
    | _ =>
      Cli.complain "Too many arguments."
      return 1
