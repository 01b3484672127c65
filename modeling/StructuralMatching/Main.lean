/-
The program: reads its files from the system, and writes what the command line answers.
-/
import StructuralMatching.CommandLine

open StructuralMatching

/-- The text of a file. -/
def readTextFile (path : String) : IO (Except ReadFailure String) := do
  try
    let bytes ← IO.FS.readBinFile path
    match String.fromUTF8? bytes with
    | some text => return .ok text
    | none => return .error .notText
  catch
    | .noFileOrDirectory .. => return .error .notFound
    | .permissionDenied .. => return .error .denied
    | .inappropriateType .. => return .error .isDirectory
    | e => return .error (.other e.toString)

def main (args : List String) : IO UInt32 := do
  let outcome ← CommandLine.run readTextFile args
  (← IO.getStdout).putStr outcome.stdout
  (← IO.getStderr).putStr outcome.stderr
  return outcome.exitCode
