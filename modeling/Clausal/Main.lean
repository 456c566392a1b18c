import Clausal.CommandLine.Program

/-!
# The command line program

Connects the program to the arguments, the environment, the files and the streams of the process.
-/

namespace Clausal.CommandLine

/-- Why the system did not open a file. It gives some of its numbers with a minus sign. -/
def openFault : IO.Error → OpenFault
  | .noFileOrDirectory _ code text | .noSuchThing _ code text | .inappropriateType _ code text
  | .invalidArgument _ code text | .permissionDenied _ code text =>
    .ofNumber code.toInt32.toInt.natAbs text.capitalize
  | e => .other 5 (toString e)

/-- The content of a file of the system. -/
def readContent (p : Path) : IO Content := do
  try
    let bytes ← IO.FS.readBinFile p.render
    return .ok bytes.toList
  catch e =>
    return .error (openFault e)

/-- Reads a stream to its end. -/
partial def readAll (stream : IO.FS.Stream) (read : String) : IO String := do
  let line ← stream.getLine
  if line.isEmpty then return read else readAll stream (read ++ line)

end Clausal.CommandLine

open Clausal.CommandLine in
/-- Runs the program and ends with its number; an error that nothing answers ends it with one. -/
def main (args : List String) : IO UInt32 := do
  let level ← IO.getEnv "CNFSAT_LOG_LEVEL"
  let algorithm ← IO.getEnv "CNFSAT_DEFAULT_ALGORITHM"
  let environment : String → Option String
    | "CNFSAT_LOG_LEVEL" => level
    | "CNFSAT_DEFAULT_ALGORITHM" => algorithm
    | _ => none
  let input ← if args.contains "menu" then readAll (← IO.getStdin) "" else pure ""
  let outcome ← Clausal.CommandLine.run environment readContent args input
  IO.print outcome.stdout
  IO.eprint outcome.stderr
  match outcome.result with
  | .ok code => return UInt32.ofNat code
  | .error e =>
    IO.eprintln e.message
    return 1
