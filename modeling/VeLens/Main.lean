import VeLens.CommandLine.Run
import VeLens.FileTree.Snapshot

/-!
# The program

Reads a snapshot of a host from the standard input, runs the command line against it, and writes the
outcome.
-/

namespace VeLens

/-- All that is left of the input. -/
partial def readAll (input : IO.FS.Stream) (read : String) : IO String := do
  let line ← input.getLine
  if line.isEmpty then return read else readAll input (read ++ line)

/-- Writes what the program has to say and gives its exit code. -/
def present (outcome : Except Fault CommandLine.Outcome) : IO UInt32 := do
  match outcome with
  | .ok outcome =>
    IO.print outcome.out
    IO.eprint outcome.err
    return UInt32.ofNat outcome.exit
  | .error fault =>
    IO.eprintln fault.message
    return 1

end VeLens

/-- Runs a command line. -/
def main (words : List String) : IO UInt32 := do
  let text ← VeLens.readAll (← IO.getStdin) ""
  let snapshot := VeLens.Snapshot.read text.toList
  VeLens.present (VeLens.CommandLine.run snapshot.host snapshot.time words)
