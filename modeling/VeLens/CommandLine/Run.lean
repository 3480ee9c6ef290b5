import VeLens.CommandLine.Invocation
import VeLens.FileTree.Resolve
import VeLens.Output.Encoding
import VeLens.Output.EventLine
import VeLens.Query

/-!
# Running the program

A command is answered against a host. The answer is JSON for the standard output, and events are
written to the error output. A file that cannot be read and a refused configuration end the program
with a message, other faults are handed on.

## Main definitions

* `Command.run`: the answer to a command.
* `run`: what the program writes for a command line, and its exit code.
-/

namespace VeLens.CommandLine

/-- What the program writes, and its exit code. -/
structure Outcome where
  exit : Nat
  out : String
  err : String

/-- The text of the file that a command names. -/
def readFile (h : Host) (file : String) : Except Fault (List Char) := do
  h.text (← h.expandHome (.parse file))

/-- The cursor that a command names. Without a column it is at the end of its line. -/
def cursorAt (text : List Char) : Given Int → Option (Given Int) → Except Fault Position
  | .value line, none => .ok ⟨line, (Buffer.lineAt (Buffer.lines text) line).length⟩
  | .value line, some (.value column) => .ok ⟨line, column⟩
  | .nothing, none => .error (.noValue .line)
  | _, _ => .error (.noValue .cursor)

/-- The place that the text of a path leads to. -/
def placeOf (h : Host) (path : String) : Except Fault Path := do
  h.resolve (← h.expandHome (.parse path))

/-- The root of the workspace that a command names. -/
def rootOf (h : Host) (root : Given String) : Except Fault Path := do
  placeOf h (← root.needed .path)

/-- The completion candidates at a cursor in a file. -/
def runComplete (h : Host) (file : String) (line : Given Int) (column : Option (Given Int))
    (root : Given String) : Report Json := do
  let text ← .of (readFile h file)
  let root ← .of (rootOf h root)
  let config ← .of (Config.load h root)
  let openFile ← .of (placeOf h file)
  let env ← .of (Query.environment h config root (some openFile.render))
  let cursor ← .of (cursorAt text line column)
  let context ← Completion.classify h env text cursor none
  return context.toJsonWith (Completion.ordered context.candidates)

/-- The modules that can be imported in a workspace. The name of the open file is needed only after
the library has been listed. -/
def runModules (h : Host) (root : Given String) (openFile : Option (Given String)) :
    Report Json := do
  let root ← .of (rootOf h root)
  let config ← .of (Config.load h root)
  let library ← .of (config.libraryRoot h)
  let standard ← Catalog.standardModules h (some library) config.options.suffix
  let openFile ← .of (openFile.mapM (Given.needed .path))
  let ofWorkspace ← Catalog.localModules h (some root) openFile config.options
  return .list ((Catalog.unique (standard ++ ofWorkspace)).map Catalog.Module.toJson)

/-- The answer to a command. -/
def Command.run (h : Host) : Command → Report Json
  | outline file => do
    let symbols ← Query.outline (← .of (readFile h file))
    return .list (symbols.map Outline.Symbol.toJson)
  | entryPoints file => do
    let symbols ← Query.outline (← .of (readFile h file))
    return .list ((Outline.entryPoints symbols).map fun (line : Nat) => .number line)
  | scope file line column => do
    let text ← .of (readFile h file)
    let bindings ← Query.scope text (← .of (cursorAt text line column))
    return .list (bindings.map Scope.Binding.toJson)
  | complete file line column root => runComplete h file line column root
  | modules root openFile => runModules h root openFile

/-- The lines for the events that are at least as important as a level. -/
def Invocation.lines (i : Invocation) (level : Level) (time : String) (events : List Event) :
    String :=
  let shown := events.filter fun event => level.rank ≤ event.level.rank
  String.join (shown.map fun event =>
    (if i.asJson then event.jsonLine time else event.line time) ++ "\n")

/-- What the program writes for an invocation. The level of the events is needed first. -/
def Invocation.run (h : Host) (time : String) (i : Invocation) : Except Fault Outcome := do
  let level ← i.level.needed .level
  let report := i.command.run h
  match report.outcome with
  | .ok answer => return ⟨0, answer.pretty ++ "\n", i.lines level time report.events⟩
  | .error (.config fault) =>
    return ⟨2, "", i.lines level time report.events ++ "config: " ++ fault.message ++ "\n"⟩
  | .error fault =>
    if fault.isUnreadable then
      let events := report.events ++ [.inputUnreadable fault.message]
      return ⟨2, "", i.lines level time events ++ "error: " ++ fault.message ++ "\n"⟩
    else .error fault

/-- What the program writes for a command line. The time is written with each event. -/
def run (h : Host) (time : String) (words : List String) : Except Fault Outcome :=
  match Invocation.read words with
  | .ok i => i.run h time
  | .error (.help text) => .ok ⟨0, text, ""⟩
  | .error (.misuse program message) => .ok ⟨2, "", program ++ ": error: " ++ message ++ "\n"⟩

end VeLens.CommandLine
