import VeLens.Event
import VeLens.Fault

/-!
# Grammar of the command line

The command line is a verb with switches before it, and the words that the verb takes after it. This
module says which switches there are, how they are spelled, what they take, and which of them each
verb knows.

## Main definitions

* `Verb`: what the program is asked to do.
* `Switch`: a named setting of the command line.
* `Given`: what a switch is given.
* `Settings`: the settings that have been made, and `Settings.put`, one more of them.
* `Grammar`: what may be written at one level of the command line.
-/

namespace VeLens.CommandLine

/-- What the program is asked to do. -/
inductive Verb where
  | outline
  | entryPoints
  | scope
  | complete
  | modules
deriving DecidableEq

namespace Verb

/-- The word for a verb. -/
def word : Verb → String
  | outline => "outline"
  | entryPoints => "entry-points"
  | scope => "scope"
  | complete => "complete"
  | modules => "modules"

/-- All verbs. -/
def all : List Verb := [outline, entryPoints, scope, complete, modules]

/-- The verb that a word stands for. Verbs are not abbreviated. -/
def ofWord? (word : String) : Option Verb := all.find? fun verb => verb.word == word

end Verb

/-- A named setting of the command line. -/
inductive Switch where
  | help
  | logLevel
  | logJson
  | line
  | column
  | root
  | exclude
deriving DecidableEq

namespace Switch

/-- The ways to write a switch. -/
def spellings : Switch → List String
  | help => ["-h", "--help"]
  | logLevel => ["--log-level"]
  | logJson => ["--log-json"]
  | line => ["--line"]
  | column => ["--column"]
  | root => ["--root"]
  | exclude => ["--exclude"]

/-- The switch takes a value. -/
def takesValue : Switch → Bool
  | help | logJson => false
  | _ => true

/-- All ways to write a switch, as messages name it. -/
def title (switch : Switch) : String := "/".intercalate switch.spellings

end Switch

/-- The mark after which all words are arguments. -/
def separatorMark : String := "--"

/-- What a switch is given: a value, or nothing where a separator stands in its place. -/
inductive Given (α : Type) where
  | value (a : α)
  | nothing
deriving DecidableEq

namespace Given

/-- What a switch is given by the text attached to it. -/
def ofText (text : String) : Given String :=
  if text = separatorMark then nothing else value text

/-- What a switch is given, with its value changed. -/
def map {α β : Type} (f : α → β) : Given α → Given β
  | value a => value (f a)
  | nothing => nothing

/-- What a switch is given, with its value read. Nothing can always be read. -/
def read {ε α β : Type} (f : α → Except ε β) : Given α → Except ε (Given β)
  | value a => (f a).map value
  | nothing => .ok nothing

/-- The value that a switch is given, which is needed. -/
def needed {α : Type} (need : Need) : Given α → Except Fault α
  | value a => .ok a
  | nothing => .error (.noValue need)

end Given

/-- The settings that have been made. -/
structure Settings where
  logLevel : Option (Given String) := none
  logJson : Bool := false
  file : Option String := none
  line : Option (Given Int) := none
  column : Option (Given Int) := none
  root : Option (Given String) := none
  exclude : Option (Given String) := none

namespace Settings

/-- The integer in a value. -/
def integerOf (value : String) : Except String Int :=
  match Text.integer? value.toList with
  | some n => .ok n
  | none => .error ("invalid int value: " ++ Text.quoted value)

/-- The settings with one more made, in place of an earlier one of the same name. -/
def put (s : Settings) (given : Given String) : Switch → Except String Settings
  | .help | .logJson => .ok s
  | .logLevel => .ok { s with logLevel := some given }
  | .line => do return { s with line := some (← given.read integerOf) }
  | .column => do return { s with column := some (← given.read integerOf) }
  | .root => .ok { s with root := some given }
  | .exclude => .ok { s with exclude := some given }

end Settings

/-- What stands at one level of the command line besides switches. -/
inductive Operand where
  /-- Nothing. -/
  | none
  /-- The name of a file. -/
  | file
  /-- A verb with all words after it. -/
  | verb
deriving DecidableEq

/-- What may be written at one level of the command line. -/
structure Grammar where
  program : String
  switches : List Switch
  operand : Operand
  help : String

/-- The name of the program. -/
def programName : String := "velang-assist"

/-- The grammar of the words before the verb and of the verb. -/
def topGrammar : Grammar where
  program := programName
  switches := [.help, .logLevel, .logJson]
  operand := .verb
  help := "usage: velang-assist [-h] [--log-level LOG_LEVEL] [--log-json]
                     \x7boutline,entry-points,scope,complete,modules\x7d ...

positional arguments:
  \x7boutline,entry-points,scope,complete,modules\x7d
    outline             Print the symbol tree
    entry-points        Print lines declaring fn main
    scope               Print variables visible at a cursor
    complete            Print completion candidates at a cursor
    modules             Print importable modules

options:
  -h, --help            show this help message and exit
  --log-level LOG_LEVEL
                        Log level for stderr diagnostics (default: WARNING)
  --log-json            Write stderr diagnostics as JSON lines
"

/-- What follows the name of the program in the help on a verb. -/
def Verb.help : Verb → String
  | .outline | .entryPoints => " [-h] file

positional arguments:
  file        VeLang source file to analyze

options:
  -h, --help  show this help message and exit
"
  | .scope => " [-h] --line LINE [--column COLUMN] file

positional arguments:
  file             VeLang source file to analyze

options:
  -h, --help       show this help message and exit
  --line LINE      0-based line
  --column COLUMN  0-based column (default: end of line)
"
  | .complete => " [-h] --line LINE [--column COLUMN] [--root ROOT]
                              file

positional arguments:
  file             VeLang source file to analyze

options:
  -h, --help       show this help message and exit
  --line LINE      0-based line
  --column COLUMN  0-based column (default: end of line)
  --root ROOT      Workspace root holding velang.toml (default: .)
"
  | .modules => " [-h] [--root ROOT] [--exclude EXCLUDE]

options:
  -h, --help         show this help message and exit
  --root ROOT        Workspace root holding velang.toml (default: .)
  --exclude EXCLUDE  Currently open file, left out of local modules
"

/-- The switches that a verb knows. -/
def Verb.switches : Verb → List Switch
  | .outline | .entryPoints => [.help]
  | .scope => [.help, .line, .column]
  | .complete => [.help, .line, .column, .root]
  | .modules => [.help, .root, .exclude]

/-- The switches that a verb cannot do without. -/
def Verb.required : Verb → List Switch
  | .scope | .complete => [.line]
  | _ => []

/-- The name of the program with a verb. -/
def Verb.program (verb : Verb) : String := programName ++ " " ++ verb.word

/-- The grammar of the words after a verb. -/
def Verb.grammar (verb : Verb) : Grammar where
  program := verb.program
  switches := verb.switches
  operand := if verb = .modules then .none else .file
  help := "usage: " ++ verb.program ++ verb.help

end VeLens.CommandLine
