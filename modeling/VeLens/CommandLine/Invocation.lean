import VeLens.CommandLine.Word

/-!
# Invocations

The words of a command line make an invocation: how much is logged, and a command with all that it
needs. Otherwise they ask for help or are misused, and the program stops with a text.

## Main definitions

* `Command`: a verb with its settings.
* `Invocation`: a command and how events are written.
* `Halt`: why there is no invocation.
* `Invocation.read`: the invocation that words make.

## Design notes

Words are taken from left to right, so help that comes before a misuse is given. What each word is
taken for is settled for all words first, and an ambiguous abbreviation is told before anything
else. The words after the verb are judged twice, by the grammar of the top level and by that of the
verb, but only the verb uses them. Words that nobody uses are told at the very end. A separator that
is attached to a switch as its value leaves the switch given but without a value, and that is told
only when the value is needed.
-/

namespace VeLens.CommandLine

/-- A verb with its settings. -/
inductive Command where
  | outline (file : String)
  | entryPoints (file : String)
  | scope (file : String) (line : Given Int) (column : Option (Given Int))
  | complete (file : String) (line : Given Int) (column : Option (Given Int)) (root : Given String)
  | modules (root : Given String) (openFile : Option (Given String))

/-- A command, the least level of the events that are written, and whether they are written as
JSON. -/
structure Invocation where
  level : Given Level
  asJson : Bool
  command : Command

/-- Why there is no invocation. -/
inductive Halt where
  /-- Help is asked for. -/
  | help (text : String)
  /-- The words make no sense. -/
  | misuse (program message : String)

/-- What has been taken from the words at one level of the command line. -/
structure Taken where
  settings : Settings := {}
  verb : Option (String × List String) := none
  unused : List String := []

namespace Taken

/-- The operand of a grammar is still to come. -/
def awaits (t : Taken) (g : Grammar) : Bool :=
  match g.operand with
  | .none => false
  | .file => t.settings.file.isNone
  | .verb => t.verb.isNone

/-- One more word that nobody uses. -/
def leave (t : Taken) (word : String) : Taken := { t with unused := t.unused ++ [word] }

end Taken

/-- A misuse of a switch. -/
def Halt.ofSwitch (g : Grammar) (switch : Switch) (message : String) : Halt :=
  .misuse g.program ("argument " ++ switch.title ++ ": " ++ message)

/-- What is left of the letters after a short switch that takes no value. Each letter may be a
further short switch, of which there is only the one for help. Nothing is left if all of them are,
and a letter that is none stays with all that follow it. -/
def leftOver? : List Char → Option (List Char)
  | [] => some []
  | ['h'] => none
  | 'h' :: rest => leftOver? rest
  | rest => some rest

/-- The attached value that a switch without values cannot use. -/
def useless? (spelling attached : String) : Option String :=
  match spelling.toList with
  | '-' :: '-' :: _ => some attached
  | _ => (leftOver? attached.toList).map String.ofList

/-- A switch that takes a value. -/
def takeValue (g : Grammar) (t : Taken) (switch : Switch) (given : Given String) :
    Except Halt Taken :=
  match t.settings.put given switch with
  | .ok settings => .ok { t with settings := settings }
  | .error message => .error (.ofSwitch g switch message)

/-- A switch that takes no value. -/
def takePlain (g : Grammar) (t : Taken) : Switch → Except Halt Taken
  | .help => .error (.help g.help)
  | .logJson => .ok { t with settings := { t.settings with logJson := true } }
  | _ => .ok t

/-- A switch with an attached value. -/
def takeAttached (g : Grammar) (t : Taken) (switch : Switch) (spelling attached : String) :
    Except Halt Taken :=
  if switch.takesValue then takeValue g t switch (.ofText attached)
  else
    match useless? spelling attached with
    | some value => .error (.ofSwitch g switch ("ignored explicit argument " ++ Text.quoted value))
    | none => takePlain g t switch

/-- The words without a separator in front. -/
def dropSeparator : List Word → List Word
  | ⟨_, .separator⟩ :: words => words
  | words => words

theorem length_dropSeparator_le (words : List Word) :
    (dropSeparator words).length ≤ words.length := by
  unfold dropSeparator
  split
  · exact Nat.le_succ _
  · exact Nat.le_refl _

/-- Takes words from left to right. A file may have a separator on either side. A verb takes all
words after it. -/
def take (g : Grammar) (t : Taken) : (words : List Word) → Except Halt Taken
  | [] => .ok t
  | ⟨_, .switch switch spelling (some attached)⟩ :: words => do
    take g (← takeAttached g t switch spelling attached) words
  | ⟨_, .switch switch _ none⟩ :: words =>
    if switch.takesValue then
      match words with
      | ⟨value, .argument⟩ :: words => do take g (← takeValue g t switch (.value value)) words
      | _ => .error (.ofSwitch g switch "expected one argument")
    else do take g (← takePlain g t switch) words
  | ⟨text, .unknown⟩ :: words => take g (t.leave text) words
  | ⟨text, .argument⟩ :: words =>
    if !t.awaits g then take g (t.leave text) words
    else if g.operand = .verb then .ok { t with verb := some (text, words.map Word.text) }
    else take g { t with settings := { t.settings with file := some text } } (dropSeparator words)
  | ⟨text, .separator⟩ :: words =>
    match words with
    | word :: rest =>
      if !t.awaits g then take g (t.leave text) (word :: rest)
      else if g.operand = .verb then
        .ok { t with verb := some (text, (word :: rest).map Word.text) }
      else take g { t with settings := { t.settings with file := some word.text } } rest
    | [] => .ok (t.leave text)
termination_by words => words.length
decreasing_by
  all_goals simp only [List.length_cons]
  all_goals first
    | omega
    | exact Nat.lt_succ_of_le (length_dropSeparator_le _)

/-- What is taken from words under a grammar. -/
def takeAll (g : Grammar) (words : List String) : Except Halt Taken :=
  match Word.readAll g words with
  | .error message => .error (.misuse g.program message)
  | .ok words => take g {} words

/-- Words are missing. -/
def Halt.missing (program : String) (names : List String) : Halt :=
  .misuse program ("the following arguments are required: " ++ ", ".intercalate names)

/-- A word is no verb. -/
def Halt.noVerb (word : String) : Halt :=
  let choices := ", ".intercalate (Verb.all.map fun verb => Text.quoted verb.word)
  .misuse programName
    ("argument command: invalid choice: " ++ Text.quoted word ++ " (choose from " ++ choices ++ ")")

/-- What a verb needs and was not given. -/
def missing (verb : Verb) (s : Settings) : List String :=
  (if verb.grammar.operand = .file ∧ s.file.isNone then ["file"] else []) ++
    (if .line ∈ verb.required ∧ s.line.isNone then [Switch.line.title] else [])

/-- The root of the workspace if nothing else is said. -/
def usualRoot : String := "."

/-- The command that a verb and its settings make, if nothing is missing. -/
def Command.of? (verb : Verb) (s : Settings) : Option Command := do
  let root := s.root.getD (.value usualRoot)
  match verb with
  | .outline => return .outline (← s.file)
  | .entryPoints => return .entryPoints (← s.file)
  | .scope => return .scope (← s.file) (← s.line) s.column
  | .complete => return .complete (← s.file) (← s.line) s.column root
  | .modules => return .modules root s.exclude

/-- A letter in capitals, where the letter may be a dotless i. -/
def capital (c : Char) : Char := if c = 'ı' then 'I' else c.toUpper

/-- The level that a name stands for, in capitals or not. Unknown names stand for warnings. -/
def levelOf (name : String) : Level :=
  match String.ofList (name.toList.map capital) with
  | "DEBUG" => .debug
  | "INFO" => .info
  | "ERROR" => .error
  | _ => .warning

/-- The command that the words after a verb make, and the words that nobody uses. -/
def readCommand (verb : Verb) (words : List String) : Except Halt (Command × List String) := do
  let taken ← takeAll verb.grammar words
  match Command.of? verb taken.settings with
  | some command => return (command, taken.unused)
  | none => .error (.missing verb.program (missing verb taken.settings))

/-- The invocation that words make. -/
def Invocation.read (words : List String) : Except Halt Invocation := do
  let taken ← takeAll topGrammar words
  match taken.verb with
  | none => .error (.missing programName ["command"])
  | some (word, rest) =>
    match Verb.ofWord? word with
    | none => .error (.noVerb word)
    | some verb =>
      let (command, unused) ← readCommand verb rest
      let unused := taken.unused ++ unused
      if unused = [] then
        return {
          level := (taken.settings.logLevel.map (Given.map levelOf)).getD (.value .warning)
          asJson := taken.settings.logJson
          command := command }
      else .error (.misuse programName ("unrecognized arguments: " ++ " ".intercalate unused))

end VeLens.CommandLine
