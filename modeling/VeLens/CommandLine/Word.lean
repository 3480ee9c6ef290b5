import VeLens.CommandLine.Grammar
import VeLens.Text.Cut

/-!
# Words of the command line

Each word of the command line is an argument or a switch, or the mark `--` after which all words are
arguments. Switches may be abbreviated as long as only one of them is meant, and a value may be
attached with an equals sign. A word like a negative number is an argument, and so is a word with a
space in it that is no switch.

## Main definitions

* `Word`: a word and what it is taken for.
* `Word.read`, `Word.readAll`: what words are taken for.
-/

namespace VeLens.CommandLine

open Text

/-- What a word is taken for. -/
inductive Role where
  | argument
  /-- All words after this one are arguments. -/
  | separator
  /-- A switch, with the spelling that was meant and the value that is attached to it: after an
  equals sign, or directly after a short spelling. -/
  | switch (switch : Switch) (spelling : String) (attached : Option String)
  /-- It looks like a switch, but there is no such one. -/
  | unknown

/-- A word and what it is taken for. -/
structure Word where
  text : String
  role : Role

namespace Word

/-- All spellings of the switches that a grammar knows. -/
def spellings (g : Grammar) : List (String × Switch) :=
  g.switches.flatMap fun switch => switch.spellings.map fun spelling => (spelling, switch)

/-- A word cut at its first equals sign: what stands before it, and the value after it. -/
def cutAtSign (word : List Char) : List Char × Option String :=
  match word.dropWhile (· != '=') with
  | [] => (word, none)
  | _ :: value => (word.takeWhile (· != '='), some (String.ofList value))

/-- The switches that an abbreviation may mean. A long one is cut at the equals sign. A short
spelling may be followed directly by other text. -/
def candidates (g : Grammar) (word : List Char) : List (String × Role) :=
  match word with
  | '-' :: '-' :: _ =>
    let (start, attached) := cutAtSign word
    (spellings g).filterMap fun (spelling, switch) =>
      if startsWith start spelling.toList then some (spelling, .switch switch spelling attached)
      else none
  | _ =>
    (spellings g).filterMap fun (spelling, switch) =>
      if spelling.toList = word.take 2 then
        some (spelling, .switch switch spelling (some (String.ofList (word.drop 2))))
      else if startsWith word spelling.toList then
        some (spelling, .switch switch spelling none)
      else none

/-- Digits after a minus sign, with or without a point before some of them. -/
def isNegativeNumber (word : List Char) : Bool :=
  match (beforeEnd? ['\n'] word).getD word with
  | '-' :: rest =>
    match rest.dropWhile isDigit with
    | [] => rest ≠ []
    | '.' :: fraction => fraction ≠ [] && fraction.all isDigit
    | _ => false
  | _ => false

/-- What a word that is no exact switch is taken for. -/
def readAbbreviated (g : Grammar) (word : String) : Except String Role :=
  match candidates g word.toList with
  | [(_, role)] => .ok role
  | [] =>
    if isNegativeNumber word.toList || word.toList.contains ' ' then .ok .argument
    else .ok .unknown
  | meant =>
    .error ("ambiguous option: " ++ word ++ " could match " ++
      ", ".intercalate (meant.map Prod.fst))

/-- What a word is taken for that stands before any separator. -/
def read (g : Grammar) (word : String) : Except String Role :=
  if word.toList.head? ≠ some '-' then .ok .argument
  else
    match (spellings g).lookup word with
    | some switch => .ok (.switch switch word none)
    | none =>
      if word = "-" then .ok .argument
      else
        let (start, attached) := cutAtSign word.toList
        match attached, (spellings g).lookup (String.ofList start) with
        | some _, some switch => .ok (.switch switch (String.ofList start) attached)
        | _, _ => readAbbreviated g word

/-- What the words of a command line are taken for. -/
def readAll (g : Grammar) : List String → Except String (List Word)
  | [] => .ok []
  | word :: words =>
    if word = separatorMark then
      .ok (⟨word, .separator⟩ :: words.map fun word => ⟨word, .argument⟩)
    else do
      let role ← read g word
      return ⟨word, role⟩ :: (← readAll g words)

end Word

end VeLens.CommandLine
