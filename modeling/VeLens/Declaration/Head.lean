import VeLens.Declaration.Variable

/-!
# Heads of declarations

Declarations are recognised by their first line, the head, which is read without the blanks around
it. A head is a function, a struct, an enum, a variable, a loop or an import. Each kind has a reader
of its own that demands its keyword at the start of the line.

Inside a struct a line `name: type` declares a field, and inside an enum a line that begins with a
capital letter declares a variant. What follows on such a line does not matter.

## Main definitions

* `Head`: what a line declares.
* `functionHead?`, `structHead?`, `enumHead?`, `loopHead?`, `importHead?`: one reader for each kind;
  the one for variables is `variableHead?`.
* `classify`: the head on a line, if there is one.
* `field?`, `variant?`: the members of structs and enums.
-/

namespace VeLens.Declaration

open Text

/-- The head of a function. The parameters are the text between the parentheses. -/
structure Function where
  name : String
  parameters : String
  isExported : Bool
deriving DecidableEq

/-- What a line declares. -/
inductive Head where
  | function (head : Function)
  | struct (name : String)
  | enum (name : String)
  | variable (head : Variable)
  | loop (name : String)
  | importing (path : String)
deriving DecidableEq

/-- A keyword, blanks and a name: the name and what follows it. -/
def named? (keyword s : List Char) : Option (List Char × List Char) := do
  let s ← after? keyword s
  let s ← afterBlanks? s
  name? s

/-- The `export` before a function, told by whether it is there, and what follows it. -/
def exportMark (s : List Char) : Bool × List Char :=
  match (after? ['e', 'x', 'p', 'o', 'r', 't'] s).bind afterBlanks? with
  | some rest => (true, rest)
  | none => (false, s)

/-- `fn name(parameters)`, possibly after `export`. The parameters reach up to the first closing
parenthesis, or to the end of the line if it is not yet typed. -/
def functionHead? (line : List Char) : Option Function := do
  let (isExported, s) := exportMark line
  let (name, s) ← named? ['f', 'n'] s
  match trimLeft s with
  | '(' :: s =>
    some ⟨String.ofList name, String.ofList (trim (s.takeWhile (· != ')'))), isExported⟩
  | _ => none

/-- A keyword, a name and an opening brace: the name. -/
def braced? (keyword line : List Char) : Option String := do
  let (name, s) ← named? keyword line
  match trimLeft s with
  | '{' :: _ => some (String.ofList name)
  | _ => none

/-- `struct name {`. -/
def structHead? (line : List Char) : Option String := braced? ['s', 't', 'r', 'u', 'c', 't'] line

/-- `enum name {`. -/
def enumHead? (line : List Char) : Option String := braced? ['e', 'n', 'u', 'm'] line

/-- `for name in` and a blank. -/
def loopHead? (line : List Char) : Option String := do
  let (name, s) ← named? ['f', 'o', 'r'] line
  let s ← afterBlanks? s
  let s ← after? ['i', 'n'] s
  let _ ← afterBlanks? s
  some (String.ofList name)

/-- Nothing, or a line feed only. -/
def isLineEnd (s : List Char) : Bool := s == [] || s == ['\n']

/-- `import "path"`, possibly with a semicolon, and nothing else. The path is not empty. -/
def importHead? (line : List Char) : Option String := do
  let s ← after? ['i', 'm', 'p', 'o', 'r', 't'] line
  let s ← afterBlanks? s
  let s ← after? ['"'] s
  let path := s.takeWhile (· != '"')
  let s ← after? ['"'] (s.dropWhile (· != '"'))
  if path ≠ [] ∧ isLineEnd ((after? [';'] s).getD s) then some (String.ofList path) else none

/-- The head on a line. -/
def classify (line : List Char) : Option Head :=
  (functionHead? line).map .function
    <|> (structHead? line).map .struct
    <|> (enumHead? line).map .enum
    <|> (variableHead? line).map .variable
    <|> (loopHead? line).map .loop
    <|> (importHead? line).map .importing

/-- The head on a line of a buffer, whatever its indentation. -/
def headOf (line : List Char) : Option Head := classify (trim line)

/-- A field of a struct. -/
structure Field where
  name : String
  type : String
deriving DecidableEq

/-- A name, a colon and the name of a type. -/
def field? (line : List Char) : Option Field := do
  let (name, s) ← name? line
  match trimLeft s with
  | ':' :: s =>
    let (type, _) ← name? (trimLeft s)
    some ⟨String.ofList name, String.ofList type⟩
  | _ => none

/-- A name that begins with a capital letter. -/
def variant? : List Char → Option String
  | [] => none
  | c :: s => if c.isUpper then some (String.ofList (c :: s.takeWhile isNameChar)) else none

end VeLens.Declaration
