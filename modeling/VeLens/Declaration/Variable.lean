import VeLens.Declaration.Token

/-!
# Variable declarations

A variable is declared on one line by `let` or, if its value comes from foreign code, by `var`:
`let name: type = value;`. The type, the value and the semicolon may be missing, but not all of
them at once: `let name` alone is still being typed.

## Main definitions

* `Variable`: a declared variable.
* `variableHead?`: reads a declaration from a line.

## Design notes

The type reaches up to the first `=` or `;`. All of the rest of the line is the value, so a value
may hold further semicolons: only the last one ends the declaration. A semicolon with nothing before
it is the value itself. A value stands on one line of its own, without line feeds inside.
-/

namespace VeLens.Declaration

open Text

/-- A declared variable. A `writtenType` that is present and empty belongs to a colon after which
the type is not yet written. -/
structure Variable where
  isForeign : Bool
  name : String
  writtenType : Option String
  initializer : Option String
deriving DecidableEq

/-- The keyword of a variable declaration, told by whether it is the foreign one, and what follows
the keyword. -/
def variableKeyword? (s : List Char) : Option (Bool × List Char) :=
  match after? ['l', 'e', 't'] s with
  | some rest => some (false, rest)
  | none => (after? ['v', 'a', 'r'] s).map fun rest => (true, rest)

/-- The characters that a type is made of. -/
def isTypeChar (c : Char) : Bool := c != '=' && c != ';'

/-- The type after the name, absent without a colon, and what follows it. -/
def writtenType (s : List Char) : Option (List Char) × List Char :=
  match trimLeft s with
  | ':' :: rest => (some (trim (rest.takeWhile isTypeChar)), rest.dropWhile isTypeChar)
  | rest => (none, rest)

/-- The text before the semicolon that ends a declaration, without blanks around it. -/
def statement (s : List Char) : List Char :=
  match beforeEnd? [';'] s with
  | some body => if allBlank body then s else trimRight body
  | none => s

/-- The value in the text after `=`. A value that consists of blanks is empty. -/
def value? (s : List Char) : Option (List Char) :=
  if allBlank s then
    if s.all (· == '\n') then none else some []
  else
    let value := statement (trim s)
    if value.contains '\n' then none else some value

/-- What may end a declaration without a value: nothing or a semicolon. The answer tells whether
there is a semicolon. -/
def endMark? (s : List Char) : Option Bool :=
  match s with
  | [] => some false
  | ';' :: rest => if allBlank rest then some true else none
  | _ => none

/-- Reads a variable declaration from a line that begins with its keyword. -/
def variableHead? (line : List Char) : Option Variable := do
  let (isForeign, s) ← variableKeyword? line
  let s ← afterBlanks? s
  let (name, s) ← name? s
  let (writtenType, s) := writtenType s
  match trimLeft s with
  | '=' :: s =>
    let value ← value? s
    some ⟨isForeign, String.ofList name, writtenType.map String.ofList, some (String.ofList value)⟩
  | s =>
    let closed ← endMark? s
    if closed || writtenType.isSome then
      some ⟨isForeign, String.ofList name, writtenType.map String.ofList, none⟩
    else none

end VeLens.Declaration
