import VeLens.Declaration.Head
import VeLens.Outline.TopLevel

/-!
# Symbols of a buffer

The outline of a buffer is the list of its top-level functions, structs, enums and variables.
Functions carry the local variables that have a written type, structs their fields and enums their
variants. Malformed text gives a shorter outline, never an error.

## Main definitions

* `Symbol`: a declaration in the outline, with its members.
* `symbols`: the outline of a buffer.
* `entryPoints`: the lines on which `main` functions are declared.
-/

namespace VeLens.Outline

open Declaration Text

/-- What an item of the outline is. -/
inductive ItemKind where
  | function
  | struct
  | enum
  | variable
  | field
  | enumVariant
deriving DecidableEq

/-- The word for a kind of item. -/
def ItemKind.word : ItemKind → String
  | .function => "function"
  | .struct => "struct"
  | .enum => "enum"
  | .variable => "variable"
  | .field => "field"
  | .enumVariant => "enum_variant"

/-- An item of the outline. The selection is the part of its first line that an editor highlights.
-/
structure Item where
  kind : ItemKind
  name : String
  detail : String
  range : Range
  selection : Range
deriving DecidableEq

/-- A top-level declaration and its members. -/
structure Symbol extends Item where
  children : List Item
deriving DecidableEq

/-- The number of blanks before the first other character. -/
def indentation (line : Line) : Nat := line.length - (trimLeft line).length

/-- The end of what is written on a line. -/
def lineEnd (index : Nat) (line : Line) : Position := ⟨index, (trimRight line).length⟩

/-- The text of a line, as a range. -/
def selectionOf (index : Nat) (line : Line) : Range :=
  ⟨⟨index, indentation line⟩, lineEnd index line⟩

/-- An item on a single line, from the beginning of the line. -/
def lineItem (index : Nat) (line : Line) (kind : ItemKind) (name detail : String) : Item :=
  ⟨kind, name, detail, ⟨⟨index, 0⟩, lineEnd index line⟩, selectionOf index line⟩

/-- The local variable with a written type on a line of a function's body. -/
def localItem? (line : Line) (index : Nat) : Option Item := do
  let head ← variableHead? (trim line)
  if head.writtenType.isSome then
    lineItem index line .variable head.name
      (if head.isForeign then "Local FFI variable" else "Local variable")
  else none

/-- The field on a line of a struct's body. -/
def fieldItem? (line : Line) (index : Nat) : Option Item :=
  (field? (trim line)).map fun field =>
    lineItem index line .field field.name ("Field (" ++ field.type ++ ")")

/-- The variant on a line of an enum's body. -/
def variantItem? (line : Line) (index : Nat) : Option Item :=
  (variant? (trim line)).map fun name => lineItem index line .enumVariant name "Enum variant"

/-- The name of the function at which a program starts. -/
def entryPoint : String := "main"

namespace TopLevel

/-- The end of a block: just after its closing brace, but not before the end of the head's line. -/
def blockEnd (t : TopLevel) : Position :=
  (lineEnd t.index t.line).later ⟨t.lastIndex, min (t.column + 1) t.lastLine.length⟩

/-- The symbol of a declaration with a block. -/
def blockSymbol (t : TopLevel) (kind : ItemKind) (name detail : String)
    (child? : Line → Nat → Option Item) : Symbol where
  kind := kind
  name := name
  detail := detail
  range := ⟨⟨t.index, 0⟩, t.blockEnd⟩
  selection := selectionOf t.index t.line
  children := t.inside.filterMap fun (line, index) => child? line index

/-- The symbol of a declaration. Loops and imports have none. -/
def symbol? (t : TopLevel) : Option Symbol :=
  match t.head with
  | .function head =>
    t.blockSymbol .function head.name
      (if head.name == entryPoint then "Main function" else "Function") localItem?
  | .struct name => t.blockSymbol .struct name "Struct" fieldItem?
  | .enum name => t.blockSymbol .enum name "Enum" variantItem?
  | .variable head =>
    some ⟨lineItem t.index t.line .variable head.name
      (if head.isForeign then "FFI Variable" else "Variable"), []⟩
  | .loop _ | .importing _ => none

end TopLevel

/-- The outline of a buffer. -/
def symbols (lines : List Line) : List Symbol := (topLevel lines).filterMap TopLevel.symbol?

/-- The outline of a text. -/
def ofText (text : String) : List Symbol := symbols (Buffer.lines text.toList)

/-- The lines on which the function at which a program starts is declared. -/
def entryPoints (outline : List Symbol) : List Nat :=
  (outline.filter fun symbol => symbol.kind == .function && symbol.name == entryPoint).map
    fun symbol => symbol.range.start.line.toNat

end VeLens.Outline
