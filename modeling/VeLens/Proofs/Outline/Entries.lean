import VeLens.Outline.Symbol
import VeLens.Proofs.Buffer.Blocks
import VeLens.Proofs.Declaration.Heads

/-!
# Entries to be printed

Declarations can be printed in a fixed layout, one below the other. The definitions below say how
they are printed and which outline should be found in the printed text.

## Main definitions

* `Entry`: a declaration to be printed, or a line that declares nothing.
* `print`: the text of a list of entries.
* `symbolsOf`: what the outline of that text should be.

## Design notes

What is needed of the parts of an entry is kept in their types, so every entry can be printed. The
body of a function may hold anything on its lines, heads of functions included, as long as its
braces are balanced.
-/

namespace VeLens.Outline

open Declaration Text

/-! ### Entries -/

structure Name where
  text : List Char
  isName : isName text = true

theorem not_isBlank_of_mem_name (name : Name) {c : Char} (hc : c ∈ name.text) :
    isBlank c = false :=
  not_isBlank_of_isNameChar (isNameChar_of_mem name.isName hc)

theorem name_ne_nil (name : Name) : name.text ≠ [] := by
  intro hnil
  have := name.isName
  rw [hnil] at this
  exact Bool.noConfusion this

theorem trim_name (name : Name) : trim name.text = name.text :=
  trim_eq_self (fun _ hc => not_isBlank_of_mem_name name (List.mem_of_mem_head? hc))
    fun _ hc => not_isBlank_of_mem_name name (List.mem_of_getLast? hc)

/-- A name that begins with a capital letter. -/
structure CapitalName extends Name where
  isUpper : ∃ c rest, text = c :: rest ∧ c.isUpper = true

/-- The value of a variable: a text on one line that neither begins nor ends with blanks. -/
structure ValueText where
  text : List Char
  ne_nil : text ≠ []
  trimmed : trim text = text
  oneLine : '\n' ∉ text

/-- The type of a variable: such a text without the marks that would end it. -/
structure TypeText extends ValueText where
  unmarked : '=' ∉ text ∧ ';' ∉ text

theorem TypeText.isTypeChar_of_mem (type : TypeText) : ∀ c ∈ type.text, isTypeChar c = true := by
  intro c hc
  rw [isTypeChar, Bool.and_eq_true, bne_iff_ne, bne_iff_ne]
  exact ⟨fun h => type.unmarked.1 (h ▸ hc), fun h => type.unmarked.2 (h ▸ hc)⟩

/-- The parameters of a function: a text on one line that does not end before its parenthesis. -/
structure ParameterText where
  text : List Char
  oneLine : '\n' ∉ text
  unclosed : ')' ∉ text
  unbraced : '{' ∉ text ∧ '}' ∉ text

/-- The lines between the braces of a function. -/
structure Body where
  lines : List Line
  oneLine : ∀ line ∈ lines, '\n' ∉ line
  balanced : Block.Balanced lines

/-- Lines with no head, the head of a loop or an import declare nothing. -/
def isFiller (line : Line) : Bool :=
  match headOf line with
  | none | some (.loop _) | some (.importing _) => true
  | some (.function _) | some (.struct _) | some (.enum _) | some (.variable _) => false

/-- A line that declares nothing. -/
structure Filler where
  line : Line
  oneLine : '\n' ∉ line
  isFiller : isFiller line = true

/-- A declaration to be printed, or a line that declares nothing. -/
inductive Entry where
  | variable (isForeign : Bool) (name : Name) (type : Option TypeText) (value : Option ValueText)
  | struct (name : Name) (fields : List (Name × Name))
  | enum (name : Name) (variants : List CapitalName)
  | function (isExported : Bool) (name : Name) (parameters : ParameterText) (body : Body)
  | filler (plain : Filler)

/-! ### Printing -/

def typePart : Option TypeText → List Char
  | some type => ':' :: ' ' :: type.text
  | none => []

def valuePart : Option ValueText → List Char
  | some value => ' ' :: '=' :: ' ' :: value.text
  | none => []

/-- `let name: type = value;` -/
def variableLine (isForeign : Bool) (name : Name) (type : Option TypeText)
    (value : Option ValueText) : Line :=
  variableWord isForeign ++ ' ' :: (name.text ++ (typePart type ++ (valuePart value ++ [';'])))

/-- A keyword, a name and an opening brace. -/
def bracedLine (keyword : List Char) (name : Name) : Line :=
  keyword ++ ' ' :: (name.text ++ [' ', '{'])

def structWord : List Char := ['s', 't', 'r', 'u', 'c', 't']

def enumWord : List Char := ['e', 'n', 'u', 'm']

/-- `fn name(parameters)` and an opening brace, after `export` if the function is exported. -/
def functionLine (isExported : Bool) (name : Name) (parameters : ParameterText) : Line :=
  exportWord isExported ++
    ('f' :: 'n' :: ' ' :: (name.text ++ '(' :: (parameters.text ++ [')', ' ', '{'])))

/-- `name: type` -/
def fieldLine (field : Name × Name) : Line := field.1.text ++ ':' :: ' ' :: field.2.text

def blockLines (head : Line) (body : List Line) : List Line := head :: (body ++ [['}']])

namespace Entry

/-- The lines on which an entry is printed. -/
def lines : Entry → List Line
  | .variable isForeign name type value => [variableLine isForeign name type value]
  | .struct name fields => blockLines (bracedLine structWord name) (fields.map fieldLine)
  | .enum name variants => blockLines (bracedLine enumWord name) (variants.map (·.text))
  | .function isExported name parameters body =>
    blockLines (functionLine isExported name parameters) body.lines
  | .filler plain => [plain.line]

end Entry

/-- The text of entries that are printed one below the other. -/
def print (entries : List Entry) : List Char := joined ['\n'] (entries.flatMap Entry.lines)

/-! ### The outline to be found -/

def wholeLine (i : Nat) (line : Line) : Range := ⟨⟨i, 0⟩, ⟨i, line.length⟩⟩

/-- The item of a line without blanks at its ends. -/
def wholeItem (i : Nat) (line : Line) (kind : ItemKind) (name : Name) (detail : String) : Item :=
  ⟨kind, String.ofList name.text, detail, wholeLine i line, wholeLine i line⟩

/-- The symbol of a block of `size` lines between the head and the line of the closing brace. -/
def wholeBlock (i : Nat) (head : Line) (size : Nat) (kind : ItemKind) (name : Name)
    (detail : String) (children : List Item) : Symbol :=
  ⟨⟨kind, String.ofList name.text, detail, ⟨⟨i, 0⟩, ⟨i + size + 1, 1⟩⟩, wholeLine i head⟩, children⟩

/-- The variable with a written type on a line of a function's body. -/
def typedVariable? (line : Line) (i : Nat) : Option Item :=
  match variableHead? (trim line) with
  | some ⟨isForeign, name, some _, _⟩ =>
    some ⟨.variable, name, if isForeign then "Local FFI variable" else "Local variable",
      ⟨⟨i, 0⟩, ⟨i, (trimRight line).length⟩⟩,
      ⟨⟨i, line.length - (trimLeft line).length⟩, ⟨i, (trimRight line).length⟩⟩⟩
  | some ⟨_, _, none, _⟩ | none => none

namespace Entry

/-- The symbol of an entry whose first line has the number `i`. A line that declares nothing has
none. -/
def symbol? (i : Nat) : Entry → Option Symbol
  | .variable isForeign name type value =>
    some ⟨wholeItem i (variableLine isForeign name type value) .variable name
      (if isForeign then "FFI Variable" else "Variable"), []⟩
  | .struct name fields =>
    some (wholeBlock i (bracedLine structWord name) fields.length .struct name "Struct"
      ((fields.zipIdx (i + 1)).map fun (field, k) =>
        wholeItem k (fieldLine field) .field field.1
          ("Field (" ++ String.ofList field.2.text ++ ")")))
  | .enum name variants =>
    some (wholeBlock i (bracedLine enumWord name) variants.length .enum name "Enum"
      ((variants.zipIdx (i + 1)).map fun (variant, k) =>
        wholeItem k variant.text .enumVariant variant.toName "Enum variant"))
  | .function isExported name parameters body =>
    some (wholeBlock i (functionLine isExported name parameters) body.lines.length .function name
      (if String.ofList name.text = "main" then "Main function" else "Function")
      ((body.lines.zipIdx (i + 1)).filterMap fun (line, k) => typedVariable? line k))
  | .filler _ => none

end Entry

/-- The outline of entries that are printed from line `i` on. -/
def symbolsOf (i : Nat) : List Entry → List Symbol
  | [] => []
  | e :: es => (e.symbol? i).toList ++ symbolsOf (i + e.lines.length) es

end VeLens.Outline
