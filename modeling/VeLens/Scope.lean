import VeLens.Buffer.Block
import VeLens.Declaration.Head
import VeLens.Declaration.Token
import VeLens.Event

/-!
# Names in scope

The names visible at a cursor come in tiers: the parameters of the function that the cursor is in,
then the local and loop variables declared between the head of that function and the cursor, then
all variables at the top level of the buffer. A name may occur in more than one tier.

## Main definitions

* `Binding`: a visible name.
* `globals`: the variables at the top level.
* `resolve`: the names visible on a line.

## Design notes

The function that the cursor is in is the nearest one whose head stands on the cursor's line or
above, even if its block ends above the cursor. A cursor outside the buffer counts as on the nearest
line.
-/

namespace VeLens.Scope

open Declaration Text

/-- Where a visible name comes from. -/
inductive Kind where
  | parameter
  | localVariable
  | localForeign
  | loopVariable
  | globalVariable
  | globalForeign
deriving DecidableEq

namespace Kind

/-- The word for a kind. -/
def word : Kind → String
  | parameter => "parameter"
  | localVariable => "local_variable"
  | localForeign => "local_foreign_variable"
  | loopVariable => "loop_variable"
  | globalVariable => "global_variable"
  | globalForeign => "global_foreign_variable"

/-- The value comes from foreign code. -/
def isForeign : Kind → Bool
  | localForeign | globalForeign => true
  | _ => false

end Kind

/-- A visible name. The preview is the beginning of the text of its value. -/
structure Binding where
  name : String
  type : String
  kind : Kind
  preview : Option String
deriving DecidableEq

/-- How long a preview may be. -/
def previewLimit : Nat := 50

/-- A text cut to `limit` characters, the last three of them dots if it was longer. -/
def preview (limit : Int) (value : List Char) : List Char :=
  if limit < value.length then upTo (limit - 3) value ++ ['.', '.', '.'] else value

/-- The type of a variable: the written one, else that of its value. -/
def typeOf (head : Variable) : String :=
  match head.writtenType, head.initializer with
  | some type, value => if type ≠ "" then type else (value.map (inferType ·.toList)).getD unresolved
  | none, value => (value.map (inferType ·.toList)).getD unresolved

/-- The name that a variable declaration makes visible. -/
def variableBinding (kind : Kind) (head : Variable) : Binding where
  name := head.name
  type := typeOf head
  kind := kind
  preview := head.initializer.map fun value => String.ofList (preview previewLimit value.toList)

/-- The name that a variable declaration inside a function makes visible. -/
def localBinding (head : Variable) : Binding :=
  variableBinding (if head.isForeign then .localForeign else .localVariable) head

/-- The name that a variable declaration at the top level makes visible. -/
def globalBinding (head : Variable) : Binding :=
  variableBinding (if head.isForeign then .globalForeign else .globalVariable) head

/-- The parameter that a piece between commas declares: a name, a colon and a type. -/
def parameterBinding? (piece : List Char) : Option Binding := do
  let (name, s) ← name? (trim piece)
  match trimLeft s with
  | ':' :: s =>
    let type := trim s
    if type ≠ [] ∧ '\n' ∉ type then
      some ⟨String.ofList name, String.ofList type, .parameter, none⟩
    else none
  | _ => none

/-- The parameters of a function that have a type. -/
def parameters (head : Function) : List Binding :=
  (pieces ',' head.parameters.toList).filterMap parameterBinding?

/-- The name that a line of a body makes visible. -/
def bodyBinding? (line : Line) : Option Binding :=
  match headOf line with
  | some (.variable head) => some (localBinding head)
  | some (.loop name) => some ⟨name, "iterator", .loopVariable, none⟩
  | _ => none

/-- The variables at the top level of a buffer. The lines that a block takes up are passed over,
whatever stands on them. -/
def globals : List Line → List Binding
  | [] => []
  | line :: below =>
    match headOf line with
    | some (.function _) | some (.struct _) | some (.enum _) =>
      globals (below.drop (Block.extent (line :: below)).1)
    | some (.variable head) => globalBinding head :: globals below
    | some (.loop _) | some (.importing _) | none => globals below
termination_by lines => lines.length
decreasing_by
  all_goals simp only [List.length_cons, List.length_drop]
  all_goals omega

/-- The nearest function head on the given line or above, with its line. -/
def enclosing? (lines : List Line) (line : Nat) : Option (Nat × Function) :=
  (lines.take (line + 1)).zipIdx.reverse.findSome? fun (text, index) =>
    (functionHead? (trim text)).map fun head => (index, head)

/-- The line of the buffer that is nearest to the cursor's. -/
def clampLine (lines : List Line) (line : Int) : Nat := min line.toNat (lines.length - 1)

/-- The line on which the block ends whose head is on the given line. -/
def blockEndLine (lines : List Line) (head : Nat) : Nat := head + (Block.extent (lines.drop head)).1

/-- The names declared between the head of a function and line `stop`. -/
def locals (lines : List Line) (head stop : Nat) : List Binding :=
  ((lines.drop (head + 1)).take (stop - (head + 1))).filterMap bodyBinding?

/-- The names that the enclosing function makes visible on a line. -/
def functionBindings (lines : List Line) (line : Nat) : List Binding :=
  match enclosing? lines line with
  | none => []
  | some (index, head) =>
    parameters head ++ locals lines index (min line (blockEndLine lines index))

/-- The names visible on the cursor's line. -/
def resolve (lines : List Line) (cursor : Position) : List Binding :=
  functionBindings lines (clampLine lines cursor.line) ++ globals lines

/-- What happens while names are resolved: the cursor may stand below its function. -/
def events (lines : List Line) (cursor : Position) : List Event :=
  let line := clampLine lines cursor.line
  match enclosing? lines line with
  | none => []
  | some (index, head) =>
    if blockEndLine lines index < line then [.pastFunction head.name line] else []

end VeLens.Scope
