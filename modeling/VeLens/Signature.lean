import VeLens.Declaration.Head

/-!
# Signatures and imports

A signature is what a caller needs to know of a function: its name and its parameters. Signatures
and imports are collected from all lines of a text, whatever blocks the lines stand in.

## Main definitions

* `Signature`: a function that can be called.
* `Signature.snippet`: the template of a call, with one placeholder for each parameter.
* `signatures`, `imports`: what a text declares and what it imports.
-/

namespace VeLens

open Declaration Text

/-- A function that can be called. -/
structure Signature where
  name : String
  parameters : String
  parameterNames : List String
deriving DecidableEq

namespace Signature

/-- The name of the parameter in a piece between commas, counted from one. Without a name of its
own it is named for its place. -/
def parameterName (piece : List Char) (place : Nat) : String :=
  match name? (trim piece) with
  | some (name, _) => String.ofList name
  | none => "param" ++ toString place

/-- The names of the parameters in the text between the parentheses. -/
def namesOf (parameters : List Char) : List String :=
  if allBlank parameters then []
  else ((pieces ',' parameters).zipIdx 1).map fun (piece, place) => parameterName piece place

/-- The signature of a function head. -/
def ofHead (head : Function) : Signature :=
  ⟨head.name, head.parameters, namesOf head.parameters.toList⟩

/-- The line that describes a signature. -/
def detail (s : Signature) : String :=
  "Function (" ++ (if s.parameters = "" then "no parameters" else s.parameters) ++ ")"

/-- The placeholder of a parameter, numbered by its place. -/
def placeholder (name : String) (place : Nat) : String :=
  "$\x7b" ++ toString place ++ ":" ++ name ++ "\x7d"

/-- The template of a call. Without parameters the cursor comes to rest between the parentheses. -/
def snippet (s : Signature) : String :=
  if s.parameterNames = [] then s.name ++ "($0)"
  else
    let slots := (s.parameterNames.zipIdx 1).map fun (name, place) => placeholder name place
    s.name ++ "(" ++ ", ".intercalate slots ++ ")"

end Signature

/-- The signatures of the functions that a text declares, in the order of the text. -/
def signatures (text : List Char) : List Signature :=
  ((pieces '\n' text).filterMap fun line => functionHead? (trim line)).map Signature.ofHead

/-- The paths that a text imports, in the order of the text. -/
def imports (text : List Char) : List String :=
  (pieces '\n' text).filterMap fun line => importHead? (trim line)

end VeLens
