import VeLens.Buffer.Block
import VeLens.Declaration.Head

/-!
# Declarations at the top level

The top level of a buffer is read line by line. A function, a struct or an enum takes up all lines
of its block, and the reading goes on below it, so nothing inside a body is at the top level. Every
other head takes up its own line.

## Main definitions

* `TopLevel`: a declaration with the lines that it takes up.
* `topLevel`: all of them, in the order of the buffer.
-/

namespace VeLens.Outline

open Declaration

/-- A head that is followed by a block. -/
def opensBlock : Head → Bool
  | .function _ | .struct _ | .enum _ => true
  | .variable _ | .loop _ | .importing _ => false

/-- A declaration at the top level of a buffer: the number of its first line, its head, the lines
that it takes up and the column on the last of them where it ends. -/
structure TopLevel where
  index : Nat
  head : Head
  lines : List Line
  column : Nat
deriving DecidableEq

/-- The declarations on lines of which the first has the number `index`. -/
def topLevelFrom (index : Nat) : List Line → List TopLevel
  | [] => []
  | line :: below =>
    match headOf line with
    | none => topLevelFrom (index + 1) below
    | some head =>
      if opensBlock head then
        let (down, column) := Block.extent (line :: below)
        ⟨index, head, line :: below.take down, column⟩ ::
          topLevelFrom (index + down + 1) (below.drop down)
      else ⟨index, head, [line], line.length⟩ :: topLevelFrom (index + 1) below
termination_by lines => lines.length
decreasing_by
  all_goals simp only [List.length_cons, List.length_drop]
  all_goals omega

/-- The declarations at the top level of a buffer. -/
def topLevel (lines : List Line) : List TopLevel := topLevelFrom 0 lines

namespace TopLevel

/-- The line of the head. -/
def line (t : TopLevel) : Line := t.lines.headD []

/-- The line on which the declaration ends. -/
def lastLine (t : TopLevel) : Line := t.lines.getLastD []

/-- The number of the line on which the declaration ends. -/
def lastIndex (t : TopLevel) : Nat := t.index + (t.lines.length - 1)

/-- The lines strictly between the head and the end, each with its number. -/
def inside (t : TopLevel) : List (Line × Nat) := t.lines.tail.dropLast.zipIdx (t.index + 1)

end TopLevel

end VeLens.Outline
