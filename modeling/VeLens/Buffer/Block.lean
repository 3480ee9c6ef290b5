import VeLens.Buffer.Lines

/-!
# Blocks in braces

A block begins on the line of its head and ends at the brace that closes it. Braces are counted in
reading order from the start of the head's line. The block closes at the first `}` at which as many
braces have been closed as opened. Braces in comments and in quoted text count as well. A block that
never closes runs to the end of the buffer.

## Main definitions

* `close?`: the closing brace of the block that begins on the first of some lines.
* `extent`: where that block ends, closed or not.
* `findEnd`, `isUnterminated`, `extentAt`: the same for a line of a buffer, given by its number.

## Design notes

The matching works on the lines from the head on, so what a block is depends on nothing above it.
Before the first `{` the depth may fall below zero. A `}` closes the block exactly when the depth
before it is one.
-/

namespace VeLens.Block

/-- By how much a character changes the depth. -/
def turn (c : Char) : Int := if c = '{' then 1 else if c = '}' then -1 else 0

/-- By how much a line changes the depth. -/
def turns (line : Line) : Int := line.foldr (fun c depth => turn c + depth) 0

/-- The column of the closing brace on a line that is reached at the given depth. -/
def closeColumn? : (depth : Int) → Line → Option Nat
  | _, [] => none
  | depth, c :: s =>
    if c = '}' ∧ depth = 1 then some 0 else (closeColumn? (depth + turn c) s).map (· + 1)

/-- The closing brace on lines that are reached at the given depth: how many lines down it stands,
and its column. -/
def closeFrom? : (depth : Int) → List Line → Option (Nat × Nat)
  | _, [] => none
  | depth, line :: below =>
    match closeColumn? depth line with
    | some column => some (0, column)
    | none => (closeFrom? (depth + turns line) below).map fun (down, column) => (down + 1, column)

/-- The closing brace of the block whose head is the first of the lines. -/
def close? (lines : List Line) : Option (Nat × Nat) := closeFrom? 0 lines

/-- The place of the last character: how many lines down it stands, and its column. -/
def lastPlace (lines : List Line) : Nat × Nat :=
  (lines.length - 1, (lines.getLastD []).length - 1)

/-- Where the block ends whose head is the first of the lines: at its closing brace, or at the last
character if it never closes. -/
def extent (lines : List Line) : Nat × Nat := (close? lines).getD (lastPlace lines)

/-- The lines that are read from line `start` on. A negative `start` counts from the end, and the
reading then goes on at the top. Further up than the first line there is nothing to read. -/
def readFrom? (lines : List Line) (start : Int) : Option (List Line) :=
  if 0 ≤ start then some (lines.drop start.toNat)
  else if (lines.length : Int) + start < 0 then none
  else some (lines.drop ((lines.length : Int) + start).toNat ++ lines)

/-- The closing brace of the block whose head is on line `start`. The start of that line stands for
a block that never closes. -/
def findEnd (lines : List Line) (start : Int) : Option Position :=
  (readFrom? lines start).map fun read =>
    match close? read with
    | some (down, column) => ⟨start + down, column⟩
    | none => ⟨start, 0⟩

/-- The block never closes. A closing brace comes after an opening one, so it cannot stand at the
start of the head's line. -/
def isUnterminated (stop : Position) (start : Int) : Bool := stop.line == start && stop.column == 0

/-- Where the block ends whose head is on line `start`. One that never closes ends with the last
line of a buffer that has lines. -/
def extentAt (lines : List Line) (start : Int) : Option Position :=
  (findEnd lines start).map fun stop =>
    if isUnterminated stop start && !lines.isEmpty then
      ⟨(lastPlace lines).1, (lastPlace lines).2⟩
    else stop

end VeLens.Block
