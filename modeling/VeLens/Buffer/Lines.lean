import VeLens.Text.Cut

/-!
# Lines and positions of a buffer

A buffer is a text, and everything said about it counts lines and columns from zero. Lines end in a
line feed or in a carriage return and a line feed. A line feed at the very end starts one more line,
which is empty: a buffer of `n` line feeds has `n + 1` lines, as an editor counts them.

A position is a line and a column. Positions that a host sends may lie outside the buffer on either
side, so both parts are integers. Positions are compared in reading order: by line, then by column.

## Main definitions

* `Buffer.lines`: the lines of a text.
* `Position`, `Range`: a place in a buffer, and the stretch from one place up to another.
-/

namespace VeLens

/-- The characters of a line, without its end. -/
abbrev Line := List Char

namespace Buffer

/-- The line without the carriage return of its end, if it has one. -/
def dropReturn (line : Line) : Line := (Text.beforeEnd? ['\r'] line).getD line

/-- The lines of a text. -/
def lines (text : List Char) : List Line := (Text.pieces '\n' text).map dropReturn

/-- The line that a possibly misplaced line number points to. Outside the buffer it is empty. -/
def lineAt (lines : List Line) (n : Int) : Line :=
  if n < 0 then [] else lines.getD n.toNat []

end Buffer

/-- A place in a buffer. -/
structure Position where
  line : Int
  column : Int
deriving DecidableEq

namespace Position

/-- Reading order: `p` stands at `q` or before it. -/
def le (p q : Position) : Bool := p.line < q.line || (p.line == q.line && p.column ≤ q.column)

/-- The later of two positions in reading order. -/
def later (p q : Position) : Position := if p.le q then q else p

end Position

/-- The stretch from one position up to another. -/
structure Range where
  start : Position
  stop : Position
deriving DecidableEq

/-- The range `inner` lies inside `outer`: it starts no earlier and stops no later. -/
def Range.contains (outer inner : Range) : Bool :=
  outer.start.le inner.start && inner.stop.le outer.stop

end VeLens
