/-!
# Expressions for names

File names are compared with expressions: characters from a class, runs of such characters, choices,
and marks for the two ends of the text.

## Main definitions

* `CharClass`: a set of characters.
* `Expression`: an expression, and `Expression.advance`, the places that it leads to.
* `Expression.matchesAll`, `Expression.occursIn`: it matches the whole text, or a part of it.

## Design notes

A text of `n` characters has `n + 1` places: before each character and at the end. Matching goes
through the expression once and keeps for every place whether the part read so far can lead there.
A part of the expression takes one pass over the text, so the work is the product of both lengths,
however many ways there are to match.
-/

namespace VeLens.Pattern

/-- A set of characters: those in one of the ranges, or those in none. -/
structure CharClass where
  isNegated : Bool
  ranges : List (Char × Char)
deriving DecidableEq

namespace CharClass

/-- The character belongs to the class. -/
def contains (k : CharClass) (c : Char) : Bool :=
  k.isNegated != k.ranges.any fun (lo, hi) => lo ≤ c && c ≤ hi

/-- All characters. -/
def any : CharClass := ⟨true, []⟩

/-- No character. -/
def none : CharClass := ⟨false, []⟩

/-- One character only. -/
def single (c : Char) : CharClass := ⟨false, [(c, c)]⟩

/-- All characters but one. -/
def butNot (c : Char) : CharClass := ⟨true, [(c, c)]⟩

end CharClass

/-- An expression. -/
inductive Expression where
  /-- Nothing. -/
  | empty
  /-- Nothing, at the beginning of the text. -/
  | start
  /-- Nothing, at the end of the text or before a line feed that ends it. -/
  | stop
  /-- A character of a class. -/
  | one (k : CharClass)
  /-- Any number of characters of a class. -/
  | many (k : CharClass)
  /-- One expression and then another. -/
  | seq (first second : Expression)
  /-- One expression or another. -/
  | alt (left right : Expression)

/-- For each place of a text, from its beginning to its end, whether it is reached. -/
abbrev Reach := List Bool

namespace Reach

/-- The places one character of a class further on. Whether the first place is reached from before
is given. -/
def step (k : CharClass) : (reached : Bool) → List Char → Reach → Reach
  | reached, c :: s, here :: rest => reached :: step k (here && k.contains c) s rest
  | reached, _, _ => [reached]

/-- The places any number of characters of a class further on. Whether the first place is reached
from before is given. -/
def run (k : CharClass) : (reached : Bool) → List Char → Reach → Reach
  | reached, c :: s, here :: rest =>
    (reached || here) :: run k ((reached || here) && k.contains c) s rest
  | reached, _, here :: _ => [reached || here]
  | reached, _, [] => [reached]

/-- The beginning of the text, if it is reached. -/
def onlyStart : Reach → Reach
  | [] => []
  | here :: rest => here :: rest.map fun _ => false

/-- The end of the text and the place before a line feed that ends it, if they are reached. -/
def onlyStop : List Char → Reach → Reach
  | _, [] => []
  | s, here :: rest => (here && (s == [] || s == ['\n'])) :: onlyStop s.tail rest

/-- The places that are reached in one way or another. -/
def either (a b : Reach) : Reach := List.zipWith (· || ·) a b

/-- The beginning of a text. -/
def start (s : List Char) : Reach := true :: s.map fun _ => false

/-- All places of a text. -/
def everywhere (s : List Char) : Reach := true :: s.map fun _ => true

end Reach

namespace Expression

/-- The places of a text that an expression leads to from those that are reached. -/
def advance (s : List Char) : Expression → Reach → Reach
  | empty, r => r
  | start, r => r.onlyStart
  | stop, r => r.onlyStop s
  | one k, r => r.step k false s
  | many k, r => r.run k false s
  | seq a b, r => b.advance s (a.advance s r)
  | alt a b, r => (a.advance s r).either (b.advance s r)

/-- The expression matches the whole text. -/
def matchesAll (e : Expression) (s : List Char) : Bool := (e.advance s (.start s)).getLastD false

/-- The expression matches some part of the text. -/
def occursIn (e : Expression) (s : List Char) : Bool := (e.advance s (.everywhere s)).any id

end Expression

end VeLens.Pattern
