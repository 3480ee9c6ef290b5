/-!
# Cutting text

Pieces between separators, known beginnings and endings, and cuts at a place that may be counted
from the end.

## Main definitions

* `pieces`: the text between separators.
* `after?`: what follows a known beginning.
* `beforeEnd?`: what stands before a known ending.
* `upTo`: the text up to a place.
-/

namespace VeLens.Text

/-- Puts `c` in front of the first piece. -/
def consFirst (c : Char) : List (List Char) → List (List Char)
  | [] => [[c]]
  | p :: ps => (c :: p) :: ps

/-- The pieces between the separators: one more than there are separators, some of them possibly
empty. -/
def pieces (sep : Char) (s : List Char) : List (List Char) :=
  s.foldr (fun c ps => if c = sep then [] :: ps else consFirst c ps) [[]]

/-- Pieces in a row, with a separator between neighbours. -/
def joined (sep : List Char) : List (List Char) → List Char
  | [] => []
  | [p] => p
  | p :: ps => p ++ sep ++ joined sep ps

/-- What follows `word` in a text that begins with it. -/
def after? : (word s : List Char) → Option (List Char)
  | [], s => some s
  | _ :: _, [] => none
  | w :: ws, c :: s => if w = c then after? ws s else none

/-- The text begins with `word`. -/
def startsWith (word s : List Char) : Bool := (after? word s).isSome

/-- What stands before `word` in a text that ends with it. -/
def beforeEnd? (word s : List Char) : Option (List Char) :=
  (after? word.reverse s.reverse).map List.reverse

/-- The text ends with `word`. -/
def endsWith (word s : List Char) : Bool := (beforeEnd? word s).isSome

/-- The first `n` characters. A negative `n` counts from the end: it leaves out the last `-n`. -/
def upTo (n : Int) (s : List Char) : List Char :=
  if 0 ≤ n then s.take n.toNat else s.take (s.length - (-n).toNat)

/-- What follows the last `c`, or the whole text if there is none. -/
def afterLast (c : Char) (s : List Char) : List Char :=
  (s.reverse.takeWhile (· != c)).reverse

end VeLens.Text
