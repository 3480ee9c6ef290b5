import VeLens.Text.Cut

/-!
# Paths

A path is a list of names below the top, below the present folder, or below the special top that two
slashes stand for. Empty names and single dots mean nothing and are left out. Double dots are kept:
what they lead to depends on links.

## Main definitions

* `Path.parse`, `Path.render`: from a text and back to the plainest text for the same path.
* `Path.join`: a path below another.
* `Path.below`, `Path.up`: one name further and one folder up.
* `Path.relativeTo?`: the names below a given path.
-/

namespace VeLens

/-- What a path starts from. -/
inductive Anchor where
  | here
  | top
  | doubleTop
deriving DecidableEq

/-- A path: a start and the names to follow from there. -/
structure Path where
  anchor : Anchor
  names : List String
deriving DecidableEq

namespace Path

/-- The start that a number of leading slashes stands for. -/
def anchorOf (slashes : Nat) : Anchor :=
  match slashes with
  | 0 => .here
  | 2 => .doubleTop
  | _ => .top

/-- The names between the slashes of a text, but for empty ones and single dots. -/
def namesOf (text : List Char) : List String :=
  ((Text.pieces '/' text).filter fun name => name ≠ [] ∧ name ≠ ['.']).map String.ofList

/-- The path that a text stands for. -/
def parse (text : String) : Path :=
  ⟨anchorOf (text.toList.takeWhile (· == '/')).length, namesOf text.toList⟩

/-- Names with slashes between them. -/
def slashed (names : List String) : String := "/".intercalate names

/-- The plainest text for a path. -/
def render (p : Path) : String :=
  match p.anchor with
  | .here => if p.names = [] then "." else slashed p.names
  | .top => "/" ++ slashed p.names
  | .doubleTop => "//" ++ slashed p.names

/-- The path does not depend on the present folder. -/
def isAbsolute (p : Path) : Bool := p.anchor ≠ .here

/-- The path `q`, read from `p` unless it is absolute. -/
def join (p q : Path) : Path := if q.isAbsolute then q else ⟨p.anchor, p.names ++ q.names⟩

/-- The path that a text stands for, read from `p`. -/
def joinText (p : Path) (text : String) : Path := p.join (parse text)

/-- The path one name further. -/
def below (p : Path) (name : String) : Path := ⟨p.anchor, p.names ++ [name]⟩

/-- The path one folder up. A relative path that has run out of names goes on with double dots. -/
def up (p : Path) : Path :=
  if p.anchor = .here ∧ p.names.getLast?.getD ".." = ".." then p.below ".."
  else ⟨p.anchor, p.names.dropLast⟩

/-- Names from the top without double dots, each of which takes away the name before it. -/
def collapsed (names : List String) : List String :=
  names.foldl (fun before name => if name = ".." then before.dropLast else before ++ [name]) []

/-- What follows a known beginning of a list of names. -/
def namesAfter? : (base names : List String) → Option (List String)
  | [], names => some names
  | _ :: _, [] => none
  | b :: base, n :: names => if b = n then namesAfter? base names else none

/-- The names that lead from `base` down to `p`. -/
def relativeTo? (p base : Path) : Option (List String) :=
  if p.anchor = base.anchor then namesAfter? base.names p.names else none

/-- The path holds a null character. -/
def hasNull (p : Path) : Bool := p.names.any fun name => name.toList.contains (Char.ofNat 0)

end Path

end VeLens
