import VeLens.FileTree.Lookup

/-!
# Resolving paths

The place that a path leads to is an absolute path without links and double dots. Names that lead
nowhere are kept as they are.

## Main definitions

* `Host.linkAt?`: the target of the link at a path.
* `Host.resolvePieces`, `Host.resolveFrom`: the pieces of a path, resolved one after the other.
* `Host.resolve`: the place that a path leads to.

## Design notes

Resolving goes by the texts of paths. A relative path stays relative on the way, so one link can be
met under several texts, and it is followed under each of them. A link that is met again under the
same text while it is still being followed leads round in a circle. There resolving stops, and what
is left of the targets on the way and of the path itself is put behind that text, unseen. What is
left is text as well: if it begins with a slash, it is an absolute path and replaces what stands
before it.

The targets of links are read one inside the other, and there is a limit to how deep this goes.
-/

namespace VeLens

open Text

/-- Why resolving stops before the end of a path. -/
inductive Stop where
  /-- Links lead round in a circle. The rest of the path is put behind the place where it closes. -/
  | circle (place : Path)
  /-- The path cannot be resolved. -/
  | fault (fault : Fault)

/-- The links met so far by the texts of their paths, the last one first. Where a link leads is
known once it has been followed to its end. -/
abbrev Known := List (String × Option Path)

/-- Pieces of a path as the text that they were cut from. -/
def pathText (pieces : List (List Char)) : String := String.ofList (joined ['/'] pieces)

namespace Host

/-- The absolute path without double dots that has the same text otherwise. -/
def absolute (h : Host) (p : Path) : Path :=
  match p.anchor with
  | .here => ⟨.top, Path.collapsed (h.present ++ p.names)⟩
  | anchor => ⟨anchor, Path.collapsed p.names⟩

/-- The target of the link at a path that leads through folders only. No link is found at a path
that is too long. -/
def linkAt? (h : Host) (p : Path) : Option String :=
  if pathLimit < p.render.utf8ByteSize then none
  else
    match h.tree.at? (h.absolute p).names with
    | some (.link target) => some target
    | _ => none

/-- Resolves the pieces of a path from the place `here`. The target of a link that was not met
before is resolved as told. -/
def resolvePieces (h : Host)
    (resolveTarget : Known → Path → List (List Char) → Except Stop (Known × Path))
    (known : Known) (here : Path) : (pieces : List (List Char)) → Except Stop (Known × Path)
  | [] => .ok (known, here)
  | piece :: rest =>
    if piece = [] ∨ piece = ['.'] then h.resolvePieces resolveTarget known here rest
    else if piece = ['.', '.'] then h.resolvePieces resolveTarget known here.up rest
    else if piece.contains (Char.ofNat 0) then .error (.fault .nullInPath)
    else
      let next := here.below (String.ofList piece)
      match h.linkAt? next with
      | none => h.resolvePieces resolveTarget known next rest
      | some target =>
        match known.lookup next.render with
        | some (some place) => h.resolvePieces resolveTarget known place rest
        | some none => .error (.circle (next.joinText (pathText rest)))
        | none =>
          let start : Path := if isFromTop target then ⟨.top, []⟩ else here
          match resolveTarget ((next.render, none) :: known) start (pieces '/' target.toList) with
          | .ok (known, place) =>
            h.resolvePieces resolveTarget ((next.render, some place) :: known) place rest
          | .error (.circle place) => .error (.circle (place.joinText (pathText rest)))
          | .error (.fault fault) => .error (.fault fault)

/-- Resolves the pieces of a path from a place. Links may be followed `depth` deep. -/
def resolveFrom (h : Host) :
    (depth : Nat) → Known → Path → (pieces : List (List Char)) → Except Stop (Known × Path)
  | 0 => h.resolvePieces fun _ _ _ => .error (.fault .tooDeep)
  | depth + 1 => h.resolvePieces (h.resolveFrom depth)

/-- The place where resolving a path ends, be it at its end or at a circle of links. -/
def placeOf (h : Host) (p : Path) : Except Fault Path :=
  let start : Path := ⟨if p.isAbsolute then .top else .here, []⟩
  match h.resolveFrom nestingLimit [] start (p.names.map String.toList) with
  | .ok (_, place) | .error (.circle place) => .ok (h.absolute place)
  | .error (.fault fault) => .error fault

/-- The place that a path leads to, without links and double dots. Names that lead nowhere are kept.
It is a fault if links lead round in a circle there. -/
def resolve (h : Host) (p : Path) : Except Fault Path := do
  let place ← h.placeOf p
  match h.find place with
  | .error (.file .tooManyLinks path) => .error (.linkLoop path)
  | .error .nullInPath => .error .nullInPath
  | _ => .ok place

end Host

end VeLens
