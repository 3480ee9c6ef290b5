import VeLens.FileTree.Resolve

/-!
# Snapshots of a host

The program does not look at files itself. It is given a snapshot of a host: a text that lists the
files, folders and links to be known, and what paths are read against. Each line of a snapshot is an
entry, and tabs divide its parts:

* `folder`, a path,
* `file`, a path, the content in hexadecimal digits,
* `link`, a path, a target,
* `present`, the path of the present folder,
* `home`, the path of the home folder,
* `user`, a name, the path of that user's home folder,
* `time`, the time that is written with events.

Paths lead through links, and folders on the way are made if they are missing. A file that is
written at a link is written where the link leads. A new link concerns the entry itself.

## Main definitions

* `Host.write`, `Host.makeFolder`, `Host.makeLink`: a host with one entry more.
* `Snapshot`: a host and a time.
* `Snapshot.read`: the snapshot that a text describes. Lines that are no entries count for nothing.
-/

namespace VeLens

namespace Host

/-- The names from the top to the place that a path leads to, or to the path itself if it leads to
none. -/
def namesOf (h : Host) (p : Path) : List String :=
  match h.placeOf p with
  | .ok place => place.names
  | .error _ => p.names

/-- The names from the top to the entry that a path names, which is not followed if it is a link. -/
def entryOf (h : Host) (p : Path) : List String :=
  match p.names.getLast? with
  | none => h.namesOf p
  | some name => h.namesOf ⟨p.anchor, p.names.dropLast⟩ ++ [name]

/-- The host with a file at a path. -/
def write (h : Host) (p : Path) (content : List UInt8) : Host :=
  { h with tree := Node.put (.file content) (h.namesOf p) h.tree }

/-- The host with a folder at a path, as it is if there is one already. -/
def makeFolder (h : Host) (p : Path) : Host :=
  let place := h.namesOf p
  match h.tree.at? place with
  | some _ => h
  | none => { h with tree := Node.put .empty place h.tree }

/-- The host with a link at a path. -/
def makeLink (h : Host) (p : Path) (target : String) : Host :=
  { h with tree := Node.put (.link target) (h.entryOf p) h.tree }

end Host

/-- A host at some time. -/
structure Snapshot where
  host : Host
  time : String

namespace Snapshot

/-- Nothing is known. -/
def empty : Snapshot := ⟨⟨.empty, [], "/", []⟩, ""⟩

/-- The value of a hexadecimal digit. -/
def hexDigit? (c : Char) : Option Nat :=
  if '0' ≤ c ∧ c ≤ '9' then some (c.toNat - '0'.toNat)
  else if 'a' ≤ c ∧ c ≤ 'f' then some (c.toNat - 'a'.toNat + 10)
  else if 'A' ≤ c ∧ c ≤ 'F' then some (c.toNat - 'A'.toNat + 10)
  else none

/-- The bytes that pairs of hexadecimal digits stand for. -/
def bytes? : List Char → Option (List UInt8)
  | [] => some []
  | [_] => none
  | a :: b :: rest => do
    let high ← hexDigit? a
    let low ← hexDigit? b
    return UInt8.ofNat (16 * high + low) :: (← bytes? rest)

/-- The snapshot with one more entry. -/
def add (s : Snapshot) : (parts : List String) → Snapshot
  | ["folder", path] => { s with host := s.host.makeFolder (.parse path) }
  | ["file", path, digits] =>
    match bytes? digits.toList with
    | some content => { s with host := s.host.write (.parse path) content }
    | none => s
  | ["link", path, target] => { s with host := s.host.makeLink (.parse path) target }
  | ["present", path] => { s with host := { s.host with present := (Path.parse path).names } }
  | ["home", path] => { s with host := { s.host with home := path } }
  | ["user", name, path] =>
    { s with host := { s.host with homes := (name, path) :: s.host.homes } }
  | ["time", time] => { s with time := time }
  | _ => s

/-- The snapshot that a text describes. -/
def read (text : List Char) : Snapshot :=
  (Text.pieces '\n' text).foldl
    (fun s line => s.add ((Text.pieces '\t' line).map String.ofList))
    empty

end Snapshot

end VeLens
