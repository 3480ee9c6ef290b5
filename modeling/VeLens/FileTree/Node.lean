/-!
# Trees of files

A file tree is made of files, folders and links. A folder holds its entries in no order of its own:
whoever goes through them by name has to sort them. A link holds the text of the path that it leads
to, whether or not anything is there.

## Main definitions

* `Node`, `Entries`: a file, link or folder, and the content of a folder.
* `Node.put`: a tree with one entry added or changed.
* `byName`: named things in the order of their names.
-/

namespace VeLens

mutual

/-- A file with its bytes, a link with its target, or a folder. -/
inductive Node where
  | file (content : List UInt8)
  | link (target : String)
  | folder (entries : Entries)

/-- The entries of a folder, in whatever order. -/
inductive Entries where
  | nil
  | cons (name : String) (node : Node) (rest : Entries)

end

namespace Entries

/-- The entry with the given name. -/
def get? (name : String) : Entries → Option Node
  | nil => none
  | cons n node rest => if n = name then some node else rest.get? name

/-- The entries with one added at the end, or replaced if its name is taken. -/
def put (name : String) (node : Node) : Entries → Entries
  | nil => cons name node nil
  | cons n old rest => if n = name then cons name node rest else cons n old (rest.put name node)

/-- The entries as a list. -/
def toList : Entries → List (String × Node)
  | nil => []
  | cons name node rest => (name, node) :: rest.toList

/-- The names of the links among the entries. -/
def linkNames : Entries → List String
  | nil => []
  | cons name (.link _) rest => name :: rest.linkNames
  | cons _ _ rest => rest.linkNames

end Entries

/-- Puts a named thing in front of the first one that has no smaller name. -/
def insertByName {α : Type} (entry : String × α) : List (String × α) → List (String × α)
  | [] => [entry]
  | next :: rest =>
    if entry.1 ≤ next.1 then entry :: next :: rest else next :: insertByName entry rest

/-- Named things in the order of their names. -/
def byName {α : Type} (entries : List (String × α)) : List (String × α) :=
  entries.foldr insertByName []

namespace Node

/-- A folder without entries. -/
def empty : Node := folder .nil

/-- The entries of a folder. Files and links have none. -/
def entries : Node → Entries
  | folder entries => entries
  | _ => .nil

/-- The node that some names lead to, through folders only. -/
def at? (node : Node) : List String → Option Node
  | [] => some node
  | name :: names =>
    match node with
    | folder entries => (entries.get? name).bind fun child => child.at? names
    | _ => none

/-- The tree with `new` at the end of some names. Folders on the way are made if they are missing.
-/
def put (new : Node) : (names : List String) → Node → Node
  | [], _ => new
  | name :: names, node =>
    folder (node.entries.put name (new.put names ((node.entries.get? name).getD empty)))

end Node

end VeLens
