import VeLens.Pattern.Glob
import VeLens.Workspace.Ignore

/-!
# Source files of a workspace

The source files of a workspace are the files below its root whose names end in the source suffix.
In each folder the folders below come before the files, and both come in the order of their names.
Links are never followed. A hidden folder hides all that is in it. An entry is hidden if an ignore
file says so or if its path matches an exclude pattern. A search ends at the first folder that is
nested too deep or holds an entry whose path is too long.

## Main definitions

* `Options`: which files are looked for and which are hidden.
* `Listing`: the files found, and the fault that cut the search short.
* `filesBelow`: a search below a node, by the names of its entries.
* `search`: the source files below a root that a given predicate does not ignore.
* `sourceFiles`: the source files below a root.
-/

namespace VeLens.Workspace

open Pattern

/-- The suffix of source files if nothing else is said. -/
def sourceSuffix : String := ".ve"

/-- Which files are looked for and which are hidden, and how ignore files are read. -/
structure Options where
  suffix : String := sourceSuffix
  exclude : List String := []
  nestedIgnore : Bool := false
  readIgnore : IgnoreReader := readByRules

/-- Paths below a root in the order in which they were found, and the fault that cut the search
short. -/
structure Listing where
  files : List (List String)
  fault : Option Fault

namespace Listing

/-- Nothing was found. -/
def empty : Listing := ⟨[], none⟩

/-- The search met a fault at once. -/
def failed (fault : Fault) : Listing := ⟨[], some fault⟩

/-- One search after another, unless the first was cut short. -/
def append (a b : Listing) : Listing :=
  match a.fault with
  | some _ => a
  | none => ⟨a.files ++ b.files, b.fault⟩

instance : Append Listing := ⟨append⟩

/-- Searches in a row, up to the first that is cut short. -/
def all (parts : List Listing) : Listing := parts.foldr (· ++ ·) empty

/-- Searches in the order of the names that they belong to. -/
def inOrder (parts : List (String × Listing)) : Listing := all ((byName parts).map Prod.snd)

end Listing

/-- What a search needs to know: what entries are hidden and what folders cannot be searched. -/
structure Rules where
  isHidden : List String → Except Fault Bool
  isSource : String → Bool
  obstacle : List String → Entries → Option Fault

/-- A search that is made only if the entry is not hidden. -/
def Rules.unlessHidden (rules : Rules) (names : List String) (search : Listing) : Listing :=
  match rules.isHidden names with
  | .error fault => .failed fault
  | .ok true => .empty
  | .ok false => search

/-- The search of an entry of a folder for source files: the entry itself if it is one. -/
def Rules.ofFile (rules : Rules) (names : List String) : String × Node → Listing
  | (name, .file _) =>
    if rules.isSource name then rules.unlessHidden (names ++ [name]) ⟨[names ++ [name]], none⟩
    else .empty
  | (_, .folder _) | (_, .link _) => .empty

/-- The source files among the entries of a folder, each under its name. -/
def filesAmong (rules : Rules) (names : List String) (entries : Entries) :
    List (String × Listing) :=
  entries.toList.map fun entry => (entry.1, rules.ofFile names entry)

mutual

/-- The source files below a node at the end of some names. -/
def filesBelow (rules : Rules) (names : List String) : Node → Listing
  | .folder entries =>
    match rules.obstacle names entries with
    | some fault => .failed fault
    | none =>
      .inOrder (filesInFolders rules names entries) ++ .inOrder (filesAmong rules names entries)
  | .file _ | .link _ => .empty

/-- The searches below the folders among some entries, each under the name of its entry. -/
def filesInFolders (rules : Rules) (names : List String) : Entries → List (String × Listing)
  | .nil => []
  | .cons name node rest =>
    (name, match node with
      | .folder _ => rules.unlessHidden (names ++ [name]) (filesBelow rules (names ++ [name]) node)
      | .file _ | .link _ => .empty) :: filesInFolders rules names rest

end

/-- The contents of the ignore files that options ask for. -/
def Options.ignoreContents (o : Options) (h : Host) (root : Path) :
    Except Fault (List (List String × List UInt8)) :=
  if o.nestedIgnore then nestedIgnores h root else rootIgnore h root

/-- The ignore files that options ask for. -/
def Options.ignoreFiles (o : Options) (h : Host) (root : Path) :
    Except Fault (List IgnoreFile) := do
  let files ← readIgnores o.readIgnore (← o.ignoreContents h root)
  return if o.nestedIgnore then files.map IgnoreFile.lenient else files

/-- An entry is hidden if it is ignored or if its path matches an exclude pattern. -/
def isHidden (isIgnored : List String → Except Fault Bool) (exclude : List String)
    (names : List String) : Except Fault Bool := do
  if ← isIgnored names then return true
  else return exclude.any fun pattern => Glob.covers pattern (Path.slashed names)

/-- The rules of a search below a root. Of all entries of a folder it is asked, by name, whether
they are folders. -/
def Options.rules (o : Options) (h : Host) (root : Path)
    (isIgnored : List String → Except Fault Bool) : Rules where
  isHidden := isHidden isIgnored o.exclude
  isSource name := Text.endsWith o.suffix.toList name.toList
  obstacle names entries := obstacle h root names ((byName entries.toList).map Prod.fst)

/-- The source files below a root, if it is known what is ignored. -/
def search (h : Host) (o : Options) (root : Path) (isIgnored : List String → Except Fault Bool) :
    Listing :=
  match h.list root with
  | .error fault => .failed fault
  | .ok entries => filesBelow (o.rules h root isIgnored) [] (.folder entries)

/-- The source files below a root. -/
def sourceFiles (h : Host) (o : Options) (root : Path) : Listing :=
  match o.ignoreFiles h root with
  | .error fault => .failed fault
  | .ok ignores => search h o root (isIgnored ignores)

end VeLens.Workspace
