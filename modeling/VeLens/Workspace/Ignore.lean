import VeLens.FileTree.Lookup
import VeLens.Pattern.IgnoreRule

/-!
# Ignore files of a workspace

The ignore file at the root of a workspace hides files below the root. On request the ignore files
in all folders below count as well, each for what lies below its own folder. A path is hidden if one
of them hides it.

## Main definitions

* `IgnoreReader`: a way to read ignore files, and `readByRules`, the usual one.
* `IgnoreFile`: what an ignore file says, and the folder that it is about.
* `rootIgnore`, `nestedIgnores`: the ignore files of a workspace, as contents with the names that
  lead to their folders.
* `readIgnores`: the ignore files that some contents make.
* `isIgnored`: some ignore file hides a path.
* `obstacle`: what keeps a folder below a root from being searched.

## Design notes

The ignore file at the root may be a link when it is the only one asked for. Among all ignore files
links do not count, and folders behind links are not searched. The one at the root alone has to be
able to judge every path. Among all of them one that cannot judge a path because of a value is
passed over.

Nothing here depends on what the lines of an ignore file mean. So the way to read one is an argument
wherever it is needed.
-/

namespace VeLens.Workspace

open Pattern

/-- The name of ignore files. -/
def ignoreName : String := ".gitignore"

/-- A way to read ignore files: from the bytes of one, whether it hides a path below its folder.
Reading can fail, and so can each question. -/
abbrev IgnoreReader := List UInt8 → Except Fault (List String → Except Fault Bool)

/-- Reads the rules of an ignore file. Rules are read line by line, so a rule that cannot be read is
noticed before bytes that come long after it. -/
def readRules (content : List UInt8) : Except Fault (List IgnoreRule) := do
  let read := Text.File.lines content
  let rules ← IgnoreRule.parseAll read.lines
  match read.fault with
  | some fault => .error (.notText fault)
  | none => .ok rules

/-- The text of a path below a folder, against which rules are compared. The folder itself is a
single dot. -/
def textBelow (names : List String) : List Char :=
  if names = [] then ['.'] else (Path.slashed names).toList

/-- Reads an ignore file as rules, of which the last one that applies to a path decides. -/
def readByRules : IgnoreReader := fun content => do
  let rules ← readRules content
  return fun below => IgnoreRule.hides rules (textBelow below)

/-- What an ignore file says of paths below its folder, and the names that lead from the root to
that folder. -/
structure IgnoreFile where
  folder : List String
  hidesBelow : List String → Except Fault Bool

/-- An ignore file hides the path at the end of some names. Of paths outside its folder it says
nothing. -/
def IgnoreFile.hides (file : IgnoreFile) (names : List String) : Except Fault Bool :=
  match Path.namesAfter? file.folder names with
  | some below => file.hidesBelow below
  | none => .ok false

/-- An ignore file that does not hide a path if it cannot judge it because of a value. -/
def IgnoreFile.lenient (file : IgnoreFile) : IgnoreFile where
  folder := file.folder
  hidesBelow below :=
    match file.hidesBelow below with
    | .error fault => if fault.isValue then .ok false else .error fault
    | .ok answer => .ok answer

/-- The first of several ignore files that hides a path settles the question. -/
def isIgnored : (files : List IgnoreFile) → (names : List String) → Except Fault Bool
  | [], _ => .ok false
  | file :: files, names => do
    if ← file.hides names then return true else isIgnored files names

/-- The content of the ignore file at the root, if there is one. -/
def rootIgnore (h : Host) (root : Path) : Except Fault (List (List String × List UInt8)) := do
  let path := root.joinText ignoreName
  if ← h.isFile path then return [([], ← h.content path)] else return []

/-- What keeps the folder at the end of some names from being searched: it is nested too deep, or of
an entry that is asked for it cannot be told whether it is a folder, because its path is too long.
-/
def obstacle (h : Host) (root : Path) (names asked : List String) : Option Fault :=
  if nestingLimit ≤ names.length then some .tooDeep
  else asked.findSome? fun name =>
    Fault.of? (h.isFolder ⟨root.anchor, root.names ++ names ++ [name]⟩)

mutual

/-- The ignore files in a folder and in the folders below, as contents with the names that lead to
their folders. -/
def ignoreContents (obstacle : List String → Entries → Option Fault) (names : List String) :
    Node → Except Fault (List (List String × List UInt8))
  | .folder entries => do
    let own :=
      match entries.get? ignoreName with
      | some (.file content) => [(names, content)]
      | _ => []
    match obstacle names entries with
    | some fault => .error fault
    | none => return own ++ (← ignoreContentsAmong obstacle names entries)
  | _ => .ok []

/-- The ignore files below some entries of a folder. -/
def ignoreContentsAmong (obstacle : List String → Entries → Option Fault) (names : List String) :
    Entries → Except Fault (List (List String × List UInt8))
  | .nil => .ok []
  | .cons name node rest => do
    return (← ignoreContents obstacle (names ++ [name]) node) ++
      (← ignoreContentsAmong obstacle names rest)

end

/-- What keeps the ignore files of a folder and of those below from being found. The ignore file of
the folder is asked for, and each link. -/
def ignoreObstacle (h : Host) (root : Path) (names : List String) (entries : Entries) :
    Option Fault :=
  obstacle h root names (ignoreName :: entries.linkNames)

/-- The contents of all ignore files of a workspace, in the order of their paths below the root. -/
def nestedIgnores (h : Host) (root : Path) : Except Fault (List (List String × List UInt8)) := do
  if ← h.isFolder root then
    let contents ← ignoreContents (ignoreObstacle h root) [] (← h.find root)
    let place (file : List String × List UInt8) : String := Path.slashed (file.1 ++ [ignoreName])
    return contents.mergeSort fun a b => decide (place a ≤ place b)
  else
    -- Below what is no folder there is no file, but the question can fail.
    let _ ← h.isFile (root.joinText ignoreName)
    return []

/-- Reads ignore files from their contents. One that cannot be read spoils them all. -/
def readIgnores (read : IgnoreReader) :
    List (List String × List UInt8) → Except Fault (List IgnoreFile)
  | [] => .ok []
  | (folder, content) :: contents => do
    let hidesBelow ← read content
    let files ← readIgnores read contents
    return ⟨folder, hidesBelow⟩ :: files

end VeLens.Workspace
