import VeLens.Catalog.ModuleName
import VeLens.FileTree.Resolve
import VeLens.Report
import VeLens.Signature
import VeLens.Workspace.Scan

/-!
# Modules that can be imported

Standard modules are the source files of the library folder, local modules the source files of the
workspace. A library that cannot be listed is replaced by a fixed catalog, and a workspace that
cannot be listed has no modules, so that there is always something to offer.

## Main definitions

* `Module`: a module that can be imported.
* `standardModules`, `localModules`, `modules`: the modules of the library, of the workspace, and
  both.
* `standardFunctions`: the functions that an imported standard module declares.
-/

namespace VeLens.Catalog

open Text

/-- A module that can be imported. -/
structure Module where
  name : String
  description : String
deriving DecidableEq

/-- The modules that are offered when the library cannot be listed. -/
def fallback : List Module := [
  ⟨"std/io", "Input/output operations"⟩,
  ⟨"std/math", "Mathematical functions"⟩,
  ⟨"std/string", "String utilities"⟩,
  ⟨"std/fs", "File system operations"⟩,
  ⟨"std/net", "Network operations"⟩,
  ⟨"std/collections", "Data structures"⟩,
  ⟨"std/time", "Time and date operations"⟩,
  ⟨"std/json", "JSON parsing and serialization"⟩,
  ⟨"std/http", "HTTP client and server"⟩,
  ⟨"std/crypto", "Cryptographic functions"⟩]

/-- How many lines at the beginning of a file may describe it. -/
def descriptionLines : Nat := 5

/-- The comment on a line, if the line begins with one that is longer than a single character. -/
def comment? (line : List Char) : Option (List Char) :=
  let trimmed := trim line
  match after? ['/', '/'] trimmed with
  | some rest => if 3 < trimmed.length then some (trim rest) else none
  | none => none

/-- The first comment on some lines. -/
def describe? (lines : List (List Char)) : Option (List Char) :=
  (lines.take descriptionLines).findSome? comment?

/-- The description of the module in a file. -/
def description (path : Path) (stem : String) (content : List UInt8) : Report String :=
  let default := stem ++ " module"
  let read := File.lines content
  match read.fault with
  | some fault =>
    if read.lines.length < descriptionLines then do
      Report.log (.descriptionUnreadable path.render fault.message)
      return default
    else return ((describe? read.lines).map String.ofList).getD default
  | none => return ((describe? read.lines).map String.ofList).getD default

/-- The content of the file that a path leads to, if it leads to a file. -/
def contentAt? (h : Host) (path : Path) : Except Fault (Option (List UInt8)) := do
  if ← h.isFile path then return some (← h.content path) else return none

/-- The files among the entries of a folder, links to files included, with their contents. They are
in the order of the entries. -/
def filesIn (h : Host) (folder : Path) : Entries → Except Fault (List (String × List UInt8))
  | .nil => .ok []
  | .cons name _ rest => do
    let content ← contentAt? h (folder.below name)
    let files ← filesIn h folder rest
    return (content.map fun content => (name, content)).toList ++ files

/-- The module in a file of the library folder. -/
def standardModule (folder : Path) (suffix name : String) (content : List UInt8) :
    Report Module := do
  let stem := String.ofList (ModuleName.dropEnd suffix.length name.toList)
  let text ← description (folder.below name) stem content
  return ⟨String.ofList (ModuleName.standardMark ++ stem.toList), text⟩

/-- The modules in the library folder, in the order of the file names. -/
def standardModules (h : Host) (library : Option Path) (suffix : String) : Report (List Module) :=
  match library with
  | none => return fallback
  | some folder =>
    match (do filesIn h folder (← h.list folder)) with
    | .error (.file cause path) => do
      Report.log (.libraryUnavailable folder.render (Fault.file cause path).message)
      return fallback
    | .error fault => .of (.error fault)
    | .ok files =>
      byName (files.filter fun (name, _) => endsWith suffix.toList name.toList) |> Report.each
        fun (name, content) => standardModule folder suffix name content

/-- The module of the file that is open, which is not offered to itself. A file outside the
workspace excludes nothing. -/
def excludedModule (h : Host) (root : Path) (openFile : Option String) (suffix : String) :
    Except Fault (Option (List Char)) :=
  match openFile.map Path.parse with
  | none => .ok none
  | some path =>
    if path.isAbsolute then
      match (do return (← h.resolve path).relativeTo? (← h.resolve root)) with
      | .ok (some names) =>
        .ok (some (ModuleName.relative suffix.toList (Path.render ⟨.here, names⟩).toList))
      | .ok none | .error .nullInPath | .error (.file ..) => .ok none
      | .error fault => .error fault
    else .ok (some (ModuleName.relative suffix.toList path.render.toList))

/-- The module in a file of the workspace. -/
def localModule (suffix : String) (names : List String) : Module :=
  let path := (Path.slashed names).toList
  ⟨String.ofList (ModuleName.ofPath suffix.toList path),
    "Local module: " ++ String.ofList (ModuleName.relative suffix.toList path)⟩

/-- The modules of the workspace, in the order of its source files. -/
def localModules (h : Host) (root : Option Path) (openFile : Option String)
    (o : Workspace.Options) : Report (List Module) :=
  match root with
  | none => return []
  | some root => do
    let excluded ← .of (excludedModule h root openFile o.suffix)
    let listing := Workspace.sourceFiles h o root
    let offered := listing.files.filter fun names =>
      some (ModuleName.relative o.suffix.toList (Path.slashed names).toList) ≠ excluded
    match listing.fault with
    | none => return offered.map (localModule o.suffix)
    | some (.file cause path) =>
      Report.log (.workspaceUnavailable root.render (Fault.file cause path).message)
      return offered.map (localModule o.suffix)
    | some fault => .of (.error fault)

/-- The modules without those whose names have occurred before. -/
def unique : List Module → List Module
  | [] => []
  | m :: ms => m :: (unique ms).filter fun n => n.name ≠ m.name

/-- All modules: first the standard ones, then those of the workspace. -/
def modules (h : Host) (library root : Option Path) (openFile : Option String)
    (o : Workspace.Options) : Report (List Module) := do
  let standard ← standardModules h library o.suffix
  let ofWorkspace ← localModules h root openFile o
  return unique (standard ++ ofWorkspace)

/-- The functions that an imported standard module declares. -/
def standardFunctions (h : Host) (library : Option Path) (module suffix : String) :
    Report (List Signature) :=
  match library, after? ModuleName.standardMark module.toList with
  | some folder, some name =>
    let path := folder.joinText (String.ofList name ++ suffix)
    match h.text path with
    | .ok text => return signatures text
    | .error (.file .missing _) => do
      Report.log (.moduleMissing module path.render)
      return []
    | .error fault =>
      if fault.isUnreadable then do
        Report.log (.moduleUnreadable module fault.message)
        return []
      else .of (.error fault)
  | _, _ => return []

end VeLens.Catalog
