import VeLens.FileTree.Lookup
import VeLens.Toml.Document
import VeLens.Workspace.Scan

/-!
# Configuration of a workspace

A workspace may hold a file `velang.toml` at its root that says where the library is, what source
files end in and what is hidden. Without the file every setting has its usual value. A file with
values of the wrong kind or with unknown keys is refused, and all that is wrong with it is told at
once.

## Main definitions

* `Config`: the settings.
* `Config.ofTable`: the settings that a file makes, or what is wrong with them.
* `Config.load`: the settings of a workspace.
* `Config.libraryRoot`: the folder of the library.
-/

namespace VeLens

open Toml

/-- The settings of a workspace. -/
structure Config where
  home : String := "~/.velang"
  libraryDir : String := "lib/std/src"
  suffix : String := Workspace.sourceSuffix
  exclude : List String := []
  nestedIgnore : Bool := false
deriving DecidableEq

namespace Config

/-- The name of the file that holds the settings. -/
def fileName : String := "velang.toml"

/-- The keys of the settings. -/
def homeKey : String := "home"

@[inherit_doc homeKey]
def libraryKey : String := "library_dir"

@[inherit_doc homeKey]
def suffixKey : String := "source_suffix"

@[inherit_doc homeKey]
def excludeKey : String := "exclude"

@[inherit_doc homeKey]
def nestedKey : String := "nested_gitignore"

/-- All keys, in the order in which their values are judged. -/
def keys : List String := [homeKey, libraryKey, suffixKey, excludeKey, nestedKey]

/-- A judged value: what it says, or what is wrong with it. -/
abbrev Judged (α : Type) := Except (List Issue) α

/-- A value that is wrong as a whole. -/
def wrong {α : Type} (key : String) (kind : IssueKind) : Judged α := .error [⟨[.key key], kind⟩]

/-- The text of a setting. -/
def textOf (key : String) : Value → Judged String
  | .text content => .ok content
  | _ => wrong key .notText

/-- A suffix of source files: a dot and more, without slashes. -/
def isSuffix (suffix : List Char) : Bool :=
  match suffix with
  | '.' :: rest => rest ≠ [] && !rest.contains '/'
  | _ => false

/-- The suffix that a setting names. -/
def suffixOf (key : String) : Value → Judged String
  | .text content =>
    if isSuffix content.toList then .ok content else wrong key (.badSuffix content)
  | _ => wrong key .notText

/-- The texts in a list, or all items that are none, with their places. -/
def textsOf (key : String) (items : List Value) : Judged (List String) :=
  let issues := items.zipIdx.filterMap fun (item, index) =>
    match item with
    | .text _ => none
    | _ => some ⟨[.key key, .item index], .notText⟩
  if issues = [] then
    .ok (items.filterMap fun item =>
      match item with
      | .text content => some content
      | _ => none)
  else .error issues

/-- The list of texts that a setting holds. -/
def listOf (key : String) : Value → Judged (List String)
  | .list items => textsOf key items
  | _ => wrong key .notList

/-- The words that say no. -/
def noWords : List String := ["0", "off", "f", "false", "n", "no"]

/-- The words that say yes. -/
def yesWords : List String := ["1", "on", "t", "true", "y", "yes"]

/-- The answer that a word gives, in capitals or not. -/
def answer? (word : String) : Option Bool :=
  let small := String.ofList (word.toList.map Char.toLower)
  if small ∈ noWords then some false else if small ∈ yesWords then some true else none

/-- The truth value that a number stands for: zero for no and one for yes. Other numbers of at most
64 bits are unclear, and greater ones are not taken for truth values at all. -/
def truthOfNumber (key : String) (number : Int) : Judged Bool :=
  if number = 0 then .ok false
  else if number = 1 then .ok true
  else if -Nat.pow 2 63 ≤ number ∧ number < Nat.pow 2 63 then wrong key .unclearBoolean
  else wrong key .notBoolean

/-- The truth value that a setting holds. A decimal number counts if it is whole in double
precision. -/
def truthOf (key : String) : Value → Judged Bool
  | .boolean value => .ok value
  | .text content =>
    match answer? content with
    | some value => .ok value
    | none => wrong key .unclearBoolean
  | .integer number => truthOfNumber key number
  | .decimal number =>
    match number.whole? with
    | some number => truthOfNumber key number
    | none => wrong key .notBoolean
  | .moment | .list _ | .table _ => wrong key .notBoolean

/-- The judged value of a key, or the usual one if the key is absent. -/
def setting {α : Type} (table : Table) (key : String) (usual : α)
    (judge : String → Value → Judged α) : Judged α :=
  match table.lookup key with
  | some value => judge key value
  | none => .ok usual

/-- What is wrong with a judged value. -/
def Judged.issues {α : Type} : Judged α → List Issue
  | .ok _ => []
  | .error issues => issues

/-- The keys of a table that are no settings, in the order of the file. -/
def unknown (table : Table) : List Issue :=
  (table.filter fun (key, _) => key ∉ keys).map fun (key, _) => ⟨[.key key], .unknownKey⟩

/-- The suffix is given and is not a text. -/
def hasStrangeSuffix (table : Table) : Bool :=
  match table.lookup suffixKey with
  | none | some (.text _) => false
  | some _ => true

/-- The settings that a file makes. All issues are told, those of the settings before unknown keys,
but a suffix that is no text is told alone. -/
def ofTable (table : Table) : Except ConfigFault Config :=
  if hasStrangeSuffix table then .error .suffixNotText
  else
    let usual : Config := {}
    let home := setting table homeKey usual.home textOf
    let libraryDir := setting table libraryKey usual.libraryDir textOf
    let suffix := setting table suffixKey usual.suffix suffixOf
    let exclude := setting table excludeKey usual.exclude listOf
    let nestedIgnore := setting table nestedKey usual.nestedIgnore truthOf
    match home, libraryDir, suffix, exclude, nestedIgnore, unknown table with
    | .ok home, .ok libraryDir, .ok suffix, .ok exclude, .ok nestedIgnore, [] =>
      .ok ⟨home, libraryDir, suffix, exclude, nestedIgnore⟩
    | _, _, _, _, _, _ =>
      .error (.issues (home.issues ++ libraryDir.issues ++ suffix.issues ++ exclude.issues ++
        nestedIgnore.issues ++ unknown table))

/-- A flaw in the text of a file as a fault. -/
def faultOf : Flaw → Fault
  | .malformed => .config .malformed
  | .longNumber digits => .longNumber digits
  | .tooDeep => .tooDeep

/-- The settings in the text of a file. -/
def ofText (text : List Char) : Except Fault Config := do
  let table ← (Toml.parse text).mapError faultOf
  (ofTable table).mapError .config

/-- The settings in the content of a file. -/
def ofContent (content : List UInt8) : Except Fault Config := do
  ofText (← (Text.Utf8.decode content).mapError .notText)

/-- The settings of the workspace at a root. -/
def load (h : Host) (root : Path) : Except Fault Config := do
  let path := root.joinText fileName
  if ← h.isFile path then ofContent (← h.content path) else return {}

/-- The folder of the library, which is read from the home of the language unless it is absolute. -/
def libraryRoot (h : Host) (config : Config) : Except Fault Path := do
  let library ← h.expandHome (.parse config.libraryDir)
  if library.isAbsolute then return library
  else return (← h.expandHome (.parse config.home)).join library

/-- The options of a search for source files. -/
def options (config : Config) : Workspace.Options where
  suffix := config.suffix
  exclude := config.exclude
  nestedIgnore := config.nestedIgnore

end Config

end VeLens
