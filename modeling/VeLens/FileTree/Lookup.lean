import VeLens.Fault
import VeLens.FileTree.Node
import VeLens.FileTree.Path
import VeLens.Text.File

/-!
# Following paths

A host has a file tree, a present folder and the home folders of its users. Following a path goes
name by name from the top or from the present folder, through links, and ends at a file or a folder
or at the first name that leads nowhere.

## Main definitions

* `Host`: a file tree and what paths are read against.
* `Host.find`: what a path leads to.
* `Host.isFile`, `Host.isFolder`, `Host.list`, `Host.content`: questions about a path.
* `Host.expandHome`: the path with the home folder in place of a leading tilde.

## Design notes

A walk keeps the folders that it has come through, so that double dots lead back to where the walk
came from and not to the name before them in the path. The number of links followed in one walk is
limited.
-/

namespace VeLens

/-- A file tree and what paths are read against. -/
structure Host where
  tree : Node
  present : List String
  home : String
  homes : List (String × String)

/-- The folders that a walk has come through, the innermost first. -/
abbrev Trail := List (String × Node)

/-- How many links one walk may follow. -/
def linkLimit : Nat := 40

/-- How many bytes a name may have. -/
def nameLimit : Nat := 255

/-- How many bytes the text of a path may have. -/
def pathLimit : Nat := 4095

/-- How deep links may be resolved and folders be searched, one inside the other. -/
def nestingLimit : Nat := 980

/-- The node at which a walk stands. -/
def Trail.node (tree : Node) : Trail → Node
  | [] => tree
  | (_, node) :: _ => node

/-- The names that lead from the top to where a walk stands. -/
def Trail.names (trail : Trail) : List String := (trail.map Prod.fst).reverse

/-- The steps that the target of a link stands for. A slash at its end demands a folder, as a single
dot does. -/
def linkSteps (target : String) : List String :=
  let last := Text.afterLast '/' target.toList
  Path.namesOf target.toList ++ (if last = [] ∨ last = ['.'] then ["."] else [])

/-- The path that a link's target stands for begins at the top. -/
def isFromTop (target : String) : Bool := target.toList.head? == some '/'

/-- Follows names from where a walk stands. At a link it goes on as told. -/
def followNames (tree : Node) (goOn : Trail → List String → Except FileCause Trail)
    (trail : Trail) : (names : List String) → Except FileCause Trail
  | [] => .ok trail
  | name :: names =>
    match trail.node tree with
    | .folder entries =>
      if name = "." then followNames tree goOn trail names
      else if name = ".." then followNames tree goOn trail.tail names
      else if nameLimit < name.utf8ByteSize then .error .nameTooLong
      else match entries.get? name with
        | none => .error .missing
        | some (.link target) =>
          goOn (if isFromTop target then [] else trail) (linkSteps target ++ names)
        | some node => followNames tree goOn ((name, node) :: trail) names
    | _ => .error .notFolder

/-- Follows names from where a walk stands, through at most so many links. -/
def follow (tree : Node) : (links : Nat) → Trail → (names : List String) → Except FileCause Trail
  | 0 => followNames tree fun _ _ => .error .tooManyLinks
  | links + 1 => followNames tree (follow tree links)

namespace Host

/-- The walk to the present folder. -/
def presentTrail (h : Host) : Trail :=
  match follow h.tree linkLimit [] h.present with
  | .ok trail => trail
  | .error _ => []

/-- The walk along a path. -/
def walk (h : Host) (p : Path) : Except Fault Trail :=
  if p.hasNull then .error .nullInPath
  else if pathLimit < p.render.utf8ByteSize then .error (.file .nameTooLong p.render)
  else
    match follow h.tree linkLimit (if p.isAbsolute then [] else h.presentTrail) p.names with
    | .ok trail => .ok trail
    | .error cause => .error (.file cause p.render)

/-- The file or folder that a path leads to. -/
def find (h : Host) (p : Path) : Except Fault Node := (h.walk p).map (Trail.node h.tree)

/-- A question about what a path leads to. For a path that leads nowhere the answer is no, but too
long a name remains a fault. -/
def holds (h : Host) (p : Path) (test : Node → Bool) : Except Fault Bool :=
  match h.find p with
  | .ok node => .ok (test node)
  | .error (.file .nameTooLong path) => .error (.file .nameTooLong path)
  | .error _ => .ok false

/-- The node is a file. -/
def isFileNode : Node → Bool
  | .file _ => true
  | _ => false

/-- The node is a folder. -/
def isFolderNode : Node → Bool
  | .folder _ => true
  | _ => false

/-- A path leads to a file. -/
def isFile (h : Host) (p : Path) : Except Fault Bool := h.holds p isFileNode

/-- A path leads to a folder. -/
def isFolder (h : Host) (p : Path) : Except Fault Bool := h.holds p isFolderNode

/-- The entries of the folder that a path leads to. -/
def list (h : Host) (p : Path) : Except Fault Entries := do
  match ← h.find p with
  | .folder entries => .ok entries
  | _ => .error (.file .notFolder p.render)

/-- The bytes of the file that a path leads to. -/
def content (h : Host) (p : Path) : Except Fault (List UInt8) := do
  match ← h.find p with
  | .file content => .ok content
  | _ => .error (.file .isFolder p.render)

/-- The text of the file that a path leads to. -/
def text (h : Host) (p : Path) : Except Fault (List Char) := do
  (Text.File.text (← h.content p)).mapError .notText

/-- The home folder of a user. The present user has no name. -/
def homeOf (h : Host) (user : List Char) : Except Fault String :=
  if user = [] then .ok h.home
  else if user.contains (Char.ofNat 0) then .error .nullInPath
  else
    match h.homes.lookup (String.ofList user) with
    | some home => .ok home
    | none => .error .unknownHome

/-- The path with the home folder of a user in place of a first name that begins with a tilde. A
tilde alone stands for the present user. -/
def expandHome (h : Host) (p : Path) : Except Fault Path :=
  match p.anchor, p.names with
  | .here, name :: names =>
    match name.toList with
    | '~' :: user => do
      let base := Path.parse (← h.homeOf user)
      return ⟨base.anchor, base.names ++ names⟩
    | _ => .ok p
  | _, _ => .ok p

end Host

end VeLens
