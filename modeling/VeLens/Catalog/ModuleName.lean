import VeLens.FileTree.Path
import VeLens.Text.Cut

/-!
# Names of local modules

A source file of the workspace is imported by its path below the root, without the source suffix and
with slashes between the names, whatever separator the path is written with.

## Main definitions

* `ModuleName.stem`: a file name without a suffix.
* `ModuleName.relative`: the name of a module without the mark of local modules.
* `ModuleName.ofPath`: the name by which a module is imported.
-/

namespace VeLens.ModuleName

open Text

/-- The first names of standard modules. -/
def standardMark : List Char := ['s', 't', 'd', '/']

/-- A text without its last `n` characters. For `n = 0` nothing remains. -/
def dropEnd (n : Nat) (s : List Char) : List Char := if n = 0 then [] else s.take (s.length - n)

/-- A name without the suffix, if it ends in it. A suffix without characters takes the whole name
away. -/
def stem (suffix name : List Char) : List Char :=
  if endsWith suffix name then dropEnd suffix.length name else name

/-- The last of some names without the suffix. -/
def stemLast (suffix : List Char) : List (List Char) → List (List Char)
  | [] => []
  | [name] => [stem suffix name]
  | name :: names => name :: stemLast suffix names

/-- The names in the text of a path, separated by slashes of either kind. -/
def namesIn (path : List Char) : List (List Char) :=
  (pieces '/' (path.map fun c => if c = '\\' then '/' else c)).filter (· ≠ [])

/-- Names without a single dot in front. -/
def dropDot : List (List Char) → List (List Char)
  | ['.'] :: names => names
  | names => names

/-- The name of the module in a file, without the mark of local modules. -/
def relative (suffix path : List Char) : List Char :=
  joined ['/'] (stemLast suffix (dropDot (namesIn path)))

/-- The name by which the module in a file is imported. -/
def ofPath (suffix path : List Char) : List Char := '.' :: '/' :: relative suffix path

end VeLens.ModuleName
