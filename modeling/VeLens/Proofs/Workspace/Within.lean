import VeLens.Proofs.FileTree.Resolving
import VeLens.Proofs.Workspace.Search

/-!
# Entries within the root

A search could make sure that it does not leave the workspace by asking of each entry whether it
still lies within the root once both are resolved. The answer is always yes, because a search passes
over links: what is reached from the root through folders alone has its place below that of the
root. So a search does without the question.

## Main definitions

* `isWithin`: the place of an entry lies within that of the root.
* `orOutside`: an entry is hidden if it is ignored or lies outside the root.

## Main results

* `filesBelow_congr`: a search depends only on what is said of the entries of its tree, links
  excepted.
* `isWithin_of_at?`: what is reached from the root through folders lies within it.
* `search_orOutside`: hiding what lies outside the root changes nothing.
-/

namespace VeLens.Workspace

/-- The place of the entry at the end of some names lies within the place of the root. If the file
system refuses one of the paths, the answer is no. -/
def isWithin (h : Host) (root : Path) (names : List String) : Except Fault Bool :=
  let below? : Except Fault (Option (List String)) := do
    let base ← h.resolve root
    let place ← h.resolve ⟨root.anchor, root.names ++ names⟩
    return place.relativeTo? base
  match below? with
  | .ok below => .ok below.isSome
  | .error (.file ..) => .ok false
  | .error fault => .error fault

/-- An entry is hidden if it lies outside the root, and otherwise if it is ignored. -/
def orOutside (h : Host) (root : Path) (isIgnored : List String → Except Fault Bool)
    (names : List String) : Except Fault Bool := do
  if ← isWithin h root names then isIgnored names else return true

/-! ### What a search depends on -/

variable {rules rules' : Rules} {names : List String} {node : Node}

/-- Two sets of rules say the same of whatever is reached from a node through folders, links
excepted. -/
def Rules.AgreeBelow (rules rules' : Rules) (names : List String) (node : Node) : Prop :=
  ∀ path sub, node.at? path = some sub → path ≠ [] → (∀ target, sub ≠ .link target) →
    rules.isHidden (names ++ path) = rules'.isHidden (names ++ path)

theorem Rules.AgreeBelow.unlessHidden {entries : Entries} {name : String} {child : Node}
    (hagree : rules.AgreeBelow rules' names (.folder entries))
    (hget : entries.get? name = some child) (hchild : ∀ target, child ≠ .link target)
    (search : Listing) :
    rules.unlessHidden (names ++ [name]) search = rules'.unlessHidden (names ++ [name]) search := by
  have hat : (Node.folder entries).at? [name] = some child :=
    Option.bind_eq_some_iff.mpr ⟨child, hget, rfl⟩
  rw [Rules.unlessHidden, Rules.unlessHidden, hagree [name] child hat (by simp) hchild]

theorem Rules.AgreeBelow.of_get? {entries : Entries} {name : String} {child : Node}
    (hagree : rules.AgreeBelow rules' names (.folder entries))
    (hget : entries.get? name = some child) :
    rules.AgreeBelow rules' (names ++ [name]) child := by
  intro path sub hat _ hsub
  have hpath : (Node.folder entries).at? (name :: path) = some sub :=
    Option.bind_eq_some_iff.mpr ⟨child, hget, hat⟩
  simpa using hagree (name :: path) sub hpath (by simp) hsub

/-- **What a search depends on.** A search asks whether entries are hidden only of entries in its
tree, and never of links. -/
theorem filesBelow_congr (hdistinct : node.Distinct) (hsource : rules.isSource = rules'.isSource)
    (hobstacle : rules.obstacle = rules'.obstacle) (hagree : rules.AgreeBelow rules' names node) :
    filesBelow rules names node = filesBelow rules' names node := by
  induction node using Node.tree_induction generalizing names with
  | file content => rfl
  | link target => rfl
  | folder entries ih =>
    have hget {entry : String × Node} (hentry : entry ∈ entries.toList) :
        entries.get? entry.1 = some entry.2 :=
      (Entries.Distinct.get?_eq_some_iff hdistinct).mpr hentry
    have hfolders : filesInFolders rules names entries = filesInFolders rules' names entries := by
      rw [filesInFolders_eq_map, filesInFolders_eq_map]
      refine List.map_congr_left fun entry hentry => congrArg (Prod.mk entry.1) ?_
      obtain ⟨name, child⟩ := entry
      cases child with
      | file content => rfl
      | link target => rfl
      | folder below =>
        have hbelow := ih _ hentry (Entries.Distinct.of_mem hdistinct hentry)
          (hagree.of_get? (hget hentry))
        rw [Rules.inFolder, Rules.inFolder, hbelow]
        exact hagree.unlessHidden (hget hentry) (by simp) _
    have hfiles : filesAmong rules names entries = filesAmong rules' names entries := by
      refine List.map_congr_left fun entry hentry => congrArg (Prod.mk entry.1) ?_
      obtain ⟨name, child⟩ := entry
      cases child with
      | folder below => rfl
      | link target => rfl
      | file content =>
        rw [Rules.ofFile, Rules.ofFile, hsource]
        split
        · exact hagree.unlessHidden (hget hentry) (by simp) _
        · rfl
    rw [filesBelow, filesBelow, hobstacle, hfolders, hfiles]

/-! ### Nothing lies outside -/

variable {h : Host} {o : Options} {root : Path} {entries : Entries}

/-- What is reached from the root through folders alone lies within the root. -/
theorem isWithin_of_at? (hform : h.tree.WellFormed) (hreach : h.LinksInReach)
    (habsolute : root.isAbsolute = true) (hlist : h.list root = .ok entries)
    (hat : (Node.folder entries).at? names = some node) (hnode : ∀ target, node ≠ .link target) :
    isWithin h root names = .ok true := by
  obtain ⟨base, hroot, hbelow⟩ := Host.resolve_of_list hform hreach habsolute hlist
  have hrelative : Path.relativeTo? ⟨base.anchor, base.names ++ names⟩ base = some names :=
    Path.relativeTo?_eq_some_iff.mpr rfl
  simp only [isWithin, hroot, hbelow names node hat hnode, bind, Except.bind, pure, Except.pure,
    hrelative]
  rfl

/-- **Nothing lies outside.** A search below an absolute root finds the same and fails in the same
way, whether or not it hides what lies outside the root. -/
theorem search_orOutside (hform : h.tree.WellFormed) (hreach : h.LinksInReach)
    (habsolute : root.isAbsolute = true) (isIgnored : List String → Except Fault Bool) :
    search h o root (orOutside h root isIgnored) = search h o root isIgnored := by
  rw [search, search]
  cases hlist : h.list root with
  | error fault => rfl
  | ok entries =>
    have htop : (Node.folder entries).Distinct := Host.list_distinct hform.distinct hlist
    refine filesBelow_congr htop rfl rfl fun path sub hat _ hsub => ?_
    have hwithin := isWithin_of_at? hform hreach habsolute hlist hat hsub
    simp [Options.rules, isHidden, orOutside, hwithin, bind, Except.bind]

end VeLens.Workspace
