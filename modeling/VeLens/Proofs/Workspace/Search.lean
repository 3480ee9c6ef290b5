import VeLens.Proofs.FileTree.Faults
import VeLens.Proofs.FileTree.Walks
import VeLens.Proofs.Text.Cuts
import VeLens.Workspace.Scan

/-!
# Searching folders

A search goes through the entries of a folder twice by name, first for folders and then for files,
and asks of each whether it is hidden. What it finds are the source files that names lead to without
a hidden entry on the way. It is cut short if a folder that it comes to cannot be searched or if one
of its questions has no answer.

## Main definitions

* `Rules.Reaches`: names that lead to a node without a hidden entry on the way.
* `Rules.Finds`: names that lead to a source file in this manner.
* `Rules.Fails`: something on the way of a search that cuts it short.

## Main results

* `filesBelow_folder`: a search in a folder as a list of searches, one or none for each entry.
* `finds_of_mem_files`, `mem_files_of_finds`: what is found.
* `fails_of_fault`, `fault_eq_none_iff`: when a search is cut short.
-/

namespace VeLens.Workspace

namespace Listing

variable {a b : Listing} {parts : List Listing} {fault : Fault}

theorem append_of_none (h : a.fault = none) : a ++ b = ⟨a.files ++ b.files, b.fault⟩ := by
  change append a b = _
  rw [append, h]

theorem append_of_some (h : a.fault = some fault) : a ++ b = a := by
  change append a b = _
  rw [append, h]

theorem all_cons (a : Listing) (parts : List Listing) : all (a :: parts) = a ++ all parts := rfl

theorem append_assoc (a b c : Listing) : a ++ b ++ c = a ++ (b ++ c) := by
  cases ha : a.fault with
  | some fault => rw [append_of_some ha, append_of_some ha, append_of_some ha]
  | none =>
    cases hb : b.fault with
    | some fault =>
      have hab : (a ++ b).fault = some fault := by rw [append_of_none ha]; exact hb
      rw [append_of_some hab, append_of_some hb]
    | none =>
      have hab : (a ++ b).fault = none := by rw [append_of_none ha]; exact hb
      rw [append_of_none hab, append_of_none ha, append_of_none ha, append_of_none hb,
        List.append_assoc]

theorem all_append (xs ys : List Listing) : all (xs ++ ys) = all xs ++ all ys := by
  induction xs with
  | nil => rfl
  | cons a xs ih => rw [List.cons_append, all_cons, all_cons, ih, append_assoc]

/-- Searches in a row are complete if each of them is. -/
theorem fault_all_eq_none_iff : (all parts).fault = none ↔ ∀ a ∈ parts, a.fault = none := by
  induction parts with
  | nil => simp [all, empty]
  | cons a parts ih =>
    rw [all_cons, List.forall_mem_cons, ← ih]
    cases ha : a.fault with
    | some fault => simp [append_of_some ha, ha]
    | none => simp [append_of_none ha]

theorem exists_of_fault_all (h : (all parts).fault = some fault) :
    ∃ a ∈ parts, a.fault = some fault := by
  induction parts with
  | nil => simp [all, empty] at h
  | cons a parts ih =>
    rw [all_cons] at h
    cases ha : a.fault with
    | some other =>
      rw [append_of_some ha, ha] at h
      exact ⟨a, List.mem_cons_self, by rw [ha, h]⟩
    | none =>
      rw [append_of_none ha] at h
      obtain ⟨b, hb, hfault⟩ := ih h
      exact ⟨b, List.mem_cons_of_mem _ hb, hfault⟩

/-- Complete searches in a row find what each of them finds. -/
theorem files_all (h : (all parts).fault = none) : (all parts).files = parts.flatMap files := by
  induction parts with
  | nil => rfl
  | cons a parts ih =>
    obtain ⟨ha, hparts⟩ := List.forall_mem_cons.mp (fault_all_eq_none_iff.mp h)
    rw [all_cons, append_of_none ha, List.flatMap_cons, ih (fault_all_eq_none_iff.mpr hparts)]

/-- Searches in a row find nothing that none of them finds. -/
theorem files_all_sublist (parts : List Listing) :
    (all parts).files.Sublist (parts.flatMap files) := by
  induction parts with
  | nil => exact List.Sublist.refl _
  | cons a parts ih =>
    rw [all_cons, List.flatMap_cons]
    cases ha : a.fault with
    | some fault =>
      rw [append_of_some ha]
      exact List.sublist_append_left _ _
    | none =>
      rw [append_of_none ha]
      exact ih.append_left _

end Listing

namespace Rules

variable (rules : Rules)

/-- The search in an entry of a folder if the entry is a folder itself. -/
def inFolder (names : List String) : String × Node → Listing
  | (name, .folder entries) =>
    rules.unlessHidden (names ++ [name]) (filesBelow rules (names ++ [name]) (.folder entries))
  | (_, .file _) | (_, .link _) => .empty

/-- The names lead from a node through folders to another node, and what they lead to on the way and
at the end is not hidden. -/
structure Reaches (names : List String) (node : Node) (path : List String) (sub : Node) : Prop where
  at?_eq : node.at? path = some sub
  shown : ∀ front, front <+: path → front ≠ [] → rules.isHidden (names ++ front) = .ok false

/-- The names lead from a node to a source file, and nothing on the way is hidden. -/
def Finds (names : List String) (node : Node) (path : List String) : Prop :=
  (∃ content, rules.Reaches names node path (.file content)) ∧
    ∃ name, path.getLast? = some name ∧ rules.isSource name = true

/-- A search asks whether the entry of a folder is hidden. -/
def Asks : String × Node → Prop
  | (_, .folder _) => True
  | (name, .file _) => rules.isSource name = true
  | (_, .link _) => False

/-- Something on the way of a search cuts it short: a folder that cannot be searched, or an entry of
which it is not known whether it is hidden. -/
def Fails (names : List String) (node : Node) (fault : Fault) : Prop :=
  ∃ path entries, rules.Reaches names node path (.folder entries) ∧
    (rules.obstacle (names ++ path) entries = some fault ∨
      ∃ entry ∈ entries.toList, rules.Asks entry ∧
        rules.isHidden (names ++ path ++ [entry.1]) = .error fault)

end Rules

variable {rules : Rules} {names path : List String} {node child sub : Node} {entries : Entries}
  {name : String} {fault : Fault}

/-! ### A folder and its entries -/

theorem filesInFolders_eq_map (rules : Rules) (names : List String) (entries : Entries) :
    filesInFolders rules names entries =
      entries.toList.map fun entry => (entry.1, rules.inFolder names entry) := by
  fun_induction Entries.toList entries with
  | case1 => rfl
  | case2 name node rest ih =>
    rw [List.map_cons, ← ih]
    cases node <;> rfl

/-- Searches that belong to entries are made in the order of the entries' names. -/
theorem inOrder_map (search : String × Node → Listing) (entries : List (String × Node)) :
    Listing.inOrder (entries.map fun entry => (entry.1, search entry)) =
      .all ((byName entries).map search) := by
  rw [Listing.inOrder, map_byName, List.map_map]
  rfl

/-- **The search in a folder.** Either the folder cannot be searched, or the entries are gone
through by name, twice: each is searched if it is a folder, and then each is taken if it is a source
file. -/
theorem filesBelow_folder (rules : Rules) (names : List String) (entries : Entries) :
    (∃ fault, rules.obstacle names entries = some fault ∧
        filesBelow rules names (.folder entries) = .failed fault) ∨
      rules.obstacle names entries = none ∧
        filesBelow rules names (.folder entries) =
          .all ((byName entries.toList).map (rules.inFolder names) ++
            (byName entries.toList).map (rules.ofFile names)) := by
  rw [filesBelow]
  cases hobstacle : rules.obstacle names entries with
  | some fault => exact .inl ⟨fault, rfl, rfl⟩
  | none =>
    refine .inr ⟨rfl, ?_⟩
    rw [Listing.all_append, filesInFolders_eq_map, filesAmong, inOrder_map, inOrder_map]

theorem mem_files_unlessHidden {search : Listing} {found : List String} :
    found ∈ (rules.unlessHidden names search).files ↔
      rules.isHidden names = .ok false ∧ found ∈ search.files := by
  rw [Rules.unlessHidden]
  split <;> simp_all [Listing.failed, Listing.empty]

theorem fault_unlessHidden {search : Listing} :
    (rules.unlessHidden names search).fault = some fault ↔
      rules.isHidden names = .error fault ∨
        rules.isHidden names = .ok false ∧ search.fault = some fault := by
  rw [Rules.unlessHidden]
  split <;> simp_all [Listing.failed, Listing.empty]

theorem mem_files_inFolder {found : List String} :
    found ∈ (rules.inFolder names (name, node)).files ↔
      (∃ entries, node = .folder entries) ∧ rules.isHidden (names ++ [name]) = .ok false ∧
        found ∈ (filesBelow rules (names ++ [name]) node).files := by
  cases node with
  | folder entries => simp [Rules.inFolder, mem_files_unlessHidden]
  | file content => simp [Rules.inFolder, Listing.empty]
  | link target => simp [Rules.inFolder, Listing.empty]

theorem mem_files_ofFile {found : List String} :
    found ∈ (rules.ofFile names (name, node)).files ↔
      (∃ content, node = .file content) ∧ rules.isSource name = true ∧
        rules.isHidden (names ++ [name]) = .ok false ∧ found = names ++ [name] := by
  cases node with
  | file content =>
    cases hsource : rules.isSource name with
    | true => simp [Rules.ofFile, hsource, mem_files_unlessHidden]
    | false => simp [Rules.ofFile, hsource, Listing.empty]
  | folder entries => simp [Rules.ofFile, Listing.empty]
  | link target => simp [Rules.ofFile, Listing.empty]

theorem fault_inFolder :
    (rules.inFolder names (name, node)).fault = some fault ↔
      (∃ entries, node = .folder entries) ∧
        (rules.isHidden (names ++ [name]) = .error fault ∨
          rules.isHidden (names ++ [name]) = .ok false ∧
            (filesBelow rules (names ++ [name]) node).fault = some fault) := by
  cases node with
  | folder entries => simp [Rules.inFolder, fault_unlessHidden]
  | file content => simp [Rules.inFolder, Listing.empty]
  | link target => simp [Rules.inFolder, Listing.empty]

theorem fault_ofFile :
    (rules.ofFile names (name, node)).fault = some fault ↔
      (∃ content, node = .file content) ∧ rules.isSource name = true ∧
        rules.isHidden (names ++ [name]) = .error fault := by
  cases node with
  | file content =>
    cases hsource : rules.isSource name with
    | true => simp [Rules.ofFile, hsource, fault_unlessHidden]
    | false => simp [Rules.ofFile, hsource, Listing.empty]
  | folder entries => simp [Rules.ofFile, Listing.empty]
  | link target => simp [Rules.ofFile, Listing.empty]

/-! ### Steps of a path -/

namespace Rules

theorem Reaches.nil (rules : Rules) (names : List String) (node : Node) :
    rules.Reaches names node [] node :=
  ⟨rfl, fun _ hfront hne => absurd (List.prefix_nil.mp hfront) hne⟩

/-- A path into a folder leads to an entry of it that is not hidden, and goes on from there. -/
theorem reaches_cons_iff :
    rules.Reaches names (.folder entries) (name :: path) sub ↔
      ∃ child, entries.get? name = some child ∧ rules.isHidden (names ++ [name]) = .ok false ∧
        rules.Reaches (names ++ [name]) child path sub := by
  constructor
  · rintro ⟨hat, hshown⟩
    obtain ⟨child, hget, hsub⟩ := Option.bind_eq_some_iff.mp hat
    refine ⟨child, hget, hshown [name] (by simp) (by simp), hsub, fun front hfront _ => ?_⟩
    rw [List.append_assoc]
    exact hshown (name :: front) (by simpa using hfront) (by simp)
  · rintro ⟨child, hget, hname, hsub, hshown⟩
    refine ⟨Option.bind_eq_some_iff.mpr ⟨child, hget, hsub⟩, fun front hfront hne => ?_⟩
    obtain _ | ⟨first, front⟩ := front
    · exact absurd rfl hne
    · obtain ⟨rfl, hfront'⟩ := List.cons_prefix_cons.mp hfront
      by_cases hnil : front = []
      · rwa [hnil]
      · rw [← List.singleton_append, ← List.append_assoc]
        exact hshown front hfront' hnil

/-- Names that lead somewhere from a file or a link are no names. -/
theorem Reaches.eq_nil (h : rules.Reaches names node path sub)
    (hnode : ∀ entries, node ≠ .folder entries) : path = [] := by
  obtain _ | ⟨name, path⟩ := path
  · rfl
  · have hat := h.at?_eq
    cases node with
    | folder entries => exact absurd rfl (hnode entries)
    | file content => simp [Node.at?] at hat
    | link target => simp [Node.at?] at hat

/-- Names that lead from a folder to a source file are some. -/
theorem Finds.ne_nil (h : rules.Finds names node path) : path ≠ [] := by
  rintro rfl
  obtain ⟨-, name, hlast, -⟩ := h
  simp at hlast

/-- A path to a source file in an entry of a folder. -/
theorem finds_cons (hget : entries.get? name = some child)
    (hname : rules.isHidden (names ++ [name]) = .ok false)
    (hfinds : rules.Finds (names ++ [name]) child path) :
    rules.Finds names (.folder entries) (name :: path) := by
  have hne := hfinds.ne_nil
  obtain ⟨⟨content, hreaches⟩, last, hlast, hsource⟩ := hfinds
  refine ⟨⟨content, reaches_cons_iff.mpr ⟨child, hget, hname, hreaches⟩⟩, last, ?_, hsource⟩
  rwa [List.getLast?_cons_of_ne_nil hne]

theorem finds_singleton {content : List UInt8} (hget : entries.get? name = some (.file content))
    (hname : rules.isHidden (names ++ [name]) = .ok false) (hsource : rules.isSource name = true) :
    rules.Finds names (.folder entries) [name] :=
  ⟨⟨content, reaches_cons_iff.mpr ⟨.file content, hget, hname, .nil _ _ _⟩⟩, name, rfl, hsource⟩

end Rules

/-! ### What is found -/

/-- Whatever a search finds, also if it is cut short, is a source file with no hidden entry on the
way. -/
theorem finds_of_mem_files (hdistinct : node.Distinct) {found : List String}
    (hmem : found ∈ (filesBelow rules names node).files) :
    ∃ path, found = names ++ path ∧ rules.Finds names node path := by
  induction node using Node.tree_induction generalizing names with
  | file content => simp [filesBelow, Listing.empty] at hmem
  | link target => simp [filesBelow, Listing.empty] at hmem
  | folder entries ih =>
    obtain ⟨fault, -, hfiles⟩ | ⟨-, hfiles⟩ := filesBelow_folder rules names entries
    · simp [hfiles, Listing.failed] at hmem
    rw [hfiles] at hmem
    have hparts := (Listing.files_all_sublist _).subset hmem
    simp only [List.flatMap_append, List.mem_append, List.mem_flatMap, List.mem_map,
      mem_byName] at hparts
    obtain ⟨_, ⟨⟨name, child⟩, hentry, rfl⟩, hfound⟩ | ⟨_, ⟨⟨name, child⟩, hentry, rfl⟩, hfound⟩ :=
      hparts
    · have hget := (Entries.Distinct.get?_eq_some_iff hdistinct).mpr hentry
      have hchild := Entries.Distinct.of_mem hdistinct hentry
      obtain ⟨-, hname, hbelow⟩ := mem_files_inFolder.mp hfound
      obtain ⟨path, rfl, hfinds⟩ := ih _ hentry hchild hbelow
      exact ⟨name :: path, by simp, Rules.finds_cons hget hname hfinds⟩
    · have hget := (Entries.Distinct.get?_eq_some_iff hdistinct).mpr hentry
      obtain ⟨⟨content, rfl⟩, hsource, hname, rfl⟩ := mem_files_ofFile.mp hfound
      exact ⟨[name], rfl, Rules.finds_singleton hget hname hsource⟩

/-- A search that is not cut short finds every source file with no hidden entry on the way. -/
theorem mem_files_of_finds (hnone : (filesBelow rules names node).fault = none)
    (hfinds : rules.Finds names node path) :
    names ++ path ∈ (filesBelow rules names node).files := by
  induction path generalizing names node with
  | nil => exact absurd rfl hfinds.ne_nil
  | cons name path ih =>
    obtain ⟨⟨content, hreaches⟩, last, hlast, hsource⟩ := hfinds
    cases node with
    | file content => exact absurd (hreaches.eq_nil (by simp)) (by simp)
    | link target => exact absurd (hreaches.eq_nil (by simp)) (by simp)
    | folder entries =>
      obtain ⟨fault, -, hfiles⟩ | ⟨-, hfiles⟩ := filesBelow_folder rules names entries
      · simp [hfiles, Listing.failed] at hnone
      rw [hfiles] at hnone ⊢
      rw [Listing.files_all hnone]
      have hparts := Listing.fault_all_eq_none_iff.mp hnone
      obtain ⟨child, hget, hname, hrest⟩ := Rules.reaches_cons_iff.mp hreaches
      have hentry := mem_byName.mpr (Entries.mem_toList_of_get? hget)
      by_cases hnil : path = []
      · -- The entry itself is the file.
        subst hnil
        obtain rfl : child = .file content := Option.some_inj.mp hrest.at?_eq
        obtain rfl : name = last := by simpa using hlast
        refine List.mem_flatMap.mpr ⟨_, List.mem_append_right _ (List.mem_map_of_mem hentry), ?_⟩
        exact mem_files_ofFile.mpr ⟨⟨content, rfl⟩, hsource, hname, rfl⟩
      · -- The file is below the entry, which then is a folder.
        cases child with
        | file content => exact absurd (hrest.eq_nil (by simp)) hnil
        | link target => exact absurd (hrest.eq_nil (by simp)) hnil
        | folder below =>
          have hpart : rules.inFolder names (name, .folder below) ∈
              (byName entries.toList).map (rules.inFolder names) ++
                (byName entries.toList).map (rules.ofFile names) :=
            List.mem_append_left _ (List.mem_map_of_mem hentry)
          refine List.mem_flatMap.mpr ⟨_, hpart, mem_files_inFolder.mpr ⟨⟨below, rfl⟩, hname, ?_⟩⟩
          have hbelow : (filesBelow rules (names ++ [name]) (.folder below)).fault = none := by
            rw [Option.eq_none_iff_forall_ne_some]
            intro fault hfault
            have hsome := fault_inFolder.mpr ⟨⟨below, rfl⟩, .inr ⟨hname, hfault⟩⟩
            rw [hparts _ hpart] at hsome
            simp at hsome
          rw [List.getLast?_cons_of_ne_nil hnil] at hlast
          have hfound := ih hbelow ⟨⟨content, hrest⟩, last, hlast, hsource⟩
          rwa [List.append_assoc, List.singleton_append] at hfound

/-! ### Searches that are cut short -/

/-- What cuts a search short lies on its way. -/
theorem fails_of_fault (hdistinct : node.Distinct)
    (hfault : (filesBelow rules names node).fault = some fault) : rules.Fails names node fault := by
  induction node using Node.tree_induction generalizing names with
  | file content => simp [filesBelow, Listing.empty] at hfault
  | link target => simp [filesBelow, Listing.empty] at hfault
  | folder entries ih =>
    obtain ⟨other, hobstacle, hfiles⟩ | ⟨-, hfiles⟩ := filesBelow_folder rules names entries
    · obtain rfl : other = fault := by simpa [hfiles, Listing.failed] using hfault
      exact ⟨[], entries, .nil _ _ _, .inl (by simpa using hobstacle)⟩
    rw [hfiles] at hfault
    obtain ⟨part, hpart, hfault⟩ := Listing.exists_of_fault_all hfault
    rcases List.mem_append.mp hpart with hpart | hpart
    · obtain ⟨⟨name, child⟩, hentry, rfl⟩ := List.mem_map.mp hpart
      rw [mem_byName] at hentry
      obtain ⟨⟨below, rfl⟩, hasked | ⟨hname, hbelow⟩⟩ := fault_inFolder.mp hfault
      · exact ⟨[], entries, .nil _ _ _, .inr ⟨_, hentry, trivial, by simpa using hasked⟩⟩
      · have hget := (Entries.Distinct.get?_eq_some_iff hdistinct).mpr hentry
        obtain ⟨path, sub, hreaches, hwhy⟩ :=
          ih _ hentry (Entries.Distinct.of_mem hdistinct hentry) hbelow
        refine ⟨name :: path, sub, Rules.reaches_cons_iff.mpr ⟨_, hget, hname, hreaches⟩, ?_⟩
        simpa using hwhy
    · obtain ⟨⟨name, child⟩, hentry, rfl⟩ := List.mem_map.mp hpart
      rw [mem_byName] at hentry
      obtain ⟨⟨content, rfl⟩, hsource, hasked⟩ := fault_ofFile.mp hfault
      exact ⟨[], entries, .nil _ _ _, .inr ⟨_, hentry, hsource, by simpa using hasked⟩⟩

/-- A search with something on its way that cuts it short is not complete. -/
theorem fault_ne_none_of_fails (hfails : rules.Fails names node fault) :
    (filesBelow rules names node).fault ≠ none := by
  obtain ⟨path, sub, hreaches, hwhy⟩ := hfails
  induction path generalizing names node with
  | nil =>
    obtain rfl : node = .folder sub := Option.some_inj.mp hreaches.at?_eq
    rw [List.append_nil] at hwhy
    obtain ⟨other, -, hfiles⟩ | ⟨hobstacle, hfiles⟩ := filesBelow_folder rules names sub
    · simp [hfiles, Listing.failed]
    rw [hfiles]
    intro hnone
    have hparts := Listing.fault_all_eq_none_iff.mp hnone
    obtain hobstacle' | ⟨⟨name, child⟩, hentry, hasks, hasked⟩ := hwhy
    · simp [hobstacle] at hobstacle'
    rw [← mem_byName] at hentry
    cases child with
    | link target => exact hasks
    | folder below =>
      have hpart := hparts _ (List.mem_append_left _ (List.mem_map_of_mem hentry))
      simp [fault_inFolder.mpr ⟨⟨below, rfl⟩, .inl hasked⟩] at hpart
    | file content =>
      have hpart := hparts _ (List.mem_append_right _ (List.mem_map_of_mem hentry))
      simp [fault_ofFile.mpr ⟨⟨content, rfl⟩, hasks, hasked⟩] at hpart
  | cons name path ih =>
    cases node with
    | file content => exact absurd (hreaches.eq_nil (by simp)) (by simp)
    | link target => exact absurd (hreaches.eq_nil (by simp)) (by simp)
    | folder entries =>
      obtain ⟨child, hget, hname, hrest⟩ := Rules.reaches_cons_iff.mp hreaches
      obtain ⟨other, -, hfiles⟩ | ⟨-, hfiles⟩ := filesBelow_folder rules names entries
      · simp [hfiles, Listing.failed]
      rw [hfiles]
      intro hnone
      have hparts := Listing.fault_all_eq_none_iff.mp hnone
      have hbelow := ih hrest (by simpa using hwhy)
      obtain ⟨other, hother⟩ := Option.ne_none_iff_exists'.mp hbelow
      have hfolder : ∃ below, child = .folder below := by
        cases child with
        | folder below => exact ⟨below, rfl⟩
        | file content => simp [filesBelow, Listing.empty] at hother
        | link target => simp [filesBelow, Listing.empty] at hother
      have hentry := mem_byName.mpr (Entries.mem_toList_of_get? hget)
      have hpart := hparts _ (List.mem_append_left _ (List.mem_map_of_mem hentry))
      simp [fault_inFolder.mpr ⟨hfolder, .inr ⟨hname, hother⟩⟩] at hpart

/-- **Complete searches.** A search is complete exactly if nothing on its way cuts it short. -/
theorem fault_eq_none_iff (hdistinct : node.Distinct) :
    (filesBelow rules names node).fault = none ↔ ∀ fault, ¬ rules.Fails names node fault := by
  constructor
  · exact fun hnone fault hfails => fault_ne_none_of_fails hfails hnone
  · intro hall
    rw [Option.eq_none_iff_forall_ne_some]
    exact fun fault hfault => hall fault (fails_of_fault hdistinct hfault)

/-! ### Hidden entries -/

section Hidden

variable {isIgnored : List String → Except Fault Bool} {exclude : List String}

theorem isHidden_eq_true_iff :
    isHidden isIgnored exclude names = .ok true ↔ isIgnored names = .ok true ∨
      isIgnored names = .ok false ∧
        (exclude.any fun pattern => Pattern.Glob.covers pattern (Path.slashed names)) = true := by
  rw [isHidden]
  cases isIgnored names with
  | error fault => simp [bind, Except.bind]
  | ok answer => cases answer <;> simp [bind, Except.bind, pure, Except.pure]

theorem isHidden_eq_false_iff :
    isHidden isIgnored exclude names = .ok false ↔ isIgnored names = .ok false ∧
      (exclude.any fun pattern => Pattern.Glob.covers pattern (Path.slashed names)) = false := by
  rw [isHidden]
  cases isIgnored names with
  | error fault => simp [bind, Except.bind]
  | ok answer => cases answer <;> simp [bind, Except.bind, pure, Except.pure]

end Hidden

/-! ### Files of a workspace -/

variable {h : Host} {o : Options} {root : Path} {isIgnored : List String → Except Fault Bool}

theorem obstacle_eq_none_iff {asked : List String} :
    obstacle h root names asked = none ↔ names.length < nestingLimit ∧
      ∀ name ∈ asked, ∃ answer, h.isFolder ⟨root.anchor, root.names ++ names ++ [name]⟩ =
        .ok answer := by
  rw [obstacle]
  split
  · next hdeep => simp [Nat.not_lt.mpr hdeep]
  · next hdeep => simp [Nat.not_le.mp hdeep]

/-- A folder is not searched because it is nested too deep or because the file system refuses a
path. -/
theorem obstacle_cases {asked : List String} (hfault : obstacle h root names asked = some fault) :
    fault = .tooDeep ∧ nestingLimit ≤ names.length ∨ fault.IsFile := by
  rw [obstacle] at hfault
  split at hfault
  · next hdeep => exact .inl ⟨(Option.some_inj.mp hfault).symm, hdeep⟩
  · obtain ⟨name, -, hname⟩ := List.exists_of_findSome?_eq_some hfault
    exact .inr (h.holds_fails _ _ fault (Fault.of?_eq_some_iff.mp hname))

/-- Something is found only in a folder that can be listed. -/
theorem exists_of_mem_search (hmem : path ∈ (search h o root isIgnored).files) :
    ∃ entries, h.list root = .ok entries ∧
      path ∈ (filesBelow (o.rules h root isIgnored) [] (.folder entries)).files := by
  rw [search] at hmem
  cases hlist : h.list root with
  | error fault => simp [hlist, Listing.failed] at hmem
  | ok entries =>
    rw [hlist] at hmem
    exact ⟨entries, rfl, hmem⟩

/-- The files of a workspace are found by a search, or there are none. -/
theorem sourceFiles_cases (h : Host) (o : Options) (root : Path) :
    (∃ fault, o.ignoreFiles h root = .error fault ∧ sourceFiles h o root = .failed fault) ∨
      ∃ ignores, o.ignoreFiles h root = .ok ignores ∧
        sourceFiles h o root = search h o root (Workspace.isIgnored ignores) := by
  rw [sourceFiles]
  cases o.ignoreFiles h root with
  | error fault => exact .inl ⟨fault, rfl, rfl⟩
  | ok ignores => exact .inr ⟨ignores, rfl, rfl⟩

/-- The files of a workspace are files below its root whose names end in the source suffix. -/
theorem exists_of_mem_sourceFiles (hform : h.tree.WellFormed)
    (hmem : path ∈ (sourceFiles h o root).files) :
    ∃ entries content, h.list root = .ok entries ∧
      (Node.folder entries).at? path = some (.file content) ∧
      ∃ name, path.getLast? = some name ∧ o.suffix.toList <:+ name.toList := by
  obtain ⟨fault, -, hfiles⟩ | ⟨ignores, -, hfiles⟩ := sourceFiles_cases h o root
  · simp [hfiles, Listing.failed] at hmem
  rw [hfiles] at hmem
  obtain ⟨entries, hlist, hmem⟩ := exists_of_mem_search hmem
  have htop : (Node.folder entries).Distinct := Host.list_distinct hform.distinct hlist
  obtain ⟨found, rfl, ⟨content, hreaches⟩, name, hlast, hsource⟩ := finds_of_mem_files htop hmem
  exact ⟨entries, content, hlist, hreaches.at?_eq, name, hlast, Text.endsWith_iff.mp hsource⟩

theorem isName_of_mem_sourceFiles (hform : h.tree.WellFormed)
    (hmem : path ∈ (sourceFiles h o root).files) : ∀ name ∈ path, IsName name := by
  obtain ⟨entries, content, hlist, hat, -⟩ := exists_of_mem_sourceFiles hform hmem
  have htop : (Node.folder entries).WellFormed := Host.list_wellFormed hform hlist
  exact (htop.of_at? hat).1

end VeLens.Workspace
