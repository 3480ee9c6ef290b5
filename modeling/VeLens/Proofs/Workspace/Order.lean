import VeLens.Proofs.FileTree.Snapshots
import VeLens.Proofs.Workspace.Search

/-!
# The order of a search

In each folder a search sorts the entries by name. Then it goes through the folders first and lists
the files behind them. For two files anywhere below the root this comes down to the first name in
which their paths differ: a path that goes on behind this name comes before one that ends there, and
of two that both go on or both end the one with the smaller name comes first.

## Main definitions

* `ComesBefore`: the order of two paths, read off from the paths alone.

## Main results

* `ComesBefore.asymm`: of two paths at most one comes before the other.
* `pairwise_comesBefore`: what a search finds is in this order.
* `nodup_files`: nothing is found twice.
* `sourceFiles_inOrder`: the places of files in the list agree with the order of their paths.
-/

namespace VeLens.Workspace

/-- At the first name in which the paths differ, the first path goes on and the second one ends, or
both go on or both end and the name of the first is the smaller one. -/
def ComesBefore (p q : List String) : Prop :=
  ∃ common a b below beyond, p = common ++ a :: below ∧ q = common ++ b :: beyond ∧ a ≠ b ∧
    (below ≠ [] ∧ beyond = [] ∨ (below = [] ↔ beyond = []) ∧ a < b)

/-! ### The order of paths -/

section Paths

variable {p q : List String} {a b : String}

/-- A name that both paths begin with does not matter. -/
theorem comesBefore_cons_self_iff : ComesBefore (a :: p) (a :: q) ↔ ComesBefore p q := by
  constructor
  · rintro ⟨common, b, c, below, beyond, hp, hq, hne, horder⟩
    obtain _ | ⟨first, common⟩ := common
    · obtain ⟨rfl, -⟩ := List.cons.inj hp
      obtain ⟨rfl, -⟩ := List.cons.inj hq
      exact absurd rfl hne
    · obtain ⟨-, rfl⟩ := List.cons.inj hp
      obtain ⟨-, rfl⟩ := List.cons.inj hq
      exact ⟨common, b, c, below, beyond, rfl, rfl, hne, horder⟩
  · rintro ⟨common, b, c, below, beyond, rfl, rfl, hne, horder⟩
    exact ⟨a :: common, b, c, below, beyond, rfl, rfl, hne, horder⟩

/-- Paths that begin with different names differ there first. -/
theorem comesBefore_cons_iff (hab : a ≠ b) :
    ComesBefore (a :: p) (b :: q) ↔ p ≠ [] ∧ q = [] ∨ (p = [] ↔ q = []) ∧ a < b := by
  constructor
  · rintro ⟨common, c, d, below, beyond, hp, hq, hne, horder⟩
    obtain _ | ⟨first, common⟩ := common
    · obtain ⟨rfl, rfl⟩ := List.cons.inj hp
      obtain ⟨rfl, rfl⟩ := List.cons.inj hq
      exact horder
    · obtain ⟨rfl, -⟩ := List.cons.inj hp
      obtain ⟨rfl, -⟩ := List.cons.inj hq
      exact absurd rfl hab
  · intro horder
    exact ⟨[], a, b, p, q, rfl, rfl, hab, horder⟩

theorem ComesBefore.ne_nil (h : ComesBefore p q) : p ≠ [] ∧ q ≠ [] := by
  obtain ⟨common, a, b, below, beyond, rfl, rfl, -⟩ := h
  simp

/-- Of two paths at most one comes before the other. -/
theorem ComesBefore.asymm (h : ComesBefore p q) : ¬ ComesBefore q p := by
  induction p generalizing q with
  | nil => exact absurd rfl h.ne_nil.1
  | cons a p ih =>
    obtain _ | ⟨b, q⟩ := q
    · exact absurd rfl h.ne_nil.2
    by_cases hab : a = b
    · subst hab
      rw [comesBefore_cons_self_iff] at h ⊢
      exact ih h
    · rw [comesBefore_cons_iff hab] at h
      rw [comesBefore_cons_iff (Ne.symm hab)]
      rcases h with ⟨hp, hq⟩ | ⟨hends, hlt⟩
      · simp [hp, hq]
      · rintro (⟨hq, hp⟩ | ⟨-, hgt⟩)
        · exact hq (hends.mp hp)
        · exact String.lt_asymm hlt hgt

theorem ComesBefore.ne (h : ComesBefore p q) : p ≠ q := by
  rintro rfl
  exact h.asymm h

/-- In a list in this order the places of two paths compare as the paths do. -/
theorem lt_iff_comesBefore {files : List (List String)} (hfiles : files.Pairwise ComesBefore)
    {i j : Nat} (hi : i < files.length) (hj : j < files.length) :
    i < j ↔ ComesBefore files[i] files[j] := by
  rw [List.pairwise_iff_getElem] at hfiles
  refine ⟨hfiles i j hi hj, fun hbefore => ?_⟩
  rcases Nat.lt_trichotomy i j with hlt | rfl | hgt
  · exact hlt
  · exact absurd rfl hbefore.ne
  · exact absurd hbefore (hfiles j i hj hi hgt).asymm

end Paths

/-! ### The order of what is found -/

variable {rules : Rules} {names : List String} {node : Node} {entries : Entries}

theorem files_unlessHidden_sublist (search : Listing) :
    (rules.unlessHidden names search).files.Sublist search.files := by
  rw [Rules.unlessHidden]
  split
  · exact List.nil_sublist _
  · exact List.nil_sublist _
  · exact List.Sublist.refl _

theorem files_ofFile_sublist (entry : String × Node) :
    (rules.ofFile names entry).files.Sublist [names ++ [entry.1]] := by
  obtain ⟨name, child⟩ := entry
  cases child with
  | folder below => exact List.nil_sublist _
  | link target => exact List.nil_sublist _
  | file content =>
    rw [Rules.ofFile]
    split
    · exact files_unlessHidden_sublist _
    · exact List.nil_sublist _

/-- What is found in a folder among the entries goes on behind the name of that folder. -/
theorem exists_of_mem_inFolder (hdistinct : entries.Distinct) {entry : String × Node}
    (hentry : entry ∈ byName entries.toList) {found : List String}
    (hfound : found ∈ (rules.inFolder names entry).files) :
    ∃ path, path ≠ [] ∧ found = names ++ entry.1 :: path := by
  obtain ⟨name, child⟩ := entry
  obtain ⟨-, -, hbelow⟩ := mem_files_inFolder.mp hfound
  obtain ⟨path, rfl, hfinds⟩ := finds_of_mem_files (hdistinct.of_mem (mem_byName.mp hentry)) hbelow
  exact ⟨path, hfinds.ne_nil, by simp⟩

/-- The folders of a folder are searched by rising names, in whatever order it holds them. -/
theorem pairwise_inFolder (hdistinct : entries.Distinct)
    (hbelow : ∀ entry ∈ byName entries.toList,
      (filesBelow rules (names ++ [entry.1]) entry.2).files.Pairwise ComesBefore) :
    ((byName entries.toList).flatMap fun entry => (rules.inFolder names entry).files).Pairwise
      ComesBefore := by
  refine List.pairwise_flatMap.mpr ⟨?_, ?_⟩
  · rintro ⟨name, child⟩ hentry
    cases child with
    | file content => exact List.Pairwise.nil
    | link target => exact List.Pairwise.nil
    | folder below => exact (hbelow _ hentry).sublist (files_unlessHidden_sublist _)
  · refine hdistinct.pairwise_byName.imp_of_mem ?_
    intro first second hfirst hsecond hlt found hfound other hother
    obtain ⟨path, hpath, rfl⟩ := exists_of_mem_inFolder hdistinct hfirst hfound
    obtain ⟨more, hmore, rfl⟩ := exists_of_mem_inFolder hdistinct hsecond hother
    exact ⟨names, _, _, path, more, rfl, rfl, Std.ne_of_lt hlt, .inr ⟨by simp [hpath, hmore], hlt⟩⟩

/-- The files of a folder are listed by rising names. -/
theorem pairwise_ofFile (hdistinct : entries.Distinct) :
    ((byName entries.toList).flatMap fun entry => (rules.ofFile names entry).files).Pairwise
      ComesBefore := by
  refine List.pairwise_flatMap.mpr ⟨fun entry _ => ?_, ?_⟩
  · exact (List.pairwise_singleton _ _).sublist (files_ofFile_sublist entry)
  · refine hdistinct.pairwise_byName.imp fun {first second} hlt found hfound other hother => ?_
    obtain rfl := List.mem_singleton.mp ((files_ofFile_sublist first).subset hfound)
    obtain rfl := List.mem_singleton.mp ((files_ofFile_sublist second).subset hother)
    exact ⟨names, _, _, [], [], rfl, rfl, Std.ne_of_lt hlt, .inr ⟨Iff.rfl, hlt⟩⟩

/-- The folders of a folder come before its files. -/
theorem comesBefore_of_inFolder_of_ofFile (hdistinct : entries.Distinct)
    {first second : String × Node} (hfirst : first ∈ byName entries.toList)
    (hsecond : second ∈ byName entries.toList) {found other : List String}
    (hfound : found ∈ (rules.inFolder names first).files)
    (hother : other ∈ (rules.ofFile names second).files) : ComesBefore found other := by
  obtain ⟨path, hpath, rfl⟩ := exists_of_mem_inFolder hdistinct hfirst hfound
  obtain ⟨name, child⟩ := first
  obtain ⟨name', child'⟩ := second
  obtain ⟨⟨below, rfl⟩, -⟩ := mem_files_inFolder.mp hfound
  obtain ⟨⟨content, rfl⟩, -, -, rfl⟩ := mem_files_ofFile.mp hother
  refine ⟨names, name, name', path, [], rfl, rfl, ?_, .inl ⟨hpath, rfl⟩⟩
  -- One name does not stand for a folder and for a file.
  rintro rfl
  have hfolder := hdistinct.get?_eq_some_iff.mpr (mem_byName.mp hfirst)
  rw [hdistinct.get?_eq_some_iff.mpr (mem_byName.mp hsecond)] at hfolder
  simp at hfolder

/-- **The order of a search.** What a search finds, also if it is cut short, is in the order of
paths. -/
theorem pairwise_comesBefore (hdistinct : node.Distinct) :
    (filesBelow rules names node).files.Pairwise ComesBefore := by
  induction node using Node.tree_induction generalizing names with
  | file content => exact List.Pairwise.nil
  | link target => exact List.Pairwise.nil
  | folder entries ih =>
    obtain ⟨fault, -, hfiles⟩ | ⟨-, hfiles⟩ := filesBelow_folder rules names entries
    · rw [hfiles]
      exact List.Pairwise.nil
    rw [hfiles]
    refine List.Pairwise.sublist (Listing.files_all_sublist _) ?_
    rw [List.flatMap_append, List.flatMap_map, List.flatMap_map, List.pairwise_append]
    refine ⟨pairwise_inFolder hdistinct fun entry hentry => ?_, pairwise_ofFile hdistinct, ?_⟩
    · have hmem := mem_byName.mp hentry
      exact ih entry hmem (Entries.Distinct.of_mem hdistinct hmem)
    · intro found hfound other hother
      obtain ⟨first, hfirst, hfound⟩ := List.mem_flatMap.mp hfound
      obtain ⟨second, hsecond, hother⟩ := List.mem_flatMap.mp hother
      exact comesBefore_of_inFolder_of_ofFile hdistinct hfirst hsecond hfound hother

/-- A search finds nothing twice. -/
theorem nodup_files (hdistinct : node.Distinct) : (filesBelow rules names node).files.Nodup :=
  (pairwise_comesBefore hdistinct).imp ComesBefore.ne

/-! ### Files of a workspace -/

variable {h : Host} {o : Options} {root : Path}

theorem pairwise_sourceFiles (hdistinct : h.tree.Distinct) :
    (sourceFiles h o root).files.Pairwise ComesBefore := by
  obtain ⟨fault, -, hfiles⟩ | ⟨ignores, -, hfiles⟩ := sourceFiles_cases h o root
  · rw [hfiles]
    exact List.Pairwise.nil
  rw [hfiles, search]
  split
  · exact List.Pairwise.nil
  · next entries hlist => exact pairwise_comesBefore (Host.list_distinct hdistinct hlist)

theorem nodup_sourceFiles (hform : h.tree.WellFormed) : (sourceFiles h o root).files.Nodup :=
  (pairwise_sourceFiles hform.distinct).imp ComesBefore.ne

/-- A path that goes on behind some names goes on from a folder. -/
theorem exists_folder_of_at? {top sub : Node} {front path : List String}
    (hat : top.at? path = some sub) (hfront : front <+: path) (hne : front ≠ path) :
    ∃ below, top.at? front = some (.folder below) := by
  obtain ⟨_ | ⟨name, rest⟩, rfl⟩ := hfront
  · simp at hne
  rw [Node.at?_append] at hat
  obtain ⟨node, hnode, hrest⟩ := Option.bind_eq_some_iff.mp hat
  cases node with
  | folder below => exact ⟨below, hnode⟩
  | file content => simp [Node.at?] at hrest
  | link target => simp [Node.at?] at hrest

/-- **The order of source files.** No folder of a snapshot holds a name twice, and nothing more is
needed: in whatever order the folders hold their entries, of any two files of a workspace the one
that the search lists first is the one whose path comes before the other. A path goes on behind the
names of folders and ends at the name of a file, so the first of them is the one in a folder if the
other is a file at the place where they part, and otherwise the one with the smaller name there. -/
theorem sourceFiles_inOrder :
    (∀ lines : List (List String), (lines.foldl Snapshot.add .empty).host.tree.Distinct) ∧
    ∀ (h : Host) (o : Options) (root : Path), h.tree.Distinct →
      let files := (sourceFiles h o root).files
      (∀ (i j : Nat) (hi : i < files.length) (hj : j < files.length),
        i < j ↔ ComesBefore files[i] files[j]) ∧
      ∀ path ∈ files, ∃ entries, h.list root = .ok entries ∧
        (∃ content, (Node.folder entries).at? path = some (.file content)) ∧
        ∀ front, front <+: path → front ≠ path →
          ∃ below, (Node.folder entries).at? front = some (.folder below) := by
  refine ⟨Snapshot.distinct_foldl_add, fun h o root hdistinct => ?_⟩
  refine ⟨fun i j => lt_iff_comesBefore (pairwise_sourceFiles hdistinct), fun path hmem => ?_⟩
  obtain ⟨fault, -, hfiles⟩ | ⟨ignores, -, hfiles⟩ := sourceFiles_cases h o root
  · simp [hfiles, Listing.failed] at hmem
  rw [hfiles] at hmem
  obtain ⟨entries, hlist, hmem⟩ := exists_of_mem_search hmem
  have htop : (Node.folder entries).Distinct := Host.list_distinct hdistinct hlist
  obtain ⟨path, rfl, ⟨content, hreaches⟩, -⟩ := finds_of_mem_files htop hmem
  have hat := hreaches.at?_eq
  refine ⟨entries, hlist, ⟨content, hat⟩, fun front hfront hne => ?_⟩
  exact exists_folder_of_at? hat hfront hne

/-- Lines in an order of their own, in which the tree keeps them. Among the names are a folder and a
file that share a beginning, a folder with a folder and a file of nearly the same name, and a
capital letter. -/
theorem sourceFiles_inOrder_mixed :
    let lines := [["file", "/b.ve", ""], ["file", "/c/d.ve", ""], ["file", "/a/z.ve", ""],
      ["file", "/Z.ve", ""], ["link", "/l.ve", "b.ve"], ["file", "/c/d/x.ve", ""],
      ["file", "/a.ve", ""]]
    let host := (lines.foldl Snapshot.add .empty).host
    let files := (sourceFiles host {} ⟨.top, []⟩).files
    files = [["a", "z.ve"], ["c", "d", "x.ve"], ["c", "d.ve"], ["Z.ve"], ["a.ve"], ["b.ve"]] ∧
      host.tree.Distinct ∧
      ∀ (i j : Nat) (hi : i < files.length) (hj : j < files.length),
        i < j ↔ ComesBefore files[i] files[j] := by
  intro lines host files
  have hdistinct : host.tree.Distinct := sourceFiles_inOrder.1 lines
  exact ⟨by decide +kernel, hdistinct, (sourceFiles_inOrder.2 host {} ⟨.top, []⟩ hdistinct).1⟩

end VeLens.Workspace
