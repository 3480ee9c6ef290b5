import Mathlib.Data.List.Basic
import VeLens.FileTree.Node

/-!
# Well-formed trees

In the tree of a host every entry has a name that can be written in a path, and no two entries of a
folder share a name. The entries stand in no particular order. Sorting them by name puts them into
the one order in which the names rise.

## Main definitions

* `IsName`: a text that can be the name of an entry.
* `Node.WellFormed`: a tree in which all names are such texts and no folder has a name twice.
* `Node.Distinct`: a tree in which no folder has a name twice, whatever the names.

## Main results

* `byName_perm`, `pairwise_byName`, `map_byName`: sorting by name.
* `Node.tree_induction`: what holds of a folder if it holds of all its entries holds of every tree.
* `Entries.Distinct.get?_eq_some_iff`: looking up a name finds exactly the entries of a folder.
* `Entries.Distinct.pairwise_byName`: the names of a sorted folder rise.
* `Node.WellFormed.of_at?`: what is found in a well-formed tree is well-formed.
-/

namespace VeLens

/-! ### Sorting by name -/

section Sorting

variable {α β : Type} {entry : String × α} {entries : List (String × α)}

theorem insertByName_perm (entry : String × α) (entries : List (String × α)) :
    (insertByName entry entries).Perm (entry :: entries) := by
  fun_induction insertByName entry entries with
  | case1 => exact .refl _
  | case2 next rest hle => exact .refl _
  | case3 next rest hle ih => exact (ih.cons next).trans (.swap entry next rest)

/-- Sorting by name loses nothing and adds nothing. -/
theorem byName_perm (entries : List (String × α)) : (byName entries).Perm entries := by
  induction entries with
  | nil => exact .refl _
  | cons entry entries ih => exact (insertByName_perm entry _).trans (ih.cons entry)

@[simp]
theorem mem_byName : entry ∈ byName entries ↔ entry ∈ entries := (byName_perm entries).mem_iff

theorem pairwise_insertByName
    (hentries : entries.Pairwise fun first second => first.1 ≤ second.1) :
    (insertByName entry entries).Pairwise fun first second => first.1 ≤ second.1 := by
  fun_induction insertByName entry entries with
  | case1 => exact List.pairwise_singleton _ _
  | case2 next rest hle =>
    refine List.pairwise_cons.mpr ⟨fun other hother => ?_, hentries⟩
    rcases List.mem_cons.mp hother with rfl | hother
    · exact hle
    · exact String.le_trans hle (List.rel_of_pairwise_cons hentries hother)
  | case3 next rest hle ih =>
    obtain ⟨hfirst, hrest⟩ := List.pairwise_cons.mp hentries
    refine List.pairwise_cons.mpr ⟨fun other hother => ?_, ih hrest⟩
    rcases List.mem_cons.mp ((insertByName_perm _ _).mem_iff.mp hother) with rfl | hother
    · exact (String.le_total _ _).resolve_left hle
    · exact hfirst other hother

/-- **Sorting by name.** No name comes after a greater one. -/
theorem pairwise_byName (entries : List (String × α)) :
    (byName entries).Pairwise fun first second => first.1 ≤ second.1 := by
  induction entries with
  | nil => exact List.Pairwise.nil
  | cons entry entries ih => exact pairwise_insertByName ih

/-- Named things that are different are sorted into rising names. -/
theorem pairwise_lt_byName (hnames : (entries.map Prod.fst).Nodup) :
    (byName entries).Pairwise fun first second => first.1 < second.1 := by
  have hnodup : ((byName entries).map Prod.fst).Nodup :=
    ((byName_perm entries).map Prod.fst).nodup_iff.mpr hnames
  refine (pairwise_byName entries).imp₂ (fun _ _ hle hne => ?_) (List.pairwise_map.mp hnodup)
  exact Std.lt_of_le_of_ne hle hne

/-- There is one order in which names do not fall. -/
theorem map_fst_byName_eq {names : List String} (hnames : names.Pairwise (· ≤ ·))
    (hperm : names.Perm (entries.map Prod.fst)) : (byName entries).map Prod.fst = names := by
  have hsorted : ((byName entries).map Prod.fst).Perm names :=
    ((byName_perm entries).map Prod.fst).trans hperm.symm
  refine hsorted.eq_of_pairwise (fun _ _ _ _ => String.le_antisymm) ?_ hnames
  exact List.pairwise_map.mpr (pairwise_byName entries)

theorem map_insertByName (f : String × α → β) (entry : String × α) (entries : List (String × α)) :
    insertByName (entry.1, f entry) (entries.map fun e => (e.1, f e)) =
      (insertByName entry entries).map fun e => (e.1, f e) := by
  fun_induction insertByName entry entries with
  | case1 => rfl
  | case2 next rest hle => simp [insertByName, hle]
  | case3 next rest hle ih => simp [insertByName, hle, ih]

/-- Things that keep their names can be sorted before or after they are made. -/
theorem map_byName (f : String × α → β) (entries : List (String × α)) :
    byName (entries.map fun e => (e.1, f e)) = (byName entries).map fun e => (e.1, f e) := by
  induction entries with
  | nil => rfl
  | cons entry entries ih =>
    change insertByName (entry.1, f entry) (byName (entries.map fun e => (e.1, f e))) = _
    rw [ih, map_insertByName]
    rfl

end Sorting

/-! ### Names -/

/-- The text can be the name of an entry of a folder. -/
structure IsName (name : String) : Prop where
  ne_empty : name ≠ ""
  ne_dot : name ≠ "."
  ne_dots : name ≠ ".."
  no_slash : '/' ∉ name.toList
  no_null : Char.ofNat 0 ∉ name.toList

instance (name : String) : Decidable (IsName name) :=
  decidable_of_iff (name ≠ "" ∧ name ≠ "." ∧ name ≠ ".." ∧ '/' ∉ name.toList ∧
      Char.ofNat 0 ∉ name.toList)
    ⟨fun h => ⟨h.1, h.2.1, h.2.2.1, h.2.2.2.1, h.2.2.2.2⟩, fun h =>
      ⟨h.ne_empty, h.ne_dot, h.ne_dots, h.no_slash, h.no_null⟩⟩

mutual

/-- All entries have names, and no folder holds a name twice. -/
def Node.WellFormed : Node → Prop
  | .folder entries => entries.WellFormed
  | .file _ | .link _ => True

/-- The entries have different names, and what they hold is well-formed. -/
def Entries.WellFormed : Entries → Prop
  | .nil => True
  | .cons name node rest =>
    IsName name ∧ (∀ entry ∈ rest.toList, name ≠ entry.1) ∧ node.WellFormed ∧ rest.WellFormed

end

mutual

/-- Whether a tree is well-formed can be checked. -/
def Node.decideWellFormed : (node : Node) → Decidable node.WellFormed
  | .folder entries => entries.decideWellFormed
  | .file _ | .link _ => .isTrue trivial

/-- Whether entries are well-formed can be checked. -/
def Entries.decideWellFormed : (entries : Entries) → Decidable entries.WellFormed
  | .nil => .isTrue trivial
  | .cons _ node rest =>
    have := node.decideWellFormed
    have := rest.decideWellFormed
    inferInstanceAs (Decidable (_ ∧ _ ∧ _ ∧ _))

end

instance (node : Node) : Decidable node.WellFormed := node.decideWellFormed

instance (entries : Entries) : Decidable entries.WellFormed := entries.decideWellFormed

/-! ### Folders without double names -/

mutual

/-- No folder holds a name twice. -/
def Node.Distinct : Node → Prop
  | .folder entries => entries.Distinct
  | .file _ | .link _ => True

/-- The names of the entries are different, and so are those in the folders among them. -/
def Entries.Distinct : Entries → Prop
  | .nil => True
  | .cons name node rest =>
    (∀ entry ∈ rest.toList, name ≠ entry.1) ∧ node.Distinct ∧ rest.Distinct

end

mutual

theorem Node.WellFormed.distinct : {node : Node} → node.WellFormed → node.Distinct
  | .folder _, hentries => Entries.WellFormed.distinct hentries
  | .file _, _ | .link _, _ => trivial

theorem Entries.WellFormed.distinct :
    {entries : Entries} → entries.WellFormed → entries.Distinct
  | .nil, _ => trivial
  | .cons _ _ _, ⟨_, hfirst, hnode, hrest⟩ => ⟨hfirst, hnode.distinct, hrest.distinct⟩

end

/-! ### Entries of a folder -/

/-- What holds of files and links, and of a folder if it holds of all that is in it, holds of every
tree. -/
@[elab_as_elim]
theorem Node.tree_induction {P : Node → Prop} (file : ∀ content, P (.file content))
    (link : ∀ target, P (.link target))
    (folder : ∀ entries : Entries, (∀ entry ∈ entries.toList, P entry.2) → P (.folder entries))
    (node : Node) : P node :=
  @Node.rec P (fun entries => ∀ entry ∈ entries.toList, P entry.2) file link folder
    (fun entry hmem => absurd hmem List.not_mem_nil)
    (fun _ _ _ hnode hrest entry hmem => by
      rcases List.mem_cons.mp hmem with rfl | hmem
      · exact hnode
      · exact hrest entry hmem)
    node

namespace Entries

variable {entries : Entries} {name : String} {node : Node}

theorem mem_toList_of_get? (h : entries.get? name = some node) : (name, node) ∈ entries.toList := by
  fun_induction get? name entries with
  | case1 => simp at h
  | case2 old rest =>
    rw [Option.some_inj] at h
    rw [toList, h]
    exact List.mem_cons_self
  | case3 n old rest _ ih =>
    rw [toList]
    exact List.mem_cons_of_mem _ (ih h)

/-- In a folder without double names a name is found exactly where it stands. -/
theorem Distinct.get?_eq_some_iff (hdistinct : entries.Distinct) :
    entries.get? name = some node ↔ (name, node) ∈ entries.toList := by
  refine ⟨mem_toList_of_get?, fun hmem => ?_⟩
  fun_induction get? name entries with
  | case1 => simp [toList] at hmem
  | case2 old rest =>
    obtain ⟨hfirst, -⟩ := hdistinct
    rcases List.mem_cons.mp hmem with heq | hmem
    · rw [(Prod.mk.inj heq).2]
    · exact absurd rfl (hfirst _ hmem)
  | case3 n old rest hne ih =>
    obtain ⟨-, -, hrest⟩ := hdistinct
    rcases List.mem_cons.mp hmem with heq | hmem
    · exact absurd (Prod.mk.inj heq).1.symm hne
    · exact ih hrest hmem

theorem Distinct.of_mem (hdistinct : entries.Distinct) (hmem : (name, node) ∈ entries.toList) :
    node.Distinct := by
  fun_induction toList entries with
  | case1 => simp at hmem
  | case2 n child rest ih =>
    obtain ⟨-, hchild, hrest⟩ := hdistinct
    rcases List.mem_cons.mp hmem with heq | hmem
    · obtain ⟨rfl, rfl⟩ := Prod.mk.inj heq
      exact hchild
    · exact ih hrest hmem

/-- No two entries share a name. -/
theorem Distinct.nodup_names (hdistinct : entries.Distinct) :
    (entries.toList.map Prod.fst).Nodup := by
  fun_induction toList entries with
  | case1 => exact List.nodup_nil
  | case2 n child rest ih =>
    obtain ⟨hfirst, -, hrest⟩ := hdistinct
    refine List.nodup_cons.mpr ⟨fun hmem => ?_, ih hrest⟩
    obtain ⟨entry, hentry, heq⟩ := List.mem_map.mp hmem
    exact hfirst entry hentry heq.symm

/-- The names of the entries of a folder, once sorted, rise. -/
theorem Distinct.pairwise_byName (hdistinct : entries.Distinct) :
    (byName entries.toList).Pairwise fun first second => first.1 < second.1 :=
  pairwise_lt_byName hdistinct.nodup_names

theorem WellFormed.of_mem (hform : entries.WellFormed) (hmem : (name, node) ∈ entries.toList) :
    IsName name ∧ node.WellFormed := by
  fun_induction toList entries with
  | case1 => simp at hmem
  | case2 n child rest ih =>
    obtain ⟨hname, -, hchild, hrest⟩ := hform
    rcases List.mem_cons.mp hmem with heq | hmem
    · obtain ⟨rfl, rfl⟩ := Prod.mk.inj heq
      exact ⟨hname, hchild⟩
    · exact ih hrest hmem

end Entries

namespace Node

theorem at?_append (node : Node) (names more : List String) :
    node.at? (names ++ more) = (node.at? names).bind fun sub => sub.at? more := by
  fun_induction at? node names with
  | case1 => rfl
  | case2 name names entries ih =>
    rw [List.cons_append, at?, Option.bind_assoc]
    exact congrArg _ (funext ih)
  | case3 name names node hfolder =>
    rw [List.cons_append, at?, Option.bind_none]
    exact hfolder

/-- What is found in a well-formed tree is well-formed, and the names that lead there are names. -/
theorem WellFormed.of_at? {node sub : Node} {names : List String} (hform : node.WellFormed)
    (hat : node.at? names = some sub) : (∀ name ∈ names, IsName name) ∧ sub.WellFormed := by
  fun_induction at? node names with
  | case1 => simp_all
  | case2 name names entries ih =>
    obtain ⟨child, hget, hsub⟩ := Option.bind_eq_some_iff.mp hat
    obtain ⟨hname, hchild⟩ :=
      Entries.WellFormed.of_mem hform (Entries.mem_toList_of_get? hget)
    obtain ⟨hnames, hsub⟩ := ih child hchild hsub
    exact ⟨List.forall_mem_cons.mpr ⟨hname, hnames⟩, hsub⟩
  | case3 => simp at hat

/-- What is found in a tree without double names has none either. -/
theorem Distinct.of_at? {node sub : Node} {names : List String} (hdistinct : node.Distinct)
    (hat : node.at? names = some sub) : sub.Distinct := by
  fun_induction at? node names with
  | case1 => simp_all
  | case2 name names entries ih =>
    obtain ⟨child, hget, hsub⟩ := Option.bind_eq_some_iff.mp hat
    exact ih child (Entries.Distinct.of_mem hdistinct (Entries.mem_toList_of_get? hget)) hsub
  | case3 => simp at hat

end Node

end VeLens
