import VeLens.FileTree.Snapshot
import VeLens.Proofs.FileTree.Trees

/-!
# Trees of snapshots

A snapshot lists its files, folders and links in any order, and a name that comes again takes the
place of the earlier one. So no folder of a snapshot holds a name twice.

## Main results

* `Entries.Distinct.put`, `Node.Distinct.put`: an entry is added or takes the place of another.
* `Snapshot.distinct_foldl_add`: no folder of a snapshot holds a name twice.
-/

namespace VeLens

/-! ### Putting an entry -/

namespace Entries

variable {entries : Entries} {name : String} {node : Node}

theorem eq_or_mem_of_mem_put {entry : String × Node}
    (hmem : entry ∈ (entries.put name node).toList) :
    entry = (name, node) ∨ entry ∈ entries.toList := by
  fun_induction put name node entries with
  | case1 => simpa [toList] using hmem
  | case2 old rest =>
    rcases List.mem_cons.mp hmem with heq | hmem
    · exact .inl heq
    · exact .inr (List.mem_cons_of_mem _ hmem)
  | case3 n old rest hne ih =>
    rcases List.mem_cons.mp hmem with heq | hmem
    · exact .inr (List.mem_cons.mpr (.inl heq))
    · exact (ih hmem).imp_right (List.mem_cons_of_mem _)

/-- An entry that is put into a folder is the only one of its name there. -/
theorem Distinct.put (hdistinct : entries.Distinct) (hnode : node.Distinct) :
    (entries.put name node).Distinct := by
  fun_induction Entries.put name node entries with
  | case1 => exact ⟨fun _ hmem => absurd hmem List.not_mem_nil, hnode, trivial⟩
  | case2 old rest =>
    obtain ⟨hfirst, -, hrest⟩ := hdistinct
    exact ⟨hfirst, hnode, hrest⟩
  | case3 n old rest hne ih =>
    obtain ⟨hfirst, hold, hrest⟩ := hdistinct
    refine ⟨fun entry hmem => ?_, hold, ih hrest⟩
    rcases eq_or_mem_of_mem_put hmem with rfl | hmem
    · exact hne
    · exact hfirst entry hmem

end Entries

namespace Node

theorem Distinct.entries {node : Node} (hdistinct : node.Distinct) : node.entries.Distinct := by
  cases node with
  | folder entries => exact hdistinct
  | file content => trivial
  | link target => trivial

theorem distinct_empty : Node.empty.Distinct := trivial

/-- A tree without double names remains so if something is put at the end of some names. -/
theorem Distinct.put {new : Node} (hnew : new.Distinct) (names : List String) {node : Node}
    (hdistinct : node.Distinct) : (new.put names node).Distinct := by
  induction names generalizing node with
  | nil => exact hnew
  | cons name names ih =>
    refine hdistinct.entries.put (ih ?_)
    cases hget : node.entries.get? name with
    | none => exact distinct_empty
    | some child => exact hdistinct.entries.of_mem (Entries.mem_toList_of_get? hget)

end Node

/-! ### Lines of a snapshot -/

namespace Snapshot

/-- No line of a snapshot makes a name come twice. -/
theorem distinct_add {s : Snapshot} (hdistinct : s.host.tree.Distinct) (parts : List String) :
    (s.add parts).host.tree.Distinct := by
  have hput (new : Node) (hnew : new.Distinct) (names : List String) :
      (new.put names s.host.tree).Distinct := hnew.put names hdistinct
  fun_cases add s parts with
  | case1 path =>
    rw [Host.makeFolder]
    split
    · exact hdistinct
    · exact hput .empty Node.distinct_empty _
  | case2 path digits content hcontent => exact hput (.file content) trivial _
  | case3 path digits hcontent => exact hdistinct
  | case4 path target => exact hput (.link target) trivial _
  | case5 path => exact hdistinct
  | case6 path => exact hdistinct
  | case7 name path => exact hdistinct
  | case8 time => exact hdistinct
  | case9 => exact hdistinct

/-- **Folders of a snapshot.** Whatever lines a snapshot has and in whatever order they come, none
of its folders holds a name twice. -/
theorem distinct_foldl_add (lines : List (List String)) :
    (lines.foldl add empty).host.tree.Distinct := by
  suffices ∀ s : Snapshot, s.host.tree.Distinct → (lines.foldl add s).host.tree.Distinct from
    this empty Node.distinct_empty
  induction lines with
  | nil => exact fun s hdistinct => hdistinct
  | cons parts lines ih => exact fun s hdistinct => ih (s.add parts) (distinct_add hdistinct parts)

end Snapshot

end VeLens
