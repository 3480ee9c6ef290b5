import VeLens.Proofs.Catalog.Names
import VeLens.Proofs.FileTree.Resolving

/-!
# The open file

The file that is open is not offered to itself. It is known by the place that its path leads to, and
the files of the workspace by their names below the root. Both come to the same, since there are no
links between the root and a file of the workspace.

## Main results

* `resolve_sourceFile`: the place of a file of the workspace.
* `localModules_without_openFile`: an open file takes its own module away, and no other.
-/

namespace VeLens.Catalog

open Text Workspace

variable {h : Host} {o : Options} {root place base : Path}
  {path : List String}

/-- A file of the workspace has its place below that of the root. -/
theorem resolve_sourceFile (hform : h.tree.WellFormed) (hreach : h.LinksInReach)
    (habsolute : root.isAbsolute = true) (hmem : path ∈ (sourceFiles h o root).files) :
    ∃ base, h.resolve root = .ok base ∧
      h.resolve ⟨root.anchor, root.names ++ path⟩ = .ok ⟨base.anchor, base.names ++ path⟩ := by
  obtain ⟨entries, content, hlist, hat, -⟩ := exists_of_mem_sourceFiles hform hmem
  obtain ⟨base, hroot, hbelow⟩ := Host.resolve_of_list hform hreach habsolute hlist
  exact ⟨base, hroot, hbelow path (.file content) hat (by simp)⟩

theorem excludedModule_of_resolve {e : String} (habsolute : (Path.parse e).isAbsolute = true)
    (hopen : h.resolve (Path.parse e) = .ok place) (hroot : h.resolve root = .ok base)
    (suffix : String) :
    excludedModule h root (some e) suffix = .ok ((place.relativeTo? base).map fun names =>
      ModuleName.relative suffix.toList (Path.render ⟨.here, names⟩).toList) := by
  simp only [excludedModule, Option.map_some, habsolute, if_true, hopen, hroot, bind, Except.bind]
  cases place.relativeTo? base <;> rfl

/-- A file of the workspace that is left out leaves the others in their order. -/
theorem exists_offered_sourceFile (hform : h.tree.WellFormed) (hsuffix : o.suffix ≠ "")
    (hslash : ∀ path ∈ (sourceFiles h o root).files, '\\' ∉ (Path.slashed path).toList)
    (hmem : path ∈ (sourceFiles h o root).files) :
    ∃ before after, (sourceFiles h o root).files = before ++ path :: after ∧
      offered o.suffix (some (ModuleName.relative o.suffix.toList (Path.slashed path).toList))
        (sourceFiles h o root).files = before ++ after := by
  obtain ⟨before, after, -, hsplit, herase⟩ := List.exists_erase_eq hmem
  refine ⟨before, after, hsplit, ?_⟩
  rw [← herase, (nodup_sourceFiles hform).erase_eq_filter, offered]
  refine List.filter_congr fun more hmore => ?_
  have hinj : ModuleName.relative o.suffix.toList (Path.slashed more).toList =
      ModuleName.relative o.suffix.toList (Path.slashed path).toList ↔ more = path := by
    refine ⟨fun heq => localModule_inj hform hsuffix hslash hmore hmem ?_, fun heq => heq ▸ rfl⟩
    simp [localModule, ModuleName.ofPath, heq]
  rw [Bool.eq_iff_iff]
  simp [hinj]

/-- **The open file takes its own module away, and no other.** Let the path of the open file be
absolute, and let no file of the workspace have a backslash in its path. If the open file resolves
to the place of a file of the workspace, then the modules are those without an open file, but for
the one of that file, which occurs once. If it resolves to a place that is not below that of the
root, then nothing changes. The place of a file, which is its path below the place of the root, is
what the file itself resolves to. -/
theorem localModules_without_openFile (h : Host) (o : Options) (root place : Path)
    (openFile : String) (locals : List Module) (hform : h.tree.WellFormed)
    (hsuffix : o.suffix ≠ "")
    (hslash : ∀ path ∈ (sourceFiles h o root).files, '\\' ∉ (Path.slashed path).toList)
    (hok : (localModules h (some root) none o).outcome = .ok locals)
    (habsolute : (Path.parse openFile).isAbsolute = true)
    (hopen : h.resolve (Path.parse openFile) = .ok place) :
    (∀ base, h.resolve root = .ok base →
      (∀ path ∈ (sourceFiles h o root).files, place = ⟨base.anchor, base.names ++ path⟩ →
        ∃ before after, locals = before ++ localModule o.suffix path :: after ∧
          (∀ m ∈ before ++ after, m.name ≠ (localModule o.suffix path).name) ∧
          localModules h (some root) (some openFile) o =
            ⟨(localModules h (some root) none o).events, .ok (before ++ after)⟩) ∧
      ((∀ names, place ≠ ⟨base.anchor, base.names ++ names⟩) →
        localModules h (some root) (some openFile) o = localModules h (some root) none o)) ∧
    (root.isAbsolute = true → h.LinksInReach → ∀ path ∈ (sourceFiles h o root).files,
      ∃ base, h.resolve root = .ok base ∧
        h.resolve ⟨root.anchor, root.names ++ path⟩ = .ok ⟨base.anchor, base.names ++ path⟩) := by
  obtain ⟨excluded, hnone, hfile, rfl⟩ := localModules_eq_ok_iff.mp hok
  obtain rfl : none = excluded := Except.ok.inj hnone
  rw [localModules_of_excludedModule hnone hfile, offered_none]
  refine ⟨fun base hbase => ?_, fun hroot hreach path => resolve_sourceFile hform hreach hroot⟩
  have hexcluded := excludedModule_of_resolve habsolute hopen hbase o.suffix
  constructor
  · intro path hmem hplace
    have hne : path ≠ [] := by
      obtain ⟨-, -, -, -, name, hlast, -⟩ := exists_of_mem_sourceFiles hform hmem
      rintro rfl
      simp at hlast
    -- What is left of the place below that of the root is the path of the file again.
    rw [Path.relativeTo?_eq_some_iff.mpr hplace, Option.map_some, Path.render, if_neg hne]
      at hexcluded
    obtain ⟨before, after, hsplit, hoffered⟩ :=
      exists_offered_sourceFile hform hsuffix hslash hmem
    refine ⟨before.map (localModule o.suffix), after.map (localModule o.suffix), ?_, ?_, ?_⟩
    · rw [hsplit, List.map_append, List.map_cons]
    · intro m hm heq
      rw [← List.map_append, ← hoffered] at hm
      obtain ⟨more, hmore, rfl⟩ := List.mem_map.mp hm
      have hkept := of_decide_eq_true (List.mem_filter.mp hmore).2
      rw [localModule, localModule, String.ofList_inj, ModuleName.ofPath, ModuleName.ofPath] at heq
      exact hkept (congrArg some (List.cons.inj (List.cons.inj heq).2).2)
    · rw [localModules_of_excludedModule hexcluded hfile, hoffered, List.map_append]
  · intro houtside
    have hnot : place.relativeTo? base = none :=
      Option.eq_none_iff_forall_ne_some.mpr fun names hnames =>
        houtside names (Path.relativeTo?_eq_some_iff.mp hnames)
    rw [hnot, Option.map_none] at hexcluded
    rw [localModules_of_excludedModule hexcluded hfile, offered_none]

/-- A workspace behind a link, and an open file that is reached through the link and out of it
again. Another one lies beside the workspace. -/
theorem localModules_without_openFile_link :
    let workspace : Entries :=
      .cons "a.ve" (.file []) (.cons "b" (.folder (.cons "c.ve" (.file []) .nil)) .nil)
    let host : Host :=
      ⟨.folder (.cons "l" (.link "r/w") (.cons "r" (.folder (.cons "w" (.folder workspace) .nil))
        .nil)), [], "", []⟩
    let b : Module := ⟨"./b/c", "Local module: b/c"⟩
    let a : Module := ⟨"./a", "Local module: a"⟩
    (localModules host (some ⟨.top, ["l"]⟩) none {}).outcome = .ok [b, a] ∧
      (∃ before after, [b, a] = before ++ b :: after ∧
        (localModules host (some ⟨.top, ["l"]⟩) (some "/l/../w/b/c.ve") {}).outcome =
          .ok (before ++ after)) ∧
      localModules host (some ⟨.top, ["l"]⟩) (some "/l/../a.ve") {} =
        localModules host (some ⟨.top, ["l"]⟩) none {} ∧
      ∃ base, host.resolve ⟨.top, ["l"]⟩ = .ok base ∧
        host.resolve ⟨.top, ["l", "b", "c.ve"]⟩ =
          .ok ⟨base.anchor, base.names ++ ["b", "c.ve"]⟩ := by
  intro workspace host b a
  have hok : (localModules host (some ⟨.top, ["l"]⟩) none {}).outcome = .ok [b, a] :=
    Report.outcome_eq_ok (by decide +kernel)
  have hbase : host.resolve ⟨.top, ["l"]⟩ = .ok ⟨.top, ["r", "w"]⟩ := by decide +kernel
  have hmem : ["b", "c.ve"] ∈ (sourceFiles host {} ⟨.top, ["l"]⟩).files := by decide +kernel
  obtain ⟨hinside, hplaces⟩ := localModules_without_openFile host {} ⟨.top, ["l"]⟩
    ⟨.top, ["r", "w", "b", "c.ve"]⟩ "/l/../w/b/c.ve" [b, a] (by decide +kernel) (by decide)
    (by decide +kernel) hok (by decide +kernel) (by decide +kernel)
  obtain ⟨houtside, -⟩ := localModules_without_openFile host {} ⟨.top, ["l"]⟩
    ⟨.top, ["r", "a.ve"]⟩ "/l/../a.ve" [b, a] (by decide +kernel) (by decide)
    (by decide +kernel) hok (by decide +kernel) (by decide +kernel)
  obtain ⟨before, after, hlocals, -, hreport⟩ := (hinside _ hbase).1 _ hmem rfl
  exact ⟨hok, ⟨before, after, hlocals, congrArg Report.outcome hreport⟩,
    (houtside _ hbase).2 (by simp), hplaces rfl (by decide +kernel) _ hmem⟩

end VeLens.Catalog
