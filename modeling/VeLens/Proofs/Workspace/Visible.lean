import VeLens.Proofs.Workspace.Order
import VeLens.Proofs.Workspace.Within

/-!
# Visible files

What a search of a workspace finds, said without the search: a file is visible if neither it nor a
folder on the way to it is a link, is ignored, or matches an exclude pattern. A search finds each
visible source file once and nothing else, provided that the folders it comes to can be listed.

## Main definitions

* `IsVisible`: nothing on the way to an entry is a link or hidden.
* `IsVisibleSource`: a visible source file.
* `IsListable`: a folder that is not nested too deep, and whose entries can be told apart.

## Main results

* `search_iff_visibleSource`: what a search finds, and when it is complete.
-/

namespace VeLens.Workspace

open Pattern

/-- The entry at the end of a path and the folders on the way to it are no links, are not ignored,
and match no exclude pattern. -/
structure IsVisible (top : Node) (exclude : List String) (isIgnored : List String → Bool)
    (path : List String) : Prop where
  no_link : ∀ front, front <+: path → front ≠ [] → ∀ target, top.at? front ≠ some (.link target)
  not_ignored : ∀ front, front <+: path → front ≠ [] → isIgnored front = false
  not_excluded : ∀ front, front <+: path → front ≠ [] →
    ∀ pattern ∈ exclude, Glob.covers pattern (Path.slashed front) = false

/-- The path leads to a visible file whose name ends in the source suffix. -/
structure IsVisibleSource (top : Node) (o : Options) (isIgnored : List String → Bool)
    (path : List String) : Prop where
  is_file : ∃ content, top.at? path = some (.file content)
  has_suffix : ∃ name, path.getLast? = some name ∧ o.suffix.toList <:+ name.toList
  visible : IsVisible top o.exclude isIgnored path

/-- The folder at the end of a path below a root can be listed: it is not nested too deep, and of
each of its entries it is known whether it is a folder. -/
structure IsListable (h : Host) (root : Path) (path : List String) (entries : Entries) : Prop where
  not_deep : path.length < nestingLimit
  known : ∀ entry ∈ entries.toList,
    ∃ answer, h.isFolder ⟨root.anchor, root.names ++ path ++ [entry.1]⟩ = .ok answer

theorem obstacle_eq_none_iff_isListable {h : Host} {o : Options} {root : Path}
    {isIgnored : List String → Except Fault Bool} {path : List String} {entries : Entries} :
    (o.rules h root isIgnored).obstacle path entries = none ↔ IsListable h root path entries := by
  change obstacle h root path ((byName entries.toList).map Prod.fst) = none ↔ _
  rw [obstacle_eq_none_iff]
  simp only [List.forall_mem_map, mem_byName]
  exact ⟨fun h => ⟨h.1, h.2⟩, fun h => ⟨h.not_deep, h.known⟩⟩

/-- If it is known of every path whether it is ignored, then it is known whether it is hidden. -/
theorem isHidden_total (isIgnored : List String → Bool) (exclude path : List String) :
    isHidden (fun names => .ok (isIgnored names)) exclude path =
      .ok (isIgnored path ||
        exclude.any fun pattern => Glob.covers pattern (Path.slashed path)) := by
  rw [isHidden]
  cases isIgnored path <;> rfl

/-- No link stands on the way to an entry. -/
theorem at?_front_ne_link {top sub : Node} {path front : List String} {target : String}
    (hat : top.at? path = some sub) (hsub : ∀ target, sub ≠ .link target)
    (hfront : front <+: path) :
    top.at? front ≠ some (.link target) := by
  intro hlink
  obtain ⟨rest, rfl⟩ := hfront
  rw [Node.at?_append, hlink, Option.bind_some] at hat
  obtain _ | ⟨name, rest⟩ := rest
  · exact hsub target (Option.some_inj.mp hat).symm
  · simp [Node.at?] at hat

section Total

variable {h : Host} {o : Options} {root : Path} {isIgnored : List String → Bool} {top sub : Node}
  {path : List String}

theorem reaches_iff_visible (hsub : ∀ target, sub ≠ .link target) :
    (o.rules h root fun names => .ok (isIgnored names)).Reaches [] top path sub ↔
      top.at? path = some sub ∧ IsVisible top o.exclude isIgnored path := by
  have hshown : ∀ front, (o.rules h root fun names => .ok (isIgnored names)).isHidden front =
      .ok false ↔ isIgnored front = false ∧
        ∀ pattern ∈ o.exclude, Glob.covers pattern (Path.slashed front) = false := by
    intro front
    simp [Options.rules, isHidden_total]
  constructor
  · rintro ⟨hat, hall⟩
    simp only [List.nil_append, hshown] at hall
    exact ⟨hat, fun front hfront _ target => at?_front_ne_link hat hsub hfront,
      fun front hfront hne => (hall front hfront hne).1,
      fun front hfront hne => (hall front hfront hne).2⟩
  · rintro ⟨hat, hvisible⟩
    refine ⟨hat, fun front hfront hne => ?_⟩
    rw [List.nil_append, hshown]
    exact ⟨hvisible.not_ignored front hfront hne, hvisible.not_excluded front hfront hne⟩

theorem finds_iff_visibleSource :
    (o.rules h root fun names => .ok (isIgnored names)).Finds [] top path ↔
      IsVisibleSource top o isIgnored path := by
  have hsource : ∀ name : String,
      (o.rules h root fun names => .ok (isIgnored names)).isSource name = true ↔
        o.suffix.toList <:+ name.toList := fun name => Text.endsWith_iff
  constructor
  · rintro ⟨⟨content, hreaches⟩, name, hlast, hname⟩
    obtain ⟨hat, hvisible⟩ := (reaches_iff_visible (by simp)).mp hreaches
    exact ⟨⟨content, hat⟩, ⟨name, hlast, (hsource name).mp hname⟩, hvisible⟩
  · rintro ⟨⟨content, hat⟩, ⟨name, hlast, hname⟩, hvisible⟩
    exact ⟨⟨content, (reaches_iff_visible (by simp)).mpr ⟨hat, hvisible⟩⟩, name, hlast,
      (hsource name).mpr hname⟩

/-- If it is known what is ignored, only folders that cannot be listed cut a search short. -/
theorem fails_iff_not_listable :
    (∃ fault, (o.rules h root fun names => .ok (isIgnored names)).Fails [] top fault) ↔
      ∃ path entries, IsVisible top o.exclude isIgnored path ∧
        top.at? path = some (.folder entries) ∧ ¬ IsListable h root path entries := by
  constructor
  · rintro ⟨fault, path, entries, hreaches, hobstacle | ⟨entry, -, -, hasked⟩⟩
    · obtain ⟨hat, hvisible⟩ := (reaches_iff_visible (by simp)).mp hreaches
      refine ⟨path, entries, hvisible, hat, fun hlistable => ?_⟩
      rw [List.nil_append, obstacle_eq_none_iff_isListable.mpr hlistable] at hobstacle
      simp at hobstacle
    · simp [Options.rules, isHidden_total] at hasked
  · rintro ⟨path, entries, hvisible, hat, hlistable⟩
    obtain ⟨fault, hfault⟩ :=
      Option.ne_none_iff_exists'.mp (mt obstacle_eq_none_iff_isListable.mp hlistable)
    exact ⟨fault, path, entries, (reaches_iff_visible (by simp)).mpr ⟨hat, hvisible⟩, .inl hfault⟩

end Total

/-- **What a search finds.** Let the root of a workspace be a folder, and let it be known of every
path whether it is ignored. The search is complete exactly if all folders that it comes to can be
listed, and then it finds the visible source files and nothing else. It never finds a file twice,
and even if it is cut short, it finds visible source files only. A workspace is searched in this
manner with what its ignore files say. If the root is absolute and all links are within reach, it
would make no difference if the search also hid whatever lies outside the root. -/
theorem search_iff_visibleSource (h : Host) (o : Options) (root : Path) (entries : Entries)
    (ignored : List String → Bool) (hform : h.tree.WellFormed) (hlist : h.list root = .ok entries) :
    let top := Node.folder entries
    let listing := search h o root fun path => .ok (ignored path)
    (listing.fault = none ↔
        ∀ path below, IsVisible top o.exclude ignored path → top.at? path = some (.folder below) →
          IsListable h root path below) ∧
      (listing.fault = none →
        ∀ path, path ∈ listing.files ↔ IsVisibleSource top o ignored path) ∧
      listing.files.Nodup ∧
      (∀ path ∈ listing.files, IsVisibleSource top o ignored path) ∧
      (∀ ignores, o.ignoreFiles h root = .ok ignores →
        (∀ path, isIgnored ignores path = .ok (ignored path)) → sourceFiles h o root = listing) ∧
      (root.isAbsolute = true → h.LinksInReach →
        search h o root (orOutside h root fun path => .ok (ignored path)) = listing) := by
  intro top listing
  have hlisting : listing =
      filesBelow (o.rules h root fun path => .ok (ignored path)) [] top := by
    simp only [listing, search, hlist, top]
  have htop : top.Distinct := Host.list_distinct hform.distinct hlist
  have hsound : ∀ path ∈ listing.files, IsVisibleSource top o ignored path := by
    intro path hmem
    rw [hlisting] at hmem
    obtain ⟨path', rfl, hfinds⟩ := finds_of_mem_files htop hmem
    exact finds_iff_visibleSource.mp hfinds
  refine ⟨?_, fun hnone path => ⟨hsound path, fun hvisible => ?_⟩, ?_, hsound, ?_,
    fun habsolute hreach => search_orOutside hform hreach habsolute _⟩
  · rw [hlisting, fault_eq_none_iff htop, ← not_exists, fails_iff_not_listable]
    push Not
    rfl
  · rw [hlisting] at hnone ⊢
    exact mem_files_of_finds hnone (finds_iff_visibleSource.mpr hvisible)
  · rw [hlisting]
    exact nodup_files htop
  · intro ignores hignores htotal
    rw [sourceFiles, hignores]
    exact congrArg (search h o root) (funext htotal)

/-- A folder whose name ends in the suffix, a link to a file, a link to a folder, an ignored folder
and an excluded one. -/
theorem search_iff_visibleSource_links :
    let holding (name : String) : Node := .folder (.cons name (.file []) .nil)
    let entries : Entries :=
      .cons "a.ve" (.file []) <| .cons "d.ve" (holding "x.ve") <| .cons "l.ve" (.link "a.ve") <|
        .cons "m" (.link "/d.ve") <| .cons "out" (holding "y.ve") <|
        .cons "skip" (holding "z.ve") .nil
    let host : Host := ⟨.folder entries, [], "", []⟩
    let o : Options := { exclude := ["s*p"] }
    let ignored (path : List String) : Bool := path = ["out"]
    let listing := search host o ⟨.top, []⟩ fun path => .ok (ignored path)
    host.tree.WellFormed ∧ listing.files = [["d.ve", "x.ve"], ["a.ve"]] ∧ listing.fault = none ∧
      (∀ path, path ∈ listing.files ↔ IsVisibleSource (.folder entries) o ignored path) ∧
      search host o ⟨.top, []⟩ (orOutside host ⟨.top, []⟩ fun path => .ok (ignored path)) =
        listing := by
  intro holding entries host o ignored listing
  have hform : host.tree.WellFormed := by decide +kernel
  have hfault : listing.fault = none := by decide +kernel
  obtain ⟨-, hvisible, -, -, -, hwithin⟩ :=
    search_iff_visibleSource host o ⟨.top, []⟩ entries ignored hform rfl
  exact ⟨hform, by decide +kernel, hfault, hvisible hfault, hwithin rfl (by decide +kernel)⟩

end VeLens.Workspace
