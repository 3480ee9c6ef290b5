import Mathlib.Data.List.Forall2
import Mathlib.Data.List.Nodup
import VeLens.Catalog.Modules
import VeLens.Proofs.FileTree.Faults
import VeLens.Proofs.FileTree.Paths
import VeLens.Proofs.Workspace.Order

/-!
# Names of modules

The name of a local module and the source suffix make up the path of its file, so no two files share
a name. Standard modules have names of their own kind. Therefore no module is lost when the modules
of the library and of the workspace are put together.

## Main definitions

* `offered`: the files of a workspace but for the one that is open.
* `filesOf`: the files of a workspace, if there is one.
* `warnings`: what is said of a search that is cut short.

## Main results

* `ModuleName.relative_append_suffix`: the name of a module leads back to its file.
* `localModules_eq_ok_iff`, `names_of_standardModules`: what modules are listed.
* `modules_eq_append`: all modules are listed, each under a name of its own.
-/

namespace VeLens.ModuleName

open Text

variable {suffix : String} {path more : List String}

/-- A name without the suffix, and the suffix, make up the name. -/
theorem dropEnd_append {suffix name : List Char} (hne : suffix ≠ []) (h : suffix <:+ name) :
    dropEnd suffix.length name ++ suffix = name := by
  obtain ⟨front, rfl⟩ := h
  rw [dropEnd, if_neg (by simpa using hne)]
  simp

theorem stem_append {suffix name : List Char} (hne : suffix ≠ []) (h : suffix <:+ name) :
    stem suffix name ++ suffix = name := by
  rw [stem, if_pos (endsWith_iff.mpr h), dropEnd_append hne h]

theorem stemLast_concat (suffix : List Char) (names : List (List Char)) (name : List Char) :
    stemLast suffix (names ++ [name]) = names ++ [stem suffix name] := by
  induction names with
  | nil => rfl
  | cons n names ih =>
    rw [List.cons_append, List.cons_append, ← ih]
    cases names <;> rfl

/-- Names of entries without backslashes are found again in their text. -/
theorem namesIn_slashed (hne : path ≠ []) (hnames : ∀ name ∈ path, IsName name)
    (hslash : '\\' ∉ (Path.slashed path).toList) :
    namesIn (Path.slashed path).toList = path.map String.toList := by
  have hkept : (Path.slashed path).toList.map (fun c => if c = '\\' then '/' else c) =
      (Path.slashed path).toList := by
    conv_rhs => rw [← List.map_id (Path.slashed path).toList]
    refine List.map_congr_left fun c hc => if_neg ?_
    rintro rfl
    exact hslash hc
  rw [namesIn, hkept, Path.pieces_slashed hne hnames, List.filter_eq_self]
  intro p hp
  obtain ⟨name, hname, rfl⟩ := List.mem_map.mp hp
  simpa using (hnames name hname).ne_empty

/-- **The name of a module leads back to its file.** -/
theorem relative_append_suffix (hsuffix : suffix ≠ "") (hnames : ∀ name ∈ path, IsName name)
    (hslash : '\\' ∉ (Path.slashed path).toList)
    (hlast : ∃ name, path.getLast? = some name ∧ suffix.toList <:+ name.toList) :
    relative suffix.toList (Path.slashed path).toList ++ suffix.toList =
      (Path.slashed path).toList := by
  obtain ⟨name, hlast, hends⟩ := hlast
  obtain ⟨front, rfl⟩ := List.getLast?_eq_some_iff.mp hlast
  have hdot : dropDot ((front ++ [name]).map String.toList) =
      (front ++ [name]).map String.toList := by
    cases hfirst : (front ++ [name]).map String.toList with
    | nil => rfl
    | cons first rest =>
      have hmem : first ∈ (front ++ [name]).map String.toList := hfirst ▸ List.mem_cons_self
      obtain ⟨entry, hentry, rfl⟩ := List.mem_map.mp hmem
      rw [dropDot]
      rintro names heq
      exact (hnames entry hentry).ne_dot (String.toList_inj.mp (List.cons.inj heq).1)
  rw [relative, namesIn_slashed (by simp) hnames hslash, hdot, List.map_append, List.map_singleton,
    stemLast_concat, Path.toList_slashed, List.map_append, List.map_singleton]
  calc joined ['/'] (front.map String.toList ++ [stem suffix.toList name.toList]) ++ suffix.toList
      = joined ['/'] (front.map String.toList ++ [stem suffix.toList name.toList]) ++
          joined ['/'] [suffix.toList] := rfl
    _ = joined ['/'] (front.map String.toList ++
          [stem suffix.toList name.toList ++ suffix.toList]) := joined_concat_append _ _ _ _ _
    _ = joined ['/'] (front.map String.toList ++ [name.toList]) := by
        rw [stem_append (mt String.toList_eq_nil_iff.mp hsuffix) hends]

end VeLens.ModuleName

namespace VeLens.Report

/-- Several questions together are answered exactly by an answer to each of them. -/
theorem outcome_each_eq_ok_iff {α β : Type} {ask : α → Report β} {questions : List α}
    {answers : List β} :
    (each ask questions).outcome = .ok answers ↔
      List.Forall₂ (fun a b => (ask a).outcome = .ok b) questions answers := by
  constructor
  · intro h
    induction questions generalizing answers with
    | nil =>
      obtain rfl : [] = answers := Except.ok.inj h
      exact .nil
    | cons a questions ih =>
      obtain ⟨b, hb, h⟩ := outcome_bind_eq_ok_iff.mp h
      obtain ⟨bs, hbs, h⟩ := outcome_bind_eq_ok_iff.mp h
      obtain rfl : b :: bs = answers := Except.ok.inj h
      exact .cons hb (ih hbs)
  · intro h
    induction h with
    | nil => rfl
    | cons hb _ ih =>
      apply outcome_bind_eq_ok_iff.mpr
      refine ⟨_, hb, outcome_bind_eq_ok_iff.mpr ?_⟩
      exact ⟨_, ih, rfl⟩

end VeLens.Report

namespace VeLens.Catalog

open Text Workspace

variable {h : Host} {o : Options} {root : Path} {openFile : Option String} {ms : List Module}

/-- The files of a workspace without those of a module that is left out. -/
def offered (suffix : String) (excluded : Option (List Char)) (files : List (List String)) :
    List (List String) :=
  files.filter fun path =>
    some (ModuleName.relative suffix.toList (Path.slashed path).toList) ≠ excluded

theorem offered_none (suffix : String) (files : List (List String)) :
    offered suffix none files = files :=
  List.filter_eq_self.mpr (by simp)

/-- The files of a workspace, if there is one. -/
def filesOf (h : Host) (o : Options) (root : Option Path) : List (List String) :=
  root.elim [] fun root => (sourceFiles h o root).files

/-- The local modules are those of the files that are found, as long as it is known what file is
open and nothing but the file system cuts the search short. -/
theorem localModules_eq_ok_iff :
    (localModules h (some root) openFile o).outcome = .ok ms ↔
      ∃ excluded, excludedModule h root openFile o.suffix = .ok excluded ∧
        (∀ fault, (sourceFiles h o root).fault = some fault → fault.IsFile) ∧
        ms = (offered o.suffix excluded (sourceFiles h o root).files).map
          (localModule o.suffix) := by
  rw [localModules, Report.outcome_bind_eq_ok_iff]
  refine exists_congr fun excluded => and_congr_right fun _ => ?_
  cases hfault : (sourceFiles h o root).fault with
  | none =>
    simp only [hfault]
    rw [Report.outcome_pure, Except.ok.injEq]
    simp [offered, eq_comm]
  | some fault =>
    simp only [hfault]
    cases fault with
    | file cause place =>
      rw [Report.outcome_bind_eq_ok_iff]
      simp [Report.log, Report.outcome_pure, offered, Fault.IsFile, eq_comm]
    | _ => simp [Report.of, Fault.IsFile]

/-- The warning to which a search gives rise if the file system cuts it short. -/
def warnings (root : Path) : Option Fault → List Event
  | some (.file cause place) =>
    [.workspaceUnavailable root.render (Fault.file cause place).message]
  | _ => []

/-- If there are local modules at all, an open file changes nothing but what files are offered. -/
theorem localModules_of_excludedModule {excluded : Option (List Char)}
    (hexcluded : excludedModule h root openFile o.suffix = .ok excluded)
    (hfile : ∀ fault, (sourceFiles h o root).fault = some fault → fault.IsFile) :
    localModules h (some root) openFile o =
      ⟨warnings root (sourceFiles h o root).fault,
        .ok ((offered o.suffix excluded (sourceFiles h o root).files).map
          (localModule o.suffix))⟩ := by
  rw [localModules, hexcluded, Report.of_ok_bind]
  cases hfault : (sourceFiles h o root).fault with
  | none => simp only [hfault]; rfl
  | some fault =>
    obtain ⟨cause, place, rfl⟩ := hfile fault hfault
    simp only [hfault]
    rfl

theorem filesIn_names {folder : Path} {entries : Entries} {files : List (String × List UInt8)}
    (hfiles : filesIn h folder entries = .ok files) :
    (files.map Prod.fst).Sublist (entries.toList.map Prod.fst) := by
  fun_induction filesIn h folder entries generalizing files with
  | case1 =>
    obtain rfl := Except.ok.inj hfiles
    exact List.Sublist.refl _
  | case2 name node rest ih =>
    obtain ⟨content, -, hfiles⟩ := bind_eq_ok_iff.mp hfiles
    obtain ⟨more, hrest, hfiles⟩ := bind_eq_ok_iff.mp hfiles
    obtain rfl := Except.ok.inj hfiles
    cases content with
    | none => exact (ih hrest).cons _
    | some content => exact (ih hrest).cons_cons _

theorem name_of_standardModule {folder : Path} {suffix name : String} {content : List UInt8}
    {m : Module} (hok : (standardModule folder suffix name content).outcome = .ok m) :
    m.name = String.ofList
      (ModuleName.standardMark ++ ModuleName.dropEnd suffix.length name.toList) := by
  obtain ⟨text, -, hm⟩ := Report.outcome_bind_eq_ok_iff.mp hok
  obtain rfl := Except.ok.inj hm
  simp

/-- The standard modules are the fixed ones, or they are named after different files of the library
whose names end in the suffix. -/
theorem names_of_standardModules (hform : h.tree.WellFormed) {library : Option Path}
    {suffix : String} (hok : (standardModules h library suffix).outcome = .ok ms) :
    ms = fallback ∨
      ∃ files : List String, files.Nodup ∧ (∀ name ∈ files, suffix.toList <:+ name.toList) ∧
        ms.map Module.name = files.map fun name => String.ofList
          (ModuleName.standardMark ++ ModuleName.dropEnd suffix.length name.toList) := by
  cases library with
  | none => exact .inl (Except.ok.inj hok).symm
  | some folder =>
    simp only [standardModules] at hok
    split at hok
    · exact .inl (Except.ok.inj hok).symm
    · simp [Report.of] at hok
    · next files hfiles =>
      right
      obtain ⟨entries, hlist, hfiles⟩ := bind_eq_ok_iff.mp hfiles
      have hnodup : (files.map Prod.fst).Nodup :=
        (filesIn_names hfiles).nodup (Host.list_distinct hform.distinct hlist).nodup_names
      have hsorted := (byName_perm (files.filter fun file =>
        endsWith suffix.toList file.1.toList)).map Prod.fst
      refine ⟨_, hsorted.nodup_iff.mpr ((List.filter_sublist.map Prod.fst).nodup hnodup), ?_, ?_⟩
      · intro name hname
        obtain ⟨file, hfile, rfl⟩ := List.mem_map.mp hname
        exact endsWith_iff.mp (List.mem_filter.mp (mem_byName.mp hfile)).2
      · rw [List.map_map, ← List.forall₂_eq_eq_eq, List.forall₂_map_left_iff,
          List.forall₂_map_right_iff]
        exact (Report.outcome_each_eq_ok_iff.mp hok).flip.imp fun m file hask =>
          name_of_standardModule hask

/-- The names of standard modules have a mark of their own and differ from each other. -/
theorem standardModules_names (hform : h.tree.WellFormed) {library : Option Path} {suffix : String}
    (hsuffix : suffix ≠ "") (hok : (standardModules h library suffix).outcome = .ok ms) :
    (∀ m ∈ ms, "std/".toList <+: m.name.toList) ∧ (ms.map Module.name).Nodup := by
  obtain rfl | ⟨files, hnodup, hends, hnames⟩ := names_of_standardModules hform hok
  · decide +kernel
  constructor
  · intro m hm
    have hmem : m.name ∈ ms.map Module.name := List.mem_map_of_mem hm
    rw [hnames] at hmem
    obtain ⟨name, -, hname⟩ := List.mem_map.mp hmem
    rw [← hname]
    exact ⟨ModuleName.dropEnd suffix.length name.toList, String.toList_ofList.symm⟩
  · rw [hnames]
    refine List.Nodup.map_on (fun name hname other hother heq => ?_) hnodup
    -- What is left of a file name without the suffix tells the file name.
    have hstem : ∀ file ∈ files,
        ModuleName.dropEnd suffix.length file.toList ++ suffix.toList = file.toList := by
      intro file hfile
      rw [← String.length_toList]
      exact ModuleName.dropEnd_append (mt String.toList_eq_nil_iff.mp hsuffix) (hends file hfile)
    have heq' := List.append_cancel_left (String.ofList_injective heq)
    rw [← String.toList_inj, ← hstem name hname, ← hstem other hother, heq']

/-- The name of a local module is its mark and what stands before the suffix in the path of its
file. -/
theorem localModule_name (hform : h.tree.WellFormed) (hsuffix : o.suffix ≠ "")
    {path : List String} (hmem : path ∈ (sourceFiles h o root).files)
    (hslash : '\\' ∉ (Path.slashed path).toList) :
    ∃ s, (localModule o.suffix path).name = "./" ++ s ∧ s ++ o.suffix = Path.slashed path := by
  obtain ⟨-, -, -, -, hlast⟩ := exists_of_mem_sourceFiles hform hmem
  have hback := ModuleName.relative_append_suffix hsuffix
    (isName_of_mem_sourceFiles hform hmem) hslash hlast
  refine ⟨String.ofList (ModuleName.relative o.suffix.toList (Path.slashed path).toList), ?_, ?_⟩
  · exact String.toList_inj.mp (by simp [localModule, ModuleName.ofPath])
  · rw [← String.toList_inj, String.toList_append, String.toList_ofList, hback]

/-- Different files make modules with different names. -/
theorem localModule_inj (hform : h.tree.WellFormed) (hsuffix : o.suffix ≠ "")
    (hslash : ∀ path ∈ (sourceFiles h o root).files, '\\' ∉ (Path.slashed path).toList)
    {path more : List String} (hpath : path ∈ (sourceFiles h o root).files)
    (hmore : more ∈ (sourceFiles h o root).files)
    (heq : (localModule o.suffix path).name = (localModule o.suffix more).name) : path = more := by
  obtain ⟨s, hs, hpath'⟩ := localModule_name hform hsuffix hpath (hslash path hpath)
  obtain ⟨t, ht, hmore'⟩ := localModule_name hform hsuffix hmore (hslash more hmore)
  have hst : s = t := String.append_right_inj "./" |>.mp (hs ▸ ht ▸ heq)
  refine Path.slashed_inj (isName_of_mem_sourceFiles hform hpath)
    (isName_of_mem_sourceFiles hform hmore) ?_
  rw [← hpath', ← hmore', hst]

/-- Local modules stand for files of the workspace, and for all of them if none is open. -/
theorem exists_files_of_localModules {root : Option Path}
    (hok : (localModules h root openFile o).outcome = .ok ms) :
    ∃ files, files.Sublist (filesOf h o root) ∧ (openFile = none → files = filesOf h o root) ∧
      ms = files.map (localModule o.suffix) := by
  cases root with
  | none => exact ⟨[], List.Sublist.refl _, fun _ => rfl, (Except.ok.inj hok).symm⟩
  | some root =>
    obtain ⟨excluded, hexcluded, -, rfl⟩ := localModules_eq_ok_iff.mp hok
    refine ⟨_, List.filter_sublist, ?_, rfl⟩
    rintro rfl
    obtain rfl := Except.ok.inj hexcluded
    exact offered_none _ _

theorem unique_eq_self (hnodup : (ms.map Module.name).Nodup) : unique ms = ms := by
  induction ms with
  | nil => rfl
  | cons m ms ih =>
    obtain ⟨hfresh, hnodup⟩ := List.nodup_cons.mp hnodup
    rw [unique, ih hnodup, List.filter_eq_self.mpr]
    intro n hn
    have hne : n.name ≠ m.name := fun heq => hfresh (heq ▸ List.mem_map_of_mem hn)
    simpa using hne

/-- **All modules, each under a name of its own.** If the source suffix is not empty and no file of
the workspace has a backslash in its path, then putting standard and local modules together loses
none of them, and no two share a name. Standard names begin with `std/`. A local name is `./` and a
text that makes up the path of the file together with the suffix. The local modules stand for files
of the workspace in the order in which these are found, and for all of them if none is open. -/
theorem modules_eq_append (h : Host) (library root : Option Path) (openFile : Option String)
    (o : Options) (all : List Module) (hform : h.tree.WellFormed) (hsuffix : o.suffix ≠ "")
    (hslash : ∀ path ∈ filesOf h o root, '\\' ∉ (Path.slashed path).toList)
    (hok : (modules h library root openFile o).outcome = .ok all) :
    ∃ standard locals,
      (standardModules h library o.suffix).outcome = .ok standard ∧
      (localModules h root openFile o).outcome = .ok locals ∧
      all = standard ++ locals ∧ (all.map Module.name).Nodup ∧
      (∀ m ∈ standard, "std/".toList <+: m.name.toList) ∧
      ∃ files, files.Sublist (filesOf h o root) ∧ (openFile = none → files = filesOf h o root) ∧
        List.Forall₂
          (fun m path => ∃ s, m.name = "./" ++ s ∧ s ++ o.suffix = Path.slashed path)
          locals files := by
  obtain ⟨standard, hstandard, hok⟩ := Report.outcome_bind_eq_ok_iff.mp hok
  obtain ⟨locals, hlocals, hok⟩ := Report.outcome_bind_eq_ok_iff.mp hok
  obtain rfl := Except.ok.inj hok
  obtain ⟨hmark, hdistinct⟩ := standardModules_names hform hsuffix hstandard
  obtain ⟨files, hfiles, hall, rfl⟩ := exists_files_of_localModules hlocals
  have hnames : ∀ path ∈ files,
      ∃ s, (localModule o.suffix path).name = "./" ++ s ∧ s ++ o.suffix = Path.slashed path := by
    intro path hpath
    cases root with
    | none => exact absurd (hfiles.subset hpath) List.not_mem_nil
    | some root =>
      have hmem := hfiles.subset hpath
      exact localModule_name hform hsuffix hmem (hslash path hmem)
  have hlocalNodup : ((files.map (localModule o.suffix)).map Module.name).Nodup := by
    rw [List.map_map]
    cases root with
    | none => exact List.eq_nil_of_sublist_nil hfiles ▸ List.nodup_nil
    | some root =>
      exact List.Nodup.map_on
        (fun path hpath more hmore => localModule_inj hform hsuffix hslash (hfiles.subset hpath)
          (hfiles.subset hmore))
        (hfiles.nodup (nodup_sourceFiles hform))
  have hnodup : ((standard ++ files.map (localModule o.suffix)).map Module.name).Nodup := by
    rw [List.map_append, List.nodup_append]
    refine ⟨hdistinct, hlocalNodup, fun name hname other hother heq => ?_⟩
    -- The first characters of a standard and of a local name differ.
    obtain ⟨m, hm, rfl⟩ := List.mem_map.mp hname
    obtain ⟨_, hlocal, rfl⟩ := List.mem_map.mp hother
    obtain ⟨path, hpath, rfl⟩ := List.mem_map.mp hlocal
    obtain ⟨s, hs, -⟩ := hnames path hpath
    have hstd := hmark m hm
    rw [heq, hs, String.toList_append] at hstd
    obtain ⟨rest, hrest⟩ := hstd
    simp at hrest
  rw [unique_eq_self hnodup]
  refine ⟨standard, _, hstandard, hlocals, rfl, hnodup, hmark, files, hfiles, hall, ?_⟩
  rw [List.forall₂_map_left_iff, List.forall₂_same]
  exact hnames

/-- Files that are named like the suffix or end in it twice, and a standard module whose name could
be one of the workspace. -/
theorem modules_eq_append_suffixes :
    let library : Entries := .cons "a.ve" (.file []) .nil
    let workspace : Entries :=
      .cons ".ve" (.file []) <| .cons "a.ve" (.file []) <| .cons "a.ve.ve" (.file []) <|
        .cons "std" (.folder (.cons ".ve" (.file []) (.cons "a.ve" (.file []) .nil))) .nil
    let host : Host :=
      ⟨.folder (.cons "lib" (.folder library) (.cons "w" (.folder workspace) .nil)), [], "", []⟩
    let all : List Module := [⟨"std/a", "a module"⟩, ⟨"./std/", "Local module: std/"⟩,
      ⟨"./std/a", "Local module: std/a"⟩, ⟨"./", "Local module: "⟩, ⟨"./a", "Local module: a"⟩,
      ⟨"./a.ve", "Local module: a.ve"⟩]
    (modules host (some ⟨.top, ["lib"]⟩) (some ⟨.top, ["w"]⟩) none {}).outcome = .ok all ∧
      ∃ standard locals, all = standard ++ locals ∧
        (standardModules host (some ⟨.top, ["lib"]⟩) ".ve").outcome = .ok standard ∧
        (localModules host (some ⟨.top, ["w"]⟩) none {}).outcome = .ok locals := by
  intro library workspace host all
  have hok : (modules host (some ⟨.top, ["lib"]⟩) (some ⟨.top, ["w"]⟩) none {}).outcome =
      .ok all := Report.outcome_eq_ok (by decide +kernel)
  obtain ⟨standard, locals, hstandard, hlocals, hall, -⟩ :=
    modules_eq_append host (some ⟨.top, ["lib"]⟩) (some ⟨.top, ["w"]⟩) none {} all
      (by decide +kernel) (by decide) (by decide +kernel) hok
  exact ⟨hok, standard, locals, hall, hstandard, hlocals⟩

end VeLens.Catalog
