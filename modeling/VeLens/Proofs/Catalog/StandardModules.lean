import VeLens.Proofs.Catalog.Library
import VeLens.Proofs.Catalog.Names

/-!
# Standard modules and their files

A library that can be read has one module for each of its source files. The name of a module and the
suffix make up the name of its file again, also if the file is named like the suffix or ends in it
twice. So an import of the module finds the functions of the file that it was listed from.

## Main definitions

* `IsReadableLibrary`: of each entry of a library it is known whether it is a file.
* `sourceNames`: the names of the source files of a library.

## Main results

* `exists_filesIn`: a library that is readable has a list of files with their contents.
* `exists_modules_of_isReadable`: it has a module for each source file, in the order of the names.
* `outcome_standardFunctions_of_name`: importing a listed module reads the file of its name.
* `standardFunctions_of_listed`: the modules of a readable library lead back to their files.
-/

namespace VeLens.Catalog

open Text

variable {h : Host} {folder : Path} {suffix name : String} {content : List UInt8}
  {entries : Entries}

/-- The folder can be listed, and of each of its entries it is known whether it leads to a file. -/
structure IsReadableLibrary (h : Host) (folder : Path) (entries : Entries) : Prop where
  listed : h.list folder = .ok entries
  known : ∀ entry ∈ entries.toList, ∃ answer, h.isFile (folder.below entry.1) = .ok answer

/-- The name leads from a folder to a file. -/
def leadsToFile (h : Host) (folder : Path) (name : String) : Bool :=
  (h.isFile (folder.below name)).toOption == some true

/-- The entries of a folder that lead to files, in the order of their names. -/
def fileNames (h : Host) (folder : Path) (entries : Entries) : List String :=
  ((byName entries.toList).map Prod.fst).filter (leadsToFile h folder)

/-- The files of a folder whose names end in the suffix, in the order of their names. -/
def sourceNames (h : Host) (folder : Path) (suffix : String) (entries : Entries) : List String :=
  (fileNames h folder entries).filter fun name => endsWith suffix.toList name.toList

/-! ### Files of the library -/

theorem exists_filesIn
    (hknown : ∀ entry ∈ entries.toList, ∃ answer, h.isFile (folder.below entry.1) = .ok answer) :
    ∃ files, filesIn h folder entries = .ok files ∧
      files.map Prod.fst = (entries.toList.map Prod.fst).filter (leadsToFile h folder) ∧
      ∀ file ∈ files, h.content (folder.below file.1) = .ok file.2 := by
  fun_induction filesIn h folder entries with
  | case1 => exact ⟨[], rfl, rfl, by simp⟩
  | case2 name node rest ih =>
    obtain ⟨⟨answer, hanswer⟩, hrest⟩ := List.forall_mem_cons.mp hknown
    obtain ⟨files, hfiles, hnames, hcontents⟩ := ih hrest
    cases answer with
    | false =>
      have hnone : contentAt? h (folder.below name) = .ok none := by
        rw [contentAt?, hanswer]
        rfl
      refine ⟨files, ?_, ?_, hcontents⟩
      · rw [hnone, hfiles]
        rfl
      · rw [hnames, Entries.toList, List.map_cons,
          List.filter_cons_of_neg (by simp [leadsToFile, hanswer, Except.toOption])]
    | true =>
      obtain ⟨content, hcontent⟩ := Host.exists_content_of_isFile hanswer
      have hsome : contentAt? h (folder.below name) = .ok (some content) := by
        rw [contentAt?, hanswer, hcontent]
        rfl
      refine ⟨(name, content) :: files, ?_, ?_, ?_⟩
      · rw [hsome, hfiles]
        rfl
      · rw [List.map_cons, hnames, Entries.toList, List.map_cons,
          List.filter_cons_of_pos (by simp [leadsToFile, hanswer, Except.toOption])]
      · exact List.forall_mem_cons.mpr ⟨hcontent, hcontents⟩

/-- The source files of a library, sorted after they are found, have the names that are found if the
entries are sorted first. -/
theorem sourceNames_eq {files : List (String × List UInt8)} (suffix : String)
    (hnames : files.map Prod.fst = (entries.toList.map Prod.fst).filter (leadsToFile h folder)) :
    sourceNames h folder suffix entries =
      (byName (files.filter fun file => endsWith suffix.toList file.1.toList)).map Prod.fst := by
  have hsorted : ((byName entries.toList).map Prod.fst).Pairwise (· ≤ ·) :=
    List.pairwise_map.mpr (pairwise_byName entries.toList)
  refine (map_fst_byName_eq ((hsorted.filter _).filter _) ?_).symm
  have hfiles : (files.filter fun file => endsWith suffix.toList file.1.toList).map Prod.fst =
      ((entries.toList.map Prod.fst).filter (leadsToFile h folder)).filter fun name =>
        endsWith suffix.toList name.toList := by
    rw [← hnames, List.filter_map]
    rfl
  rw [hfiles]
  exact (((byName_perm entries.toList).map Prod.fst).filter _).filter _

/-- What is read at the name of an entry is the entry itself, unless it is a link. -/
theorem get?_of_content (hlist : h.list folder = .ok entries) (hname : IsName name)
    (hcontent : h.content (folder.below name) = .ok content) :
    entries.get? name = some (.file content) ∨ ∃ target, entries.get? name = some (.link target) :=
  Host.get?_of_find hlist (Host.content_eq_ok_iff.mp hcontent) hname.ne_dot hname.ne_dots

/-! ### Modules of the library -/

theorem exists_description (path : Path) (stem : String) (content : List UInt8) :
    ∃ text, (description path stem content).outcome = .ok text := by
  rw [description]
  split
  · split
    · exact ⟨_, rfl⟩
    · exact ⟨_, rfl⟩
  · exact ⟨_, rfl⟩

theorem exists_standardModule (folder : Path) (suffix name : String) (content : List UInt8) :
    ∃ m, (standardModule folder suffix name content).outcome = .ok m := by
  obtain ⟨text, htext⟩ := exists_description (folder.below name)
    (String.ofList (ModuleName.dropEnd suffix.length name.toList)) content
  exact ⟨_, Report.outcome_bind_eq_ok_iff.mpr ⟨text, htext, rfl⟩⟩

/-- If the files of a library are known, there is a module for each source file among them. -/
theorem exists_standardModules {files : List (String × List UInt8)}
    (hlist : h.list folder = .ok entries) (hfiles : filesIn h folder entries = .ok files)
    (suffix : String) :
    ∃ modules, (standardModules h (some folder) suffix).outcome = .ok modules ∧
      List.Forall₂ (fun file m => (standardModule folder suffix file.1 file.2).outcome = .ok m)
        (byName (files.filter fun file => endsWith suffix.toList file.1.toList)) modules := by
  have hstep : (do filesIn h folder (← h.list folder)) = .ok files := by
    rw [hlist]
    exact hfiles
  choose make hmake using fun file : String × List UInt8 =>
    exists_standardModule folder suffix file.1 file.2
  let sources := byName (files.filter fun file => endsWith suffix.toList file.1.toList)
  have heach : List.Forall₂
      (fun file m => (standardModule folder suffix file.1 file.2).outcome = .ok m)
      sources (sources.map make) := by
    rw [List.forall₂_map_right_iff, List.forall₂_same]
    exact fun file _ => hmake file
  refine ⟨sources.map make, ?_, heach⟩
  simp only [standardModules, hstep]
  exact Report.outcome_each_eq_ok_iff.mpr heach

/-- A readable library has a module for each of its source files, made from what is read there. -/
theorem exists_modules_of_isReadable (hread : IsReadableLibrary h folder entries)
    (suffix : String) :
    ∃ modules, (standardModules h (some folder) suffix).outcome = .ok modules ∧
      List.Forall₂
        (fun name m => suffix.toList <:+ name.toList ∧
          ∃ content, h.content (folder.below name) = .ok content ∧
            (standardModule folder suffix name content).outcome = .ok m)
        (sourceNames h folder suffix entries) modules := by
  obtain ⟨files, hfiles, hnames, hcontents⟩ := exists_filesIn hread.known
  obtain ⟨modules, hmodules, heach⟩ := exists_standardModules hread.listed hfiles suffix
  refine ⟨modules, hmodules, ?_⟩
  rw [sourceNames_eq suffix hnames, List.forall₂_map_left_iff]
  -- What is known of each source file is put beside the module that was made from it.
  have hknown : ∀ file ∈ byName (files.filter fun file => endsWith suffix.toList file.1.toList),
      suffix.toList <:+ file.1.toList ∧ h.content (folder.below file.1) = .ok file.2 := by
    intro file hfile
    obtain ⟨hmem, hends⟩ := List.mem_filter.mp (mem_byName.mp hfile)
    exact ⟨endsWith_iff.mp hends, hcontents file hmem⟩
  refine ((List.forall₂_and_left _ _).mpr ⟨hknown, heach⟩).imp ?_
  rintro ⟨name, content⟩ m ⟨⟨hends, hcontent⟩, hmade⟩
  exact ⟨hends, content, hcontent, hmade⟩

/-- The source files of a library have names that can be written in a path. -/
theorem isName_of_mem_sourceNames (hform : h.tree.WellFormed)
    (hlist : h.list folder = .ok entries) (hmem : name ∈ sourceNames h folder suffix entries) :
    IsName name := by
  have hfile := List.mem_of_mem_filter (List.mem_of_mem_filter hmem)
  obtain ⟨entry, hentry, rfl⟩ := List.mem_map.mp hfile
  exact ((Host.list_wellFormed hform hlist).of_mem (mem_byName.mp hentry)).1

/-! ### From the name of a module to its file -/

theorem importedPath?_of_name {m : Module} (hsuffix : suffix ≠ "") (hname : IsName name)
    (hends : suffix.toList <:+ name.toList)
    (hm : m.name = String.ofList
      (ModuleName.standardMark ++ ModuleName.dropEnd suffix.length name.toList)) :
    importedPath? m.name suffix = some ⟨.here, [name]⟩ := by
  have hback : String.ofList (ModuleName.dropEnd suffix.length name.toList) ++ suffix = name := by
    rw [← String.toList_inj, String.toList_append, String.toList_ofList, ← String.length_toList,
      ModuleName.dropEnd_append (mt String.toList_eq_nil_iff.mp hsuffix) hends]
  rw [importedPath?, hm, String.toList_ofList, after?_append, Option.map_some, hback,
    Path.parse_of_isName hname]

/-- Importing the module of a file reads that file. -/
theorem outcome_standardFunctions_of_name {m : Module} (hsuffix : suffix ≠ "")
    (hname : IsName name) (hends : suffix.toList <:+ name.toList)
    (hcontent : h.content (folder.below name) = .ok content)
    (hm : m.name = String.ofList
      (ModuleName.standardMark ++ ModuleName.dropEnd suffix.length name.toList)) :
    (standardFunctions h (some folder) m.name suffix).outcome =
      .ok (functionsIn (some content)) := by
  have hjoin : folder.join ⟨.here, [name]⟩ = folder.below name := rfl
  have hnull : ¬ (folder.below name).hasNull = true := by
    intro hnull
    rw [Host.content_of_hasNull hnull] at hcontent
    simp at hcontent
  rw [outcome_standardFunctions (importedPath?_of_name hsuffix hname hends hm), hjoin,
    if_neg hnull, hcontent]
  rfl

/-- **Listed modules lead back to their files.** A library that can be read has a list of modules,
one for each file whose name ends in the suffix, in the order of the names. The name of a module
stands for that of its file. Importing the module gives the functions in the file, none if the file
is no text. The file is the entry itself or what a link leads to. -/
theorem standardFunctions_of_listed (h : Host) (folder : Path) (suffix : String) (entries : Entries)
    (hform : h.tree.WellFormed) (hsuffix : suffix ≠ "")
    (hread : IsReadableLibrary h folder entries) :
    ∃ modules, (standardModules h (some folder) suffix).outcome = .ok modules ∧
      List.Forall₂
        (fun name m => m.name ++ suffix = "std/" ++ name ∧
          ∃ content, h.content (folder.below name) = .ok content ∧
            (entries.get? name = some (.file content) ∨
              ∃ target, entries.get? name = some (.link target)) ∧
            (standardFunctions h (some folder) m.name suffix).outcome =
              .ok (functionsIn (some content)))
        (sourceNames h folder suffix entries) modules := by
  obtain ⟨modules, hmodules, heach⟩ := exists_modules_of_isReadable hread suffix
  refine ⟨modules, hmodules, ?_⟩
  have hnames : ∀ name ∈ sourceNames h folder suffix entries, IsName name :=
    fun name => isName_of_mem_sourceNames hform hread.listed
  refine ((List.forall₂_and_left _ _).mpr ⟨hnames, heach⟩).imp ?_
  rintro name m ⟨hname, hends, content, hcontent, hmade⟩
  have hm := name_of_standardModule hmade
  refine ⟨?_, content, hcontent, get?_of_content hread.listed hname hcontent,
    outcome_standardFunctions_of_name hsuffix hname hends hcontent hm⟩
  rw [hm, ← String.toList_inj, String.toList_append, String.toList_ofList, List.append_assoc,
    ← String.length_toList,
    ModuleName.dropEnd_append (mt String.toList_eq_nil_iff.mp hsuffix) hends]
  simp [ModuleName.standardMark]

/-- A file that is named like the suffix, one that ends in it twice, a link out of the library and a
file that is no text, among entries that are no modules. -/
theorem standardFunctions_of_listed_suffixes :
    let library : Entries := .cons ".ve" (.file "fn f(x)".toUTF8.toList) <|
      .cons "a.ve.ve" (.file "fn g()".toUTF8.toList) <| .cons "b.ve" (.link "../m") <|
        .cons "c.ve" (.file [0xFF]) <| .cons "d.ve" (.folder .nil) <| .cons "e" (.file []) .nil
    let host : Host := ⟨.folder (.cons "lib" (.folder library)
      (.cons "m" (.file "fn h(y, z)".toUTF8.toList) .nil)), [], "", []⟩
    let lib : Path := ⟨.top, ["lib"]⟩
    let functions (name : String) := (standardFunctions host (some lib) name ".ve").outcome
    (∃ modules, (standardModules host (some lib) ".ve").outcome = .ok modules ∧
      List.Forall₂
        (fun name m => m.name ++ ".ve" = "std/" ++ name ∧
          ∃ content, host.content (lib.below name) = .ok content ∧
            functions m.name = .ok (functionsIn (some content)))
        [".ve", "a.ve.ve", "b.ve", "c.ve"] modules) ∧
      functions "std/" = .ok [⟨"f", "x", ["x"]⟩] ∧ functions "std/a.ve" = .ok [⟨"g", "", []⟩] ∧
      functions "std/b" = .ok [⟨"h", "y, z", ["y", "z"]⟩] ∧ functions "std/c" = .ok [] := by
  intro library host lib functions
  refine ⟨?_, by decide +kernel⟩
  have hread : IsReadableLibrary host lib library := by
    refine ⟨rfl, fun entry hentry => ?_⟩
    have hknown : ∀ entry ∈ library.toList, (host.isFile (lib.below entry.1)).toOption ≠ none := by
      decide +kernel
    cases hanswer : host.isFile (lib.below entry.1) with
    | ok answer => exact ⟨answer, rfl⟩
    | error fault => exact absurd (congrArg Except.toOption hanswer) (hknown entry hentry)
  have hnames : sourceNames host lib ".ve" library = [".ve", "a.ve.ve", "b.ve", "c.ve"] := by
    decide +kernel
  obtain ⟨modules, hmodules, heach⟩ :=
    standardFunctions_of_listed host lib ".ve" library (by decide +kernel) (by decide) hread
  rw [hnames] at heach
  refine ⟨modules, hmodules, heach.imp ?_⟩
  rintro name m ⟨hname, content, hcontent, -, hfunctions⟩
  exact ⟨hname, content, hcontent, hfunctions⟩

end VeLens.Catalog
