import Mathlib.Data.List.Flatten
import VeLens.Proofs.Workspace.IgnoreFiles

/-!
# Nested ignore files

A search that hides more finds less, and what it finds stands in the same order. Asking for the
ignore files in all folders hides more as long as the ignore file at the root is one of them. It is
not if it is a link: a link at the root is read only where it is the one file that is asked for.

## Main results

* `files_sublist`: a search that shows whatever another one finds.
* `isIgnored_eq_false_iff`, `exists_of_isIgnored`: what several ignore files hide.
* `rootIgnore_cases`, `mem_nestedIgnores`: the ignore file at the root, alone and among all.
* `nested_sublist_iff`: when nested ignore files leave a part of what is found without them.
-/

namespace VeLens.Workspace

variable {strict weak rules : Rules} {names : List String} {node : Node} {name : String}
  {entries : Entries}

/-! ### Two searches -/

theorem inFolder_of_shown (hname : rules.isHidden (names ++ [name]) = .ok false) :
    rules.inFolder names (name, .folder entries) =
      filesBelow rules (names ++ [name]) (.folder entries) := by
  rw [Rules.inFolder, Rules.unlessHidden, hname]

theorem ofFile_of_shown {content : List UInt8} (hsource : rules.isSource name = true)
    (hname : rules.isHidden (names ++ [name]) = .ok false) :
    rules.ofFile names (name, .file content) = ⟨[names ++ [name]], none⟩ := by
  rw [Rules.ofFile, if_pos hsource, Rules.unlessHidden, hname]

/-- An entry that does not cut a search short and is not hidden is known not to be hidden. -/
theorem isHidden_eq_false (hne : rules.isHidden names ≠ .ok true)
    (hfault : ∀ fault, rules.isHidden names ≠ .error fault) :
    rules.isHidden names = .ok false := by
  cases hanswer : rules.isHidden names with
  | error fault => exact absurd hanswer (hfault fault)
  | ok answer =>
    cases answer with
    | true => exact absurd hanswer hne
    | false => rfl

/-- If a complete search hides nothing on the way to what another search finds, then it finds all of
that, in the same order. -/
theorem files_sublist (hdistinct : node.Distinct)
    (hsource : ∀ name, strict.isSource name = true → weak.isSource name = true)
    (hshown : ∀ path, strict.Finds names node path → ∀ front, front <+: path → front ≠ [] →
      weak.isHidden (names ++ front) ≠ .ok true)
    (hweak : (filesBelow weak names node).fault = none) :
    (filesBelow strict names node).files.Sublist (filesBelow weak names node).files := by
  induction node using Node.tree_induction generalizing names with
  | file content => exact List.Sublist.refl _
  | link target => exact List.Sublist.refl _
  | folder entries ih =>
    obtain ⟨fault, -, hfiles⟩ | ⟨-, hfiles⟩ := filesBelow_folder weak names entries
    · simp [hfiles, Listing.failed] at hweak
    obtain ⟨fault, -, hfound⟩ | ⟨-, hfound⟩ := filesBelow_folder strict names entries
    · rw [hfound]
      exact List.nil_sublist _
    rw [hfiles] at hweak ⊢
    have hparts := Listing.fault_all_eq_none_iff.mp hweak
    rw [hfound, Listing.files_all hweak]
    refine (Listing.files_all_sublist _).trans ?_
    simp only [List.flatMap_append, List.flatMap_map]
    -- An entry in which nothing is found needs no argument. Otherwise it is not hidden, and since
    -- the second search is complete, that is known.
    refine (List.Sublist.flatMap_right _ ?_).append (List.Sublist.flatMap_right _ ?_)
    · rintro ⟨name, child⟩ hentry
      by_cases hnone : (strict.inFolder names (name, child)).files = []
      · rw [hnone]
        exact List.nil_sublist _
      obtain ⟨found, hmem⟩ := List.exists_mem_of_ne_nil _ hnone
      obtain ⟨⟨below, rfl⟩, hname, hmem⟩ := mem_files_inFolder.mp hmem
      have hmem' := mem_byName.mp hentry
      have hget := (Entries.Distinct.get?_eq_some_iff hdistinct).mpr hmem'
      have hchild := Entries.Distinct.of_mem hdistinct hmem'
      obtain ⟨path, -, hfinds⟩ := finds_of_mem_files hchild hmem
      have hpart := hparts _ (List.mem_append_left _ (List.mem_map_of_mem hentry))
      have hname' : weak.isHidden (names ++ [name]) = .ok false := by
        refine isHidden_eq_false ?_ fun fault hfault => ?_
        · exact hshown _ (Rules.finds_cons hget hname hfinds) [name] (by simp) (by simp)
        · simp [fault_inFolder.mpr ⟨⟨below, rfl⟩, .inl hfault⟩] at hpart
      rw [inFolder_of_shown hname'] at hpart
      rw [inFolder_of_shown hname, inFolder_of_shown hname']
      refine ih _ hmem' hchild (fun path hfinds front hfront hne => ?_) hpart
      rw [List.append_assoc]
      refine hshown _ (Rules.finds_cons hget hname hfinds) (name :: front) ?_ (by simp)
      exact List.cons_prefix_cons.mpr ⟨rfl, hfront⟩
    · rintro ⟨name, child⟩ hentry
      by_cases hnone : (strict.ofFile names (name, child)).files = []
      · rw [hnone]
        exact List.nil_sublist _
      obtain ⟨found, hmem⟩ := List.exists_mem_of_ne_nil _ hnone
      obtain ⟨⟨content, rfl⟩, hsuffix, hname, -⟩ := mem_files_ofFile.mp hmem
      have hget := (Entries.Distinct.get?_eq_some_iff hdistinct).mpr (mem_byName.mp hentry)
      have hpart := hparts _ (List.mem_append_right _ (List.mem_map_of_mem hentry))
      have hname' : weak.isHidden (names ++ [name]) = .ok false := by
        refine isHidden_eq_false ?_ fun fault hfault => ?_
        · exact hshown _ (Rules.finds_singleton hget hname hsuffix) [name] (by simp) (by simp)
        · simp [fault_ofFile.mpr ⟨⟨content, rfl⟩, hsource name hsuffix, hfault⟩] at hpart
      rw [ofFile_of_shown hsuffix hname, ofFile_of_shown (hsource name hsuffix) hname']

/-! ### Several ignore files -/

variable {h : Host} {root : Path} {read : IgnoreReader}
  {contents : List (List String × List UInt8)} {files : List IgnoreFile}

/-- Several ignore files leave a path alone exactly if each of them does. -/
theorem isIgnored_eq_false_iff :
    isIgnored files names = .ok false ↔ ∀ file ∈ files, file.hides names = .ok false := by
  induction files with
  | nil => simp [isIgnored]
  | cons file files ih =>
    rw [List.forall_mem_cons, ← ih, isIgnored, bind_eq_ok_iff]
    constructor
    · rintro ⟨answer, hanswer, hrest⟩
      cases answer with
      | true => simp [pure, Except.pure] at hrest
      | false => exact ⟨hanswer, hrest⟩
    · rintro ⟨hfile, hrest⟩
      exact ⟨false, hfile, hrest⟩

/-- A path that several ignore files hide is hidden by one of them. -/
theorem exists_of_isIgnored (hnames : isIgnored files names = .ok true) :
    ∃ file ∈ files, file.hides names = .ok true := by
  induction files with
  | nil => simp [isIgnored] at hnames
  | cons file files ih =>
    obtain ⟨answer, hanswer, hrest⟩ := bind_eq_ok_iff.mp hnames
    cases answer with
    | true => exact ⟨file, List.mem_cons_self, hanswer⟩
    | false =>
      obtain ⟨other, hother, hhides⟩ := ih hrest
      exact ⟨other, List.mem_cons_of_mem _ hother, hhides⟩

/-- What an ignore file hides it also hides if it is lenient. -/
theorem IgnoreFile.lenient_hides {file : IgnoreFile} (hhides : file.hides names = .ok true) :
    file.lenient.hides names = .ok true := by
  have hfolder : file.lenient.folder = file.folder := rfl
  rw [IgnoreFile.hides] at hhides ⊢
  rw [hfolder]
  cases hbelow : Path.namesAfter? file.folder names with
  | none => simp [hbelow] at hhides
  | some below =>
    simp only [hbelow] at hhides ⊢
    simp only [IgnoreFile.lenient, hhides]

/-- Every content makes an ignore file. -/
theorem exists_mem_readIgnores {folder : List String} {content : List UInt8}
    (hfiles : readIgnores read contents = .ok files) (hmem : (folder, content) ∈ contents) :
    ∃ hidesBelow, read content = .ok hidesBelow ∧ ⟨folder, hidesBelow⟩ ∈ files := by
  induction contents generalizing files with
  | nil => simp at hmem
  | cons file contents ih =>
    rw [readIgnores] at hfiles
    obtain ⟨hidesBelow, hread, hfiles⟩ := bind_eq_ok_iff.mp hfiles
    obtain ⟨rest, hrest, hfiles⟩ := bind_eq_ok_iff.mp hfiles
    obtain rfl := Except.ok.inj hfiles
    rcases List.mem_cons.mp hmem with rfl | hmem
    · exact ⟨hidesBelow, hread, List.mem_cons_self⟩
    · obtain ⟨more, hmore, hin⟩ := ih hrest hmem
      exact ⟨more, hmore, List.mem_cons_of_mem _ hin⟩

/-- The ignore file at the root, asked for alone, is an entry of the root or stands behind a link
among its entries. -/
theorem rootIgnore_cases (hlist : h.list root = .ok entries)
    (hcontents : rootIgnore h root = .ok contents) :
    contents = [] ∨ ∃ content, contents = [([], content)] ∧
      (entries.get? ignoreName = some (.file content) ∨
        ∃ target, entries.get? ignoreName = some (.link target)) := by
  rw [rootIgnore, joinText_ignoreName] at hcontents
  obtain ⟨answer, hanswer, hcontents⟩ := bind_eq_ok_iff.mp hcontents
  cases answer with
  | false => exact .inl (Except.ok.inj hcontents).symm
  | true =>
    obtain ⟨node, hfind, hfile⟩ := Host.exists_find_of_holds hanswer
    cases node with
    | folder below => simp [Host.isFileNode] at hfile
    | link target => simp [Host.isFileNode] at hfile
    | file content =>
      rw [Host.content, hfind] at hcontents
      refine .inr ⟨content, (Except.ok.inj hcontents).symm, ?_⟩
      exact Host.get?_of_find hlist hfind (by decide) (by decide)

/-- An ignore file at the root that is no link is among the ignore files of all folders. -/
theorem mem_nestedIgnores {content : List UInt8} (hlist : h.list root = .ok entries)
    (hget : entries.get? ignoreName = some (.file content))
    (hcontents : nestedIgnores h root = .ok contents) : ([], content) ∈ contents := by
  obtain ⟨hfolder, hfind⟩ := isFolder_of_list hlist
  rw [nestedIgnores, hfolder, hfind] at hcontents
  change (ignoreContents (ignoreObstacle h root) [] (.folder entries) >>= _) = _ at hcontents
  obtain ⟨found, hfound, hcontents⟩ := bind_eq_ok_iff.mp hcontents
  obtain rfl := Except.ok.inj hcontents
  rw [List.mem_mergeSort]
  rw [ignoreContents, hget] at hfound
  split at hfound
  · simp at hfound
  · obtain ⟨below, -, hfound⟩ := bind_eq_ok_iff.mp hfound
    obtain rfl := Except.ok.inj hfound
    exact List.mem_append_left _ List.mem_cons_self

theorem exists_of_ignoreFiles {o : Options} (hfiles : o.ignoreFiles h root = .ok files) :
    ∃ contents read, o.ignoreContents h root = .ok contents ∧
      readIgnores o.readIgnore contents = .ok read ∧
      files = if o.nestedIgnore then read.map IgnoreFile.lenient else read := by
  obtain ⟨contents, hcontents, hfiles⟩ := bind_eq_ok_iff.mp hfiles
  obtain ⟨read, hread, hfiles⟩ := bind_eq_ok_iff.mp hfiles
  exact ⟨contents, read, hcontents, hread, (Except.ok.inj hfiles).symm⟩

/-- What the ignore files of all folders leave alone is not hidden by the one at the root, unless
that is a link. -/
theorem not_isIgnored_of_nested {o : Options} {ignores all : List IgnoreFile}
    (hlist : h.list root = .ok entries)
    (hlink : ∀ target, entries.get? ignoreName ≠ some (.link target))
    (hroot : Options.ignoreFiles { o with nestedIgnore := false } h root = .ok ignores)
    (hall : Options.ignoreFiles { o with nestedIgnore := true } h root = .ok all)
    (hnames : isIgnored all names = .ok false) : isIgnored ignores names ≠ .ok true := by
  intro hignored
  obtain ⟨contents, roots, hcontents, hroots, rfl⟩ := exists_of_ignoreFiles hroot
  obtain ⟨nested, files, hnested, hfiles, rfl⟩ := exists_of_ignoreFiles hall
  obtain ⟨file, hfile, hhides⟩ := exists_of_isIgnored hignored
  change rootIgnore h root = .ok contents at hcontents
  change nestedIgnores h root = .ok nested at hnested
  change isIgnored (files.map IgnoreFile.lenient) names = .ok false at hnames
  obtain rfl | ⟨content, rfl, hget | ⟨target, hget⟩⟩ := rootIgnore_cases hlist hcontents
  · obtain rfl := Except.ok.inj hroots
    simp at hfile
  · have hmem := mem_nestedIgnores hlist hget hnested
    obtain ⟨hidesBelow, hread, hin⟩ := exists_mem_readIgnores hfiles hmem
    rw [readIgnores, hread] at hroots
    obtain rfl := Except.ok.inj hroots
    obtain rfl := List.mem_singleton.mp hfile
    have hclear := isIgnored_eq_false_iff.mp hnames _ (List.mem_map_of_mem hin)
    rw [IgnoreFile.lenient_hides hhides] at hclear
    simp at hclear
  · exact absurd hget (hlink target)

/-! ### The files of a workspace -/

theorem shown_of_mem_sourceFiles {o : Options} {path : List String} {ignores : List IgnoreFile}
    (hform : h.tree.WellFormed) (hignores : o.ignoreFiles h root = .ok ignores)
    (hmem : path ∈ (sourceFiles h o root).files) :
    ∃ entries, h.list root = .ok entries ∧ ∀ front, front <+: path → front ≠ [] →
      isHidden (isIgnored ignores) o.exclude front = .ok false := by
  rw [sourceFiles, hignores] at hmem
  obtain ⟨entries, hlist, hmem⟩ := exists_of_mem_search hmem
  have htop : (Node.folder entries).Distinct := Host.list_distinct hform.distinct hlist
  obtain ⟨path, rfl, ⟨content, hreaches⟩, -⟩ := finds_of_mem_files htop hmem
  exact ⟨entries, hlist, hreaches.shown⟩

/-- A search that reads some ignore files and one that reads others, both complete: the second finds
what the first finds if its ignore files hide nothing on the way to that. -/
theorem sourceFiles_sublist {o o' : Options} {ignores : List IgnoreFile}
    (hform : h.tree.WellFormed) (hsuffix : o.suffix = o'.suffix) (hexclude : o.exclude = o'.exclude)
    (hfirst : (sourceFiles h o root).fault = none) (hsecond : (sourceFiles h o' root).fault = none)
    (hignores : o'.ignoreFiles h root = .ok ignores)
    (hshown : ∀ path ∈ (sourceFiles h o root).files, ∀ front, front <+: path → front ≠ [] →
      isIgnored ignores front ≠ .ok true) :
    (sourceFiles h o root).files.Sublist (sourceFiles h o' root).files := by
  obtain ⟨fault, -, hfailed⟩ | ⟨all, -, hfiles⟩ := sourceFiles_cases h o root
  · simp [hfailed, Listing.failed] at hfirst
  rw [hfiles] at hfirst hshown ⊢
  rw [sourceFiles, hignores] at hsecond ⊢
  unfold search at hfirst hsecond hshown ⊢
  cases hlist : h.list root with
  | error fault => simp [hlist, Listing.failed] at hfirst
  | ok entries =>
    simp only [hlist] at hfirst hsecond hshown ⊢
    have htop : (Node.folder entries).Distinct := Host.list_distinct hform.distinct hlist
    refine files_sublist htop (fun name hname => ?_) (fun path hfinds front hfront hne => ?_)
      hsecond
    · rwa [Options.rules, ← hsuffix]
    · obtain ⟨⟨content, hreaches⟩, -⟩ := id hfinds
      have hmem := mem_files_of_finds hfirst hfinds
      have hclear := (isHidden_eq_false_iff.mp (hreaches.shown front hfront hne)).2
      intro hhidden
      obtain hignored | ⟨-, hexcluded⟩ := isHidden_eq_true_iff.mp hhidden
      · exact hshown path hmem front hfront hne hignored
      · rw [← hexclude] at hexcluded
        exact Bool.false_ne_true (hclear.symm.trans hexcluded)

/-- **Nested ignore files.** Let two searches be complete, one that asks for the ignore file at the
root alone and one that asks for those of all folders. The second finds a part of what the first
finds, in the same order, exactly if the ignore file at the root hides nothing on the way to it.
This holds whenever that file is missing or no link. -/
theorem nested_sublist_iff (h : Host) (o : Options) (root : Path) (hform : h.tree.WellFormed)
    (hplain : (sourceFiles h { o with nestedIgnore := false } root).fault = none)
    (hnested : (sourceFiles h { o with nestedIgnore := true } root).fault = none) :
    let plain := (sourceFiles h { o with nestedIgnore := false } root).files
    let nested := (sourceFiles h { o with nestedIgnore := true } root).files
    (nested.Sublist plain ↔
        ∀ ignores, Options.ignoreFiles { o with nestedIgnore := false } h root = .ok ignores →
          ∀ path ∈ nested, ∀ front, front <+: path → front ≠ [] →
            isIgnored ignores front = .ok false) ∧
      ((∀ entries, h.list root = .ok entries →
          ∀ target, entries.get? ignoreName ≠ some (.link target)) → nested.Sublist plain) := by
  intro plain nested
  obtain ⟨fault, -, hfailed⟩ | ⟨ignores, hignores, -⟩ :=
    sourceFiles_cases h { o with nestedIgnore := false } root
  · simp [hfailed, Listing.failed] at hplain
  obtain ⟨fault, -, hfailed⟩ | ⟨all, hall, -⟩ :=
    sourceFiles_cases h { o with nestedIgnore := true } root
  · simp [hfailed, Listing.failed] at hnested
  have hsublist : (∀ path ∈ nested, ∀ front, front <+: path → front ≠ [] →
      isIgnored ignores front ≠ .ok true) → nested.Sublist plain := by
    exact sourceFiles_sublist hform rfl rfl hnested hplain hignores
  refine ⟨⟨fun hsub ignores' hignores' path hmem front hfront hne => ?_, fun hshown => ?_⟩,
    fun hlink => hsublist fun path hmem front hfront hne => ?_⟩
  · obtain ⟨entries, -, hshown⟩ := shown_of_mem_sourceFiles hform hignores' (hsub.subset hmem)
    exact (isHidden_eq_false_iff.mp (hshown front hfront hne)).1
  · refine hsublist fun path hmem front hfront hne => ?_
    simp [hshown ignores hignores path hmem front hfront hne]
  · obtain ⟨entries, hlist, hshown⟩ := shown_of_mem_sourceFiles hform hall hmem
    refine not_isIgnored_of_nested hlist (hlink entries hlist) hignores hall ?_
    exact (isHidden_eq_false_iff.mp (hshown front hfront hne)).1

/-- An ignore file at the root that hides one file, and one below that hides another. -/
theorem nested_sublist_iff_two_files :
    let text (s : String) : Node := .file s.toUTF8.toList
    let below : Entries := .cons ".gitignore" (text "b.ve") <| .cons "b.ve" (text "") .nil
    let entries : Entries :=
      .cons ".gitignore" (text "a.ve") <| .cons "a.ve" (text "") <|
        .cons "c.ve" (text "") <| .cons "d" (.folder below) .nil
    let host : Host := ⟨.folder entries, [], "", []⟩
    let found (isNested : Bool) : Listing :=
      sourceFiles host { nestedIgnore := isNested } ⟨.top, []⟩
    host.tree.WellFormed ∧ (found false).fault = none ∧ (found true).fault = none ∧
      (found false).files = [["d", "b.ve"], ["c.ve"]] ∧ (found true).files = [["c.ve"]] ∧
      (found true).files.Sublist (found false).files := by
  intro text below entries host found
  have hform : host.tree.WellFormed := by decide +kernel
  have hplain : (found false).fault = none := by decide +kernel
  have hcontents : nestedIgnores host ⟨.top, []⟩ =
      .ok [([], "a.ve".toUTF8.toList), (["d"], "b.ve".toUTF8.toList)] :=
    congrArg Except.ok (List.mergeSort_of_pairwise (by decide +kernel))
  have hfound : (found true).files = [["c.ve"]] ∧ (found true).fault = none := by
    simp only [found]
    rw [sourceFiles, Options.ignoreFiles, Options.ignoreContents, if_pos rfl, hcontents]
    decide +kernel
  have hlink : ∀ entries, host.list ⟨.top, []⟩ = .ok entries →
      ∀ target, entries.get? ignoreName ≠ some (.link target) := by
    intro entries' hlist target
    obtain rfl := Except.ok.inj hlist
    simp [entries, Entries.get?, ignoreName, text]
  exact ⟨hform, hplain, hfound.2, by decide +kernel, hfound.1,
    (nested_sublist_iff host {} ⟨.top, []⟩ hform hplain hfound.2).2 hlink⟩

/-- A link to an ignore file at the root: asking for the ignore files of all folders shows a file
that was hidden. -/
theorem nested_shows_file_behind_link :
    let entries : Entries :=
      .cons ".gitignore" (.link "../rules") <| .cons "a.ve" (.file []) .nil
    let tree : Node :=
      .folder (.cons "rules" (.file "a.ve\n".toUTF8.toList) <| .cons "w" (.folder entries) .nil)
    let host : Host := ⟨tree, [], "", []⟩
    let found (isNested : Bool) : Listing :=
      sourceFiles host { nestedIgnore := isNested } ⟨.top, ["w"]⟩
    host.tree.WellFormed ∧ (found false).fault = none ∧ (found true).fault = none ∧
      (found false).files = [] ∧ (found true).files = [["a.ve"]] ∧
      ¬ (found true).files.Sublist (found false).files := by
  decide +kernel

end VeLens.Workspace
