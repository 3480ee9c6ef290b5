import VeLens.Catalog.Modules
import VeLens.Proofs.FileTree.Confined
import VeLens.Proofs.FileTree.Faults

/-!
# The reach of imports

An import of a standard module names a file by a path that is read from the library folder. The path
is free text. If it stays below the library, the functions of the module depend on nothing else. An
absolute path is read as it stands, wherever the library is, and double dots lead to the folders
above the library.

## Main definitions

* `importedPath?`: the path that an import stands for, read from the library.
* `functionsIn`: the functions that a file declares.

## Main results

* `outcome_standardFunctions`: the functions of a module are those in the file at its path.
* `standardFunctions_confined`: what the functions of a module depend on.
-/

namespace VeLens.Catalog

open Text

variable {h h' : Host} {folder : Path} {module suffix : String} {p : Path}

/-- The path of the file that an imported module stands for, to be read from the library. -/
def importedPath? (module suffix : String) : Option Path :=
  (after? ModuleName.standardMark module.toList).map fun name =>
    Path.parse (String.ofList name ++ suffix)

/-- The functions that a file declares. A file that is missing or no text declares none. -/
def functionsIn : Option (List UInt8) → List Signature
  | none => []
  | some content =>
    match File.text content with
    | .ok text => signatures text
    | .error _ => []

theorem standardFunctions_of_not_standard (hnone : importedPath? module suffix = none)
    (h : Host) (library : Option Path) : standardFunctions h library module suffix = pure [] := by
  rw [importedPath?, Option.map_eq_none_iff] at hnone
  unfold standardFunctions
  rw [hnone]
  cases library <;> rfl

/-- The functions of a standard module are those in the file at its path. Only a null character in
the path is a fault. -/
theorem outcome_standardFunctions (hp : importedPath? module suffix = some p) :
    (standardFunctions h (some folder) module suffix).outcome =
      if (folder.join p).hasNull then .error .nullInPath
      else .ok (functionsIn (h.content (folder.join p)).toOption) := by
  obtain ⟨name, hname, rfl⟩ := Option.map_eq_some_iff.mp hp
  unfold standardFunctions
  simp only [hname, Path.joinText, Host.text]
  generalize folder.join (Path.parse (String.ofList name ++ suffix)) = path
  by_cases hnull : path.hasNull = true
  · rw [Host.content_of_hasNull hnull, if_pos hnull]
    rfl
  · rw [if_neg hnull]
    cases hcontent : h.content path with
    | ok content =>
      simp only [Except.toOption, functionsIn, bind, Except.bind]
      cases File.text content <;> rfl
    | error fault =>
      obtain ⟨-, hnull'⟩ | ⟨cause, text, rfl⟩ := h.content_fails path fault hcontent
      · exact absurd hnull' hnull
      · cases cause <;> rfl

/-- A confined path leads to the same content wherever the same things lie below the library. -/
theorem content_eq_of_confined (hfree : h.tree.links = []) (hfree' : h'.tree.links = [])
    (hagree : h.entriesBelow folder = h'.entriesBelow folder)
    (hp : importedPath? module suffix = some p) (hconfined : p.IsConfined)
    (hnull : (folder.join p).hasNull = false) :
    (h.content (folder.join p)).toOption = (h'.content (folder.join p)).toOption := by
  have hnames : ∀ name ∈ p.names, name ≠ "" ∧ name ≠ "." := by
    obtain ⟨name, -, rfl⟩ := Option.map_eq_some_iff.mp hp
    exact fun _ hmem => Path.ne_of_mem_parse hmem
  have hjoin : folder.join p = ⟨folder.anchor, folder.names ++ p.names⟩ := by
    rw [Path.join, if_neg (by simp [hconfined.relative])]
  rw [hjoin] at hnull ⊢
  by_cases hshort : (Path.render ⟨folder.anchor, folder.names ++ p.names⟩).utf8ByteSize ≤ pathLimit
  · rw [Host.content_confined hfree folder hconfined.ne_nil hnames hconfined.stays hnull hshort,
      Host.content_confined hfree' folder hconfined.ne_nil hnames hconfined.stays hnull hshort,
      hagree]
  · rw [Host.content_of_long hnull hshort, Host.content_of_long hnull hshort]

/-- **What the functions of a standard module depend on.** If the path of the import is confined,
they depend on what lies below the library only: in any two trees without links in which the same
things lie below the library, the answer is the same. If the path is absolute, the answer is found
at that path, wherever the library is. If the path begins with as many double dots as the library
has names below some folder, then the file that the rest leads to from that folder is read. -/
theorem standardFunctions_confined (module suffix : String) :
    ((∀ p, importedPath? module suffix = some p → p.IsConfined) →
      ∀ (library : Option Path) (h h' : Host), h.tree.links = [] → h'.tree.links = [] →
        (∀ folder, library = some folder → h.entriesBelow folder = h'.entriesBelow folder) →
        (standardFunctions h library module suffix).outcome =
          (standardFunctions h' library module suffix).outcome) ∧
    (∀ p, importedPath? module suffix = some p → p.isAbsolute = true → ∀ (h : Host) (folder : Path),
      (standardFunctions h (some folder) module suffix).outcome =
        if p.hasNull then .error .nullInPath else .ok (functionsIn (h.content p).toOption)) ∧
    ∀ (h : Host) (above inner names : List String) (entries : Entries) (content : List UInt8),
      importedPath? module suffix = some ⟨.here, List.replicate inner.length ".." ++ names⟩ →
      h.tree.WellFormed → h.tree.links = [] →
      h.tree.at? (above ++ inner) = some (.folder entries) →
      h.tree.at? (above ++ names) = some (.file content) →
      (∀ name ∈ above ++ inner ++ names, name.utf8ByteSize ≤ nameLimit) →
      (Path.render ⟨.top, above ++ inner ++
        (List.replicate inner.length ".." ++ names)⟩).utf8ByteSize ≤ pathLimit →
      (standardFunctions h (some ⟨.top, above ++ inner⟩) module suffix).outcome =
        .ok (functionsIn (some content)) := by
  refine ⟨?_, ?_, ?_⟩
  · intro hconfined library h h' hfree hfree' hagree
    cases hp : importedPath? module suffix with
    | none =>
      rw [standardFunctions_of_not_standard hp, standardFunctions_of_not_standard hp]
    | some p =>
      cases library with
      | none => rfl
      | some folder =>
        rw [outcome_standardFunctions hp, outcome_standardFunctions hp]
        by_cases hnull : (folder.join p).hasNull = true
        · rw [if_pos hnull, if_pos hnull]
        · rw [if_neg hnull, if_neg hnull, content_eq_of_confined hfree hfree' (hagree folder rfl) hp
            (hconfined p hp) (by simpa using hnull)]
  · intro p hp habsolute h folder
    have hjoin : folder.join p = p := by rw [Path.join, if_pos habsolute]
    rw [outcome_standardFunctions hp, hjoin]
  · intro h above inner names entries content hp hform hfree hfolder hfile hlong hshort
    have hcontent := Host.content_above hform hfree hfolder hfile hlong rfl hshort
    have hnull : Path.hasNull ⟨.top, above ++ inner ++
        (List.replicate inner.length ".." ++ names)⟩ ≠ true := by
      intro hnull
      rw [Host.content_of_hasNull hnull] at hcontent
      simp [Except.toOption] at hcontent
    rw [outcome_standardFunctions hp]
    change (if Path.hasNull ⟨.top, above ++ inner ++ _⟩ then _ else _) = _
    rw [if_neg hnull]
    exact congrArg (Except.ok ∘ functionsIn) hcontent

/-- A module in a folder of the library, reached over another folder and back, in two trees that
differ beside the library. The file beside the library is read as well, by an absolute path and by
one that climbs. -/
theorem standardFunctions_confined_beside :
    let library : Entries := .cons "a" (.folder .nil)
      (.cons "b" (.folder (.cons "m.ve" (.file "fn g(x)".toUTF8.toList) .nil)) .nil)
    let host (content : List UInt8) : Host :=
      ⟨.folder (.cons "lib" (.folder library) (.cons "x.ve" (.file content) .nil)), [], "", []⟩
    let functions (content : List UInt8) (module : String) :=
      (standardFunctions (host content) (some ⟨.top, ["lib"]⟩) module ".ve").outcome
    let other := "fn f()".toUTF8.toList
    functions [] "std/a/../b/m" = .ok [⟨"g", "x", ["x"]⟩] ∧
      functions other "std/a/../b/m" = functions [] "std/a/../b/m" ∧
      functions other "std//x" = .ok (functionsIn (some other)) ∧
      functions other "std/../x" = .ok (functionsIn (some other)) := by
  intro library host functions other
  refine ⟨by decide +kernel, ?_, ?_, ?_⟩
  · refine (standardFunctions_confined "std/a/../b/m" ".ve").1 ?_ _ _ _ rfl rfl ?_
    · intro p hp
      have hpath : importedPath? "std/a/../b/m" ".ve" = some ⟨.here, ["a", "..", "b", "m.ve"]⟩ := by
        decide +kernel
      obtain rfl := Option.some_inj.mp (hpath.symm.trans hp)
      decide +kernel
    · intro folder hfolder
      obtain rfl := Option.some_inj.mp hfolder
      rfl
  · exact (standardFunctions_confined "std//x" ".ve").2.1 ⟨.top, ["x.ve"]⟩ (by decide +kernel) rfl
      (host other) _
  · exact (standardFunctions_confined "std/../x" ".ve").2.2 (host other) [] ["lib"] ["x.ve"] library
      other (by decide +kernel) (by decide +kernel) rfl rfl rfl (by decide +kernel)
      (by decide +kernel)

/-- Two trees without links in which the same lies below the library, and two imports that find a
function in one of them and none in the other. -/
theorem standardFunctions_outside_library :
    let host (content : List UInt8) : Host :=
      ⟨.folder (.cons "lib" (.folder .nil) (.cons "x.ve" (.file content) .nil)), [], "", []⟩
    let functions (content : List UInt8) (module : String) :=
      (standardFunctions (host content) (some ⟨.top, ["lib"]⟩) module ".ve").outcome
    let secret := "fn f()".toUTF8.toList
    (host secret).tree.links = [] ∧ (host []).tree.links = [] ∧
      (host secret).entriesBelow ⟨.top, ["lib"]⟩ = (host []).entriesBelow ⟨.top, ["lib"]⟩ ∧
      functions secret "std/../x" = .ok [⟨"f", "", []⟩] ∧ functions [] "std/../x" = .ok [] ∧
      functions secret "std//x" = .ok [⟨"f", "", []⟩] ∧ functions [] "std//x" = .ok [] := by
  intro host functions secret
  refine ⟨rfl, rfl, rfl, ?_⟩
  decide +kernel

end VeLens.Catalog
