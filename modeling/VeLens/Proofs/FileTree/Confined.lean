import VeLens.Proofs.FileTree.Resolving

/-!
# Paths that stay below a folder

In a tree without links a path is followed one name after the other, and double dots lead one folder
up. Names that never lead above the folder from which they are followed show nothing of the tree but
what lies below that folder.

## Main definitions

* `Path.staysBelow`: names that never lead above the folder from which they are followed.
* `Path.IsConfined`: a path that leads to something below any folder from which it is read.
* `Host.entriesBelow`: all that lies below a path.

## Main results

* `follow_eq_foldlM`: in a tree without links names are followed one by one.
* `foldlM_enter_append`: names that stay below a folder are followed as in the tree of that folder.
* `Host.content_confined`: what a confined path leads to, read off what lies below.
* `Host.content_above`: what a path with leading double dots leads to.
-/

namespace VeLens

variable {tree node sub : Node} {entries : Entries} {trail base : Trail} {name : String}
  {names rest : List String}

theorem Entries.links_of_get? (hfree : entries.links = []) (hget : entries.get? name = some node) :
    node.links = [] := by
  rw [List.eq_nil_iff_forall_not_mem]
  intro names hnames
  have hmem := Entries.mem_links (Entries.mem_toList_of_get? hget) hnames
  rw [hfree] at hmem
  exact List.not_mem_nil hmem

/-! ### One name after the other -/

/-- Follows a single name. What is found is not followed any further, whatever it is. -/
def Trail.enter (tree : Node) (trail : Trail) (name : String) : Except FileCause Trail :=
  match trail.node tree with
  | .folder entries =>
    if name = "." then .ok trail
    else if name = ".." then .ok trail.tail
    else if nameLimit < name.utf8ByteSize then .error .nameTooLong
    else
      match entries.get? name with
      | none => .error .missing
      | some node => .ok ((name, node) :: trail)
  | _ => .error .notFolder

namespace Trail

/-- A name that can be followed stands for the same folder, for the one above, or for an entry. -/
theorem enter_cases {trail' : Trail} (henter : trail.enter tree name = .ok trail') :
    ∃ entries, trail.node tree = .folder entries ∧
      (name = "." ∧ trail' = trail ∨ name = ".." ∧ trail' = trail.tail ∨
        name ≠ "." ∧ name ≠ ".." ∧
          ∃ node, entries.get? name = some node ∧ trail' = (name, node) :: trail) := by
  rw [enter] at henter
  split at henter
  · next entries hfolder =>
    refine ⟨entries, hfolder, ?_⟩
    by_cases hdot : name = "."
    · rw [if_pos hdot] at henter
      exact .inl ⟨hdot, (Except.ok.inj henter).symm⟩
    · by_cases hdots : name = ".."
      · rw [if_neg hdot, if_pos hdots] at henter
        exact .inr (.inl ⟨hdots, (Except.ok.inj henter).symm⟩)
      · rw [if_neg hdot, if_neg hdots] at henter
        split at henter
        · simp at henter
        · split at henter
          · simp at henter
          · next node hget =>
            exact .inr (.inr ⟨hdot, hdots, node, hget, (Except.ok.inj henter).symm⟩)
  · simp at henter

/-- No links lie below anything that the walk has come through. -/
def LinkFree (trail : Trail) : Prop := ∀ entry ∈ trail, entry.2.links = []

theorem LinkFree.links_node (htrail : trail.LinkFree) (htree : tree.links = []) :
    (trail.node tree).links = [] := by
  cases trail with
  | nil => exact htree
  | cons entry trail => exact htrail entry List.mem_cons_self

theorem LinkFree.enter {trail' : Trail} (htrail : trail.LinkFree) (htree : tree.links = [])
    (henter : trail.enter tree name = .ok trail') : trail'.LinkFree := by
  obtain ⟨entries, hfolder, ⟨-, rfl⟩ | ⟨-, rfl⟩ | ⟨-, -, node, hget, rfl⟩⟩ := enter_cases henter
  · exact htrail
  · exact fun entry hentry => htrail entry (List.mem_of_mem_tail hentry)
  · have hlinks := htrail.links_node htree
    rw [hfolder] at hlinks
    exact List.forall_mem_cons.mpr ⟨Entries.links_of_get? hlinks hget, htrail⟩

end Trail

theorem followNames_cons_of_linkFree (goOn : Trail → List String → Except FileCause Trail)
    (htree : tree.links = []) (htrail : trail.LinkFree) (names : List String) :
    followNames tree goOn trail (name :: names) =
      trail.enter tree name >>= fun next => followNames tree goOn next names := by
  have hlinks := htrail.links_node htree
  rw [followNames, Trail.enter]
  cases hnode : trail.node tree with
  | file content => rfl
  | link target => rfl
  | folder entries =>
    rw [hnode] at hlinks
    by_cases hdot : name = "."
    · simp only [hdot, if_true]
      rfl
    · by_cases hdots : name = ".."
      · simp only [if_neg hdot, if_pos hdots]
        rfl
      · by_cases hlong : nameLimit < name.utf8ByteSize
        · simp only [if_neg hdot, if_neg hdots, if_pos hlong]
          rfl
        · simp only [if_neg hdot, if_neg hdots, if_neg hlong]
          cases hget : entries.get? name with
          | none => rfl
          | some child =>
            cases child with
            | file content => rfl
            | folder below => rfl
            | link target => exact absurd (Entries.links_of_get? hlinks hget) (by simp [Node.links])

theorem followNames_eq_foldlM (goOn : Trail → List String → Except FileCause Trail)
    (htree : tree.links = []) (htrail : trail.LinkFree) :
    followNames tree goOn trail names = names.foldlM (Trail.enter tree) trail := by
  induction names generalizing trail with
  | nil => rfl
  | cons name names ih =>
    rw [followNames_cons_of_linkFree goOn htree htrail, List.foldlM_cons]
    cases henter : trail.enter tree name with
    | error cause => rfl
    | ok next => exact ih (htrail.enter htree henter)

/-- In a tree without links names are followed one by one, and the number of links does not
matter. -/
theorem follow_eq_foldlM (htree : tree.links = []) (htrail : trail.LinkFree) (links : Nat)
    (names : List String) :
    follow tree links trail names = names.foldlM (Trail.enter tree) trail := by
  cases links with
  | zero => exact followNames_eq_foldlM _ htree htrail
  | succ links => exact followNames_eq_foldlM _ htree htrail

theorem Trail.LinkFree.foldlM {trail' : Trail} (htrail : trail.LinkFree) (htree : tree.links = [])
    (hfold : names.foldlM (Trail.enter tree) trail = .ok trail') : trail'.LinkFree := by
  induction names generalizing trail with
  | nil => exact Except.ok.inj hfold ▸ htrail
  | cons name names ih =>
    rw [List.foldlM_cons] at hfold
    cases henter : trail.enter tree name with
    | error cause =>
      rw [henter] at hfold
      simp [bind, Except.bind] at hfold
    | ok next =>
      rw [henter] at hfold
      exact ih (htrail.enter htree henter) hfold

theorem Host.presentTrail_linkFree {h : Host} (hfree : h.tree.links = []) :
    h.presentTrail.LinkFree := by
  have hstart : Trail.LinkFree [] := fun _ hentry => absurd hentry List.not_mem_nil
  rw [presentTrail]
  split
  · next trail hfollow =>
    rw [follow_eq_foldlM hfree hstart] at hfollow
    exact hstart.foldlM hfree hfollow
  · exact hstart

theorem foldlM_enter_of_not_folder (hne : names ≠ [])
    (hnode : ∀ entries, trail.node tree ≠ .folder entries) :
    names.foldlM (Trail.enter tree) trail = .error .notFolder := by
  obtain ⟨name, rest, rfl⟩ := List.exists_cons_of_ne_nil hne
  have henter : trail.enter tree name = .error .notFolder := by
    rw [Trail.enter]
    split
    · next entries hfolder => exact absurd hfolder (hnode entries)
    · rfl
  rw [List.foldlM_cons, henter]
  rfl

/-! ### Names that lead to an entry and back -/

theorem enter_of_get? (hfolder : trail.node tree = .folder entries) (hname : IsName name)
    (hlong : name.utf8ByteSize ≤ nameLimit) (hget : entries.get? name = some node) :
    trail.enter tree name = .ok ((name, node) :: trail) := by
  rw [Trail.enter, hfolder]
  simp only [if_neg hname.ne_dot, if_neg hname.ne_dots, if_neg (Nat.not_lt.mpr hlong), hget]

theorem foldlM_enter_append_of_ok {trail' : Trail}
    (hfold : names.foldlM (Trail.enter tree) trail = .ok trail') (more : List String) :
    (names ++ more).foldlM (Trail.enter tree) trail = more.foldlM (Trail.enter tree) trail' := by
  rw [List.foldlM_append, hfold]
  rfl

/-- Names that lead to an entry of the tree are followed to it. -/
theorem foldlM_enter_of_at? (hnames : ∀ name ∈ names, IsName name)
    (hlong : ∀ name ∈ names, name.utf8ByteSize ≤ nameLimit)
    (hat : (trail.node tree).at? names = some node) :
    ∃ trail', names.foldlM (Trail.enter tree) trail = .ok trail' ∧ trail'.node tree = node := by
  induction names generalizing trail with
  | nil => exact ⟨trail, rfl, Option.some_inj.mp hat⟩
  | cons name names ih =>
    obtain ⟨hname, hnames⟩ := List.forall_mem_cons.mp hnames
    obtain ⟨hsize, hlong⟩ := List.forall_mem_cons.mp hlong
    cases hfolder : trail.node tree with
    | file content => simp [hfolder, Node.at?] at hat
    | link target => simp [hfolder, Node.at?] at hat
    | folder entries =>
      rw [hfolder, Node.at?] at hat
      obtain ⟨child, hget, hchild⟩ := Option.bind_eq_some_iff.mp hat
      rw [List.foldlM_cons, enter_of_get? hfolder hname hsize hget]
      exact ih hnames hlong hchild

/-- As many double dots as there are names lead back to where the names were followed from. -/
theorem foldlM_enter_back (hnames : ∀ name ∈ names, IsName name)
    (hlong : ∀ name ∈ names, name.utf8ByteSize ≤ nameLimit)
    (hat : (trail.node tree).at? names = some (.folder entries)) :
    (names ++ List.replicate names.length "..").foldlM (Trail.enter tree) trail = .ok trail := by
  induction names generalizing trail with
  | nil => rfl
  | cons name names ih =>
    obtain ⟨hname, hnames⟩ := List.forall_mem_cons.mp hnames
    obtain ⟨hsize, hlong⟩ := List.forall_mem_cons.mp hlong
    cases hfolder : trail.node tree with
    | file content => simp [hfolder, Node.at?] at hat
    | link target => simp [hfolder, Node.at?] at hat
    | folder above =>
      rw [hfolder, Node.at?] at hat
      obtain ⟨child, hget, hchild⟩ := Option.bind_eq_some_iff.mp hat
      -- The names behind the first one lead to the child and back to it, and it is a folder.
      have hthere : (name :: (names ++ List.replicate names.length "..")).foldlM
          (Trail.enter tree) trail = .ok ((name, child) :: trail) := by
        rw [List.foldlM_cons, enter_of_get? hfolder hname hsize hget]
        exact ih hnames hlong hchild
      have hup : Trail.enter tree ((name, child) :: trail) ".." = .ok trail := by
        cases child with
        | folder below => rfl
        | file content => cases names <;> simp [Node.at?] at hchild
        | link target => cases names <;> simp [Node.at?] at hchild
      rw [List.length_cons, List.replicate_succ', ← List.append_assoc, List.cons_append,
        foldlM_enter_append_of_ok hthere, List.foldlM_cons, hup]
      rfl

/-! ### Names that stay below a folder -/

/-- The names, followed from a folder `depth` folders further down, never lead above the folder from
which the depth is counted. -/
def Path.staysBelow : (depth : Nat) → (names : List String) → Bool
  | _, [] => true
  | depth, name :: names =>
    if name = "." then staysBelow depth names
    else if name = ".." then depth != 0 && staysBelow (depth - 1) names
    else staysBelow (depth + 1) names

theorem Trail.node_append (tree : Node) (trail base : Trail) :
    Trail.node tree (trail ++ base) = Trail.node (base.node tree) trail := by
  cases trail <;> rfl

theorem enter_append (hstays : name = ".." → trail ≠ []) :
    Trail.enter tree (trail ++ base) name =
      (Trail.enter (base.node tree) trail name).map (· ++ base) := by
  rw [Trail.enter, Trail.enter, Trail.node_append]
  cases Trail.node (base.node tree) trail with
  | file content => rfl
  | link target => rfl
  | folder entries =>
    by_cases hdot : name = "."
    · simp only [if_pos hdot]
      rfl
    · by_cases hdots : name = ".."
      · simp only [if_neg hdot, if_pos hdots, List.tail_append_of_ne_nil (hstays hdots)]
        rfl
      · simp only [if_neg hdot, if_neg hdots]
        split
        · rfl
        · cases entries.get? name <;> rfl

theorem staysBelow_of_enter {trail' : Trail} (henter : trail.enter tree name = .ok trail')
    (hstays : Path.staysBelow trail.length (name :: names) = true) :
    Path.staysBelow trail'.length names = true := by
  rw [Path.staysBelow] at hstays
  obtain ⟨entries, -, ⟨hdot, rfl⟩ | ⟨rfl, rfl⟩ | ⟨hdot, hdots, node, -, rfl⟩⟩ :=
    Trail.enter_cases henter
  · rwa [if_pos hdot] at hstays
  · rw [if_neg (by decide), if_pos rfl, Bool.and_eq_true] at hstays
    rw [List.length_tail]
    exact hstays.2
  · rwa [if_neg hdot, if_neg hdots] at hstays

/-- Names that stay below a folder are followed there as in the tree of that folder alone. -/
theorem foldlM_enter_append (hstays : Path.staysBelow trail.length names = true) :
    names.foldlM (Trail.enter tree) (trail ++ base) =
      (names.foldlM (Trail.enter (base.node tree)) trail).map (· ++ base) := by
  induction names generalizing trail with
  | nil => rfl
  | cons name names ih =>
    have hup : name = ".." → trail ≠ [] := by
      rintro rfl rfl
      simp [Path.staysBelow] at hstays
    rw [List.foldlM_cons, List.foldlM_cons, enter_append hup]
    cases henter : Trail.enter (base.node tree) trail name with
    | error cause => rfl
    | ok next => exact ih (staysBelow_of_enter henter hstays)

namespace Path

/-- Read from any folder, the path leads to something below that folder, if it leads anywhere. -/
structure IsConfined (p : Path) : Prop where
  relative : p.isAbsolute = false
  ne_nil : p.names ≠ []
  stays : staysBelow 0 p.names = true

instance (p : Path) : Decidable p.IsConfined :=
  decidable_of_iff (p.isAbsolute = false ∧ p.names ≠ [] ∧ staysBelow 0 p.names = true)
    ⟨fun h => ⟨h.1, h.2.1, h.2.2⟩, fun h => ⟨h.relative, h.ne_nil, h.stays⟩⟩

end Path

/-! ### What lies below a path -/

/-- The content of the file at which a walk ends. -/
def Trail.file? (tree : Node) : Except FileCause Trail → Option (List UInt8)
  | .error _ => none
  | .ok trail =>
    match trail.node tree with
    | .file content => some content
    | _ => none

/-- The content of the file that some names lead to among the entries of a folder. -/
def Entries.fileAt? (entries : Entries) (names : List String) : Option (List UInt8) :=
  Trail.file? (.folder entries) (names.foldlM (Trail.enter (.folder entries)) [])

theorem Trail.file?_map_append (tree : Node) (base : Trail) (walk : Except FileCause Trail) :
    Trail.file? tree (walk.map (· ++ base)) = Trail.file? (base.node tree) walk := by
  cases walk with
  | error cause => rfl
  | ok trail =>
    change Trail.file? tree (.ok (trail ++ base)) = _
    rw [Trail.file?, Trail.node_append, Trail.file?]

theorem Entries.fileAt?_nil (hne : names ≠ []) (hdot : "." ∉ names)
    (hstays : Path.staysBelow 0 names = true) : Entries.nil.fileAt? names = none := by
  obtain ⟨name, rest, rfl⟩ := List.exists_cons_of_ne_nil hne
  have hname : name ≠ "." := fun heq => hdot (heq ▸ List.mem_cons_self)
  have hdots : name ≠ ".." := by
    rintro rfl
    simp [Path.staysBelow] at hstays
  have henter : ∃ cause, Trail.enter (.folder .nil) [] name = .error cause := by
    rw [Trail.enter, Trail.node]
    simp only [if_neg hname, if_neg hdots, Entries.get?]
    split
    · exact ⟨_, rfl⟩
    · exact ⟨_, rfl⟩
  obtain ⟨cause, hcause⟩ := henter
  rw [fileAt?, List.foldlM_cons, hcause]
  rfl

namespace Host

variable {h : Host} {p : Path}

/-- The entries of the folder that a path leads to, if it leads to one. -/
def entriesBelow (h : Host) (p : Path) : Entries :=
  match h.find p with
  | .ok node => node.entries
  | .error _ => .nil

/-- Where the walk along a path begins. -/
def start (h : Host) (p : Path) : Trail := if p.isAbsolute then [] else h.presentTrail

theorem start_linkFree (hfree : h.tree.links = []) (p : Path) : (h.start p).LinkFree := by
  rw [start]
  split
  · exact fun _ hentry => absurd hentry List.not_mem_nil
  · exact presentTrail_linkFree hfree

/-- In a tree without links a path is followed name by name. -/
theorem find_eq_foldlM (hfree : h.tree.links = []) (hnull : p.hasNull = false)
    (hshort : p.render.utf8ByteSize ≤ pathLimit) :
    h.find p = ((p.names.foldlM (Trail.enter h.tree) (h.start p)).mapError
      (Fault.file · p.render)).map (Trail.node h.tree) := by
  have hfollow := follow_eq_foldlM hfree (start_linkFree hfree p) linkLimit p.names
  rw [start] at hfollow
  rw [find, walk, if_neg (by simp [hnull]), if_neg (Nat.not_lt.mpr hshort), hfollow, start]
  cases p.names.foldlM (Trail.enter h.tree) (if p.isAbsolute then [] else h.presentTrail) <;> rfl

theorem content_eq_file? (hfree : h.tree.links = []) (hnull : p.hasNull = false)
    (hshort : p.render.utf8ByteSize ≤ pathLimit) :
    (h.content p).toOption =
      Trail.file? h.tree (p.names.foldlM (Trail.enter h.tree) (h.start p)) := by
  rw [content, find_eq_foldlM hfree hnull hshort]
  cases p.names.foldlM (Trail.enter h.tree) (h.start p) with
  | error cause => rfl
  | ok trail =>
    simp only [Except.mapError, Except.map, bind, Except.bind, Trail.file?]
    cases trail.node h.tree <;> rfl

theorem content_of_long (hnull : p.hasNull = false) (hlong : ¬ p.render.utf8ByteSize ≤ pathLimit) :
    h.content p = .error (.file .nameTooLong p.render) := by
  rw [content, find, walk, if_neg (by simp [hnull]), if_pos (Nat.lt_of_not_le hlong)]
  rfl

/-- What names below a folder lead to is decided by what lies below that folder. -/
theorem content_confined (hfree : h.tree.links = []) (folder : Path) (hne : names ≠ [])
    (hnames : ∀ name ∈ names, name ≠ "" ∧ name ≠ ".") (hstays : Path.staysBelow 0 names = true)
    (hnull : Path.hasNull ⟨folder.anchor, folder.names ++ names⟩ = false)
    (hshort : (Path.render ⟨folder.anchor, folder.names ++ names⟩).utf8ByteSize ≤ pathLimit) :
    (h.content ⟨folder.anchor, folder.names ++ names⟩).toOption =
      (h.entriesBelow folder).fileAt? names := by
  have hempty : "" ∉ names := fun hmem => (hnames _ hmem).1 rfl
  have hdot : "." ∉ names := fun hmem => (hnames _ hmem).2 rfl
  have hfolderNull : folder.hasNull = false := by
    rw [Path.hasNull, List.any_append, Bool.or_eq_false_iff] at hnull
    exact hnull.1
  have hfolderShort : folder.render.utf8ByteSize ≤ pathLimit :=
    Nat.le_trans (Path.utf8ByteSize_render_le folder.anchor folder.names hempty) hshort
  have hstart : h.start ⟨folder.anchor, folder.names ++ names⟩ = h.start folder := rfl
  rw [content_eq_file? hfree hnull hshort, hstart, List.foldlM_append, entriesBelow,
    find_eq_foldlM hfree hfolderNull hfolderShort]
  cases folder.names.foldlM (Trail.enter h.tree) (h.start folder) with
  | error cause => exact (Entries.fileAt?_nil hne hdot hstays).symm
  | ok base =>
    change Trail.file? h.tree (names.foldlM (Trail.enter h.tree) base) =
      (Trail.node h.tree base).entries.fileAt? names
    by_cases hfolder : ∃ entries, base.node h.tree = .folder entries
    · obtain ⟨entries, hnode⟩ := hfolder
      have hwalk : names.foldlM (Trail.enter h.tree) ([] ++ base) =
          (names.foldlM (Trail.enter (base.node h.tree)) []).map (· ++ base) :=
        foldlM_enter_append hstays
      rw [List.nil_append] at hwalk
      rw [hwalk, Trail.file?_map_append, hnode]
      rfl
    · -- A file has nothing below it, and neither has an empty folder.
      have hnone : (base.node h.tree).entries = .nil := by
        rw [Node.entries]
        exact not_exists.mp hfolder
      rw [foldlM_enter_of_not_folder hne (not_exists.mp hfolder), hnone,
        Entries.fileAt?_nil hne hdot hstays]
      rfl

/-- Double dots lead out of a folder, and what follows them is looked for above it. -/
theorem content_above {above inner : List String} {content : List UInt8}
    (hform : h.tree.WellFormed) (hfree : h.tree.links = [])
    (hfolder : h.tree.at? (above ++ inner) = some (.folder entries))
    (hfile : h.tree.at? (above ++ names) = some (.file content))
    (hlong : ∀ name ∈ above ++ inner ++ names, name.utf8ByteSize ≤ nameLimit)
    (hp : p = ⟨.top, above ++ inner ++ (List.replicate inner.length ".." ++ names)⟩)
    (hshort : p.render.utf8ByteSize ≤ pathLimit) : (h.content p).toOption = some content := by
  obtain ⟨hinner, -⟩ := hform.of_at? hfolder
  obtain ⟨hnames, -⟩ := hform.of_at? hfile
  simp only [List.forall_mem_append] at hlong hinner hnames
  have hnull : p.hasNull = false := by
    rw [hp, Path.hasNull, List.any_eq_false]
    intro name hmem
    have hno : Char.ofNat 0 ∉ name.toList := by
      simp only [List.mem_append, List.mem_replicate] at hmem
      obtain (hmem | hmem) | ⟨-, rfl⟩ | hmem := hmem
      · exact (hinner.1 name hmem).no_null
      · exact (hinner.2 name hmem).no_null
      · decide
      · exact (hnames.2 name hmem).no_null
    simpa using hno
  rw [Node.at?_append] at hfolder hfile
  obtain ⟨top, htop, hfolder⟩ := Option.bind_eq_some_iff.mp hfolder
  rw [htop, Option.bind_some] at hfile
  change (Trail.node h.tree []).at? above = some top at htop
  obtain ⟨base, hbase, rfl⟩ := foldlM_enter_of_at? hinner.1 hlong.1.1 htop
  obtain ⟨last, hlast, hnode⟩ := foldlM_enter_of_at? hnames.2 hlong.2 hfile
  have hback := foldlM_enter_back hinner.2 hlong.1.2 hfolder
  have hwalk : p.names.foldlM (Trail.enter h.tree) [] = .ok last := by
    rw [hp, List.append_assoc, ← List.append_assoc inner, foldlM_enter_append_of_ok hbase,
      foldlM_enter_append_of_ok hback, hlast]
  have hstart : h.start p = [] := by rw [hp]; rfl
  rw [content_eq_file? hfree hnull hshort, hstart, hwalk, Trail.file?, hnode]

end Host

end VeLens
