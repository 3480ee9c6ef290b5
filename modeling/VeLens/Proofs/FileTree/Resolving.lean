import VeLens.FileTree.Resolve
import VeLens.Proofs.FileTree.Paths
import VeLens.Proofs.FileTree.Walks

/-!
# Resolved paths

Resolving a path and walking along it come to the same place. Resolving keeps a record of the links
that it has met, and where it meets a link that it is still following, it gives up. This never
happens on the way of a walk that comes to an end: the number of links on a walk is determined, and
inside a link it is smaller than with the link itself.

## Main definitions

* `Node.links`, `Host.LinksInReach`: the links of a tree, and that none is too deep to be seen.
* `Known.Open`, `Known.Done`: what is true of the record of links while a path is resolved.
* `Host.Resolves`: resolving names ends at a place and keeps the record true.

## Main results

* `Host.resolveFrom_of_hasLink`: resolving goes on where a link leads.
* `Host.resolves_of_follows`: resolving the names of a walk ends where the walk ends.
* `Host.resolve_below`, `Host.resolve_of_list`: a file below a folder is resolved to its place below
  the resolved folder.
-/

namespace VeLens

open Text

mutual

/-- The names that lead to the links of a tree. -/
def Node.links : Node → List (List String)
  | .link _ => [[]]
  | .file _ => []
  | .folder entries => entries.links

/-- The names that lead to the links below some entries. -/
def Entries.links : Entries → List (List String)
  | .nil => []
  | .cons name node rest => node.links.map (name :: ·) ++ rest.links

end

theorem Entries.mem_links {entries : Entries} {name : String} {node : Node} {names : List String}
    (hentry : (name, node) ∈ entries.toList) (hnames : names ∈ node.links) :
    name :: names ∈ entries.links := by
  fun_induction toList entries with
  | case1 => simp at hentry
  | case2 n child rest ih =>
    rw [links, List.mem_append]
    rcases List.mem_cons.mp hentry with heq | hentry
    · obtain ⟨rfl, rfl⟩ := Prod.mk.inj heq
      exact .inl (List.mem_map_of_mem hnames)
    · exact .inr (ih hentry)

theorem Node.mem_links {node : Node} {names : List String} {target : String}
    (hat : node.at? names = some (.link target)) : names ∈ node.links := by
  fun_induction Node.at? node names with
  | case1 node =>
    obtain rfl := Option.some_inj.mp hat
    exact List.mem_singleton_self []
  | case2 name names entries ih =>
    obtain ⟨child, hget, hchild⟩ := Option.bind_eq_some_iff.mp hat
    exact Entries.mem_links (Entries.mem_toList_of_get? hget) (ih child hchild)
  | case3 => simp at hat

/-- Every link of the tree stands at a path that is not too long. -/
def Host.LinksInReach (h : Host) : Prop :=
  ∀ names ∈ h.tree.links, (Path.render ⟨.top, names⟩).utf8ByteSize ≤ pathLimit

instance (h : Host) : Decidable h.LinksInReach := inferInstanceAs (Decidable (∀ _ ∈ _, _))

/-! ### Links at paths -/

theorem Path.collapsed_eq_self {names : List String} (hdots : ".." ∉ names) :
    Path.collapsed names = names := by
  have hfold : ∀ before, names.foldl
      (fun before name => if name = ".." then before.dropLast else before ++ [name]) before =
        before ++ names := by
    induction names with
    | nil => simp
    | cons name names ih =>
      obtain ⟨hname, hnames⟩ := not_or.mp (mt List.mem_cons.mpr hdots)
      intro before
      rw [List.foldl_cons, if_neg (Ne.symm hname), ih hnames]
      simp
  exact (hfold []).trans (List.nil_append names)

namespace Host

variable {h : Host} {names : List String} {node : Node} {target : String}

theorem absolute_of_at? (hform : h.tree.WellFormed) (hat : h.tree.at? names = some node) :
    h.absolute ⟨.top, names⟩ = ⟨.top, names⟩ := by
  have hdots : ".." ∉ names := fun hmem => ((hform.of_at? hat).1 _ hmem).ne_dots rfl
  rw [absolute, Path.collapsed_eq_self hdots]

theorem linkAt?_of_not_link (hform : h.tree.WellFormed) (hat : h.tree.at? names = some node)
    (hnode : ∀ target, node ≠ .link target) : h.linkAt? ⟨.top, names⟩ = none := by
  rw [linkAt?, absolute_of_at? hform hat, hat]
  split
  · rfl
  · split
    · next target heq => exact absurd (Option.some_inj.mp heq) (hnode target)
    · rfl

theorem linkAt?_of_link (hform : h.tree.WellFormed) (hreach : h.LinksInReach)
    (hat : h.tree.at? names = some (.link target)) : h.linkAt? ⟨.top, names⟩ = some target := by
  have hshort := hreach names (Node.mem_links hat)
  rw [linkAt?, absolute_of_at? hform hat, hat, if_neg (Nat.not_lt.mpr hshort)]

/-! ### Pieces of a path -/

/-- The names among the pieces of a path. -/
def steps (pieces : List (List Char)) : List String :=
  (pieces.filter fun piece => piece ≠ [] ∧ piece ≠ ['.']).map String.ofList

theorem steps_append (ps qs : List (List Char)) : steps (ps ++ qs) = steps ps ++ steps qs := by
  simp [steps]

theorem steps_steps (ps : List (List Char)) : steps ((steps ps).map String.toList) = steps ps := by
  simp [steps, List.map_map, Function.comp_def]

/-- The names that a walk follows at a link are those of its target. -/
theorem steps_linkSteps (target : String) :
    steps ((linkSteps target).map String.toList) = steps (pieces '/' target.toList) := by
  have hnames : Path.namesOf target.toList = steps (pieces '/' target.toList) := rfl
  have hdots : ∀ p : Prop, [Decidable p] →
      steps ((if p then ["."] else []).map String.toList) = [] := by
    intro p _
    split <;> decide
  rw [linkSteps, List.map_append, steps_append, hnames, steps_steps, hdots, List.append_nil]

variable {depth : Nat} {known known' : Known} {here place : Path} {piece : List Char}
  {rest : List (List Char)} {resolved : Known × Path}

/-- Empty pieces and single dots do not matter. -/
theorem resolvePieces_eq_ok_iff
    {resolveTarget : Known → Path → List (List Char) → Except Stop (Known × Path)}
    {pieces : List (List Char)} :
    h.resolvePieces resolveTarget known here pieces = .ok resolved ↔
      h.resolvePieces resolveTarget known here ((steps pieces).map String.toList) =
        .ok resolved := by
  induction pieces generalizing known here with
  | nil => rfl
  | cons piece rest ih =>
    by_cases hskip : piece = [] ∨ piece = ['.']
    · have hsteps : steps (piece :: rest) = steps rest := by
        rcases hskip with rfl | rfl <;> rfl
      rw [resolvePieces, if_pos hskip, hsteps, ih]
    · have hsteps : (steps (piece :: rest)).map String.toList =
          piece :: (steps rest).map String.toList := by
        simp [steps, not_or.mp hskip]
      rw [hsteps, resolvePieces, resolvePieces, if_neg hskip, if_neg hskip]
      split
      · exact ih
      · split
        · exact Iff.rfl
        · dsimp only
          split
          · exact ih
          · split
            · exact ih
            · simp
            · split
              · exact ih
              · simp
              · simp

theorem resolveFrom_eq_ok_iff {pieces : List (List Char)} :
    h.resolveFrom depth known here pieces = .ok resolved ↔
      h.resolveFrom depth known here ((steps pieces).map String.toList) = .ok resolved := by
  cases depth <;> exact resolvePieces_eq_ok_iff

theorem resolveFrom_nil (h : Host) (depth : Nat) (known : Known) (here : Path) :
    h.resolveFrom depth known here [] = .ok (known, here) := by
  cases depth <;> rfl

theorem resolveFrom_dot (h : Host) (depth : Nat) (known : Known) (here : Path)
    (rest : List (List Char)) :
    h.resolveFrom depth known here (['.'] :: rest) = h.resolveFrom depth known here rest := by
  cases depth <;> rfl

theorem resolveFrom_dots (h : Host) (depth : Nat) (known : Known) (here : Path)
    (rest : List (List Char)) :
    h.resolveFrom depth known here (['.', '.'] :: rest) =
      h.resolveFrom depth known here.up rest := by
  cases depth <;> rfl

variable {name : String}

/-- The name of an entry is none of the pieces that have a meaning of their own. -/
theorem piece_of_isName (hname : IsName name) :
    ¬ (name.toList = [] ∨ name.toList = ['.']) ∧ name.toList ≠ ['.', '.'] ∧
      ¬ name.toList.contains (Char.ofNat 0) = true := by
  have hempty : name.toList ≠ [] := mt String.toList_eq_nil_iff.mp hname.ne_empty
  have hdot : name.toList ≠ ['.'] := fun heq => hname.ne_dot (String.toList_inj.mp heq)
  have hdots : name.toList ≠ ['.', '.'] := fun heq => hname.ne_dots (String.toList_inj.mp heq)
  exact ⟨not_or.mpr ⟨hempty, hdot⟩, hdots, by simpa using hname.no_null⟩

theorem resolveFrom_enter (hname : IsName name) (hlink : h.linkAt? (here.below name) = none) :
    h.resolveFrom depth known here (name.toList :: rest) =
      h.resolveFrom depth known (here.below name) rest := by
  obtain ⟨hskip, hdots, hnull⟩ := piece_of_isName hname
  cases depth <;>
    simp only [resolveFrom, resolvePieces, if_neg hskip, if_neg hdots, if_neg hnull,
      String.ofList_toList, hlink]

theorem resolveFrom_known (hname : IsName name) (hlink : h.linkAt? (here.below name) = some target)
    (hknown : known.lookup (here.below name).render = some (some place)) :
    h.resolveFrom depth known here (name.toList :: rest) =
      h.resolveFrom depth known place rest := by
  obtain ⟨hskip, hdots, hnull⟩ := piece_of_isName hname
  cases depth <;>
    simp only [resolveFrom, resolvePieces, if_neg hskip, if_neg hdots, if_neg hnull,
      String.ofList_toList, hlink, hknown]

theorem resolveFrom_link (hname : IsName name) (hlink : h.linkAt? (here.below name) = some target)
    (hnew : known.lookup (here.below name).render = none)
    (htarget : h.resolveFrom depth (((here.below name).render, none) :: known)
      (if isFromTop target then ⟨.top, []⟩ else here) (pieces '/' target.toList) =
        .ok (known', place)) :
    h.resolveFrom (depth + 1) known here (name.toList :: rest) =
      h.resolveFrom (depth + 1) (((here.below name).render, some place) :: known') place rest := by
  obtain ⟨hskip, hdots, hnull⟩ := piece_of_isName hname
  simp only [resolveFrom, resolvePieces, if_neg hskip, if_neg hdots, if_neg hnull,
    String.ofList_toList, hlink, hnew, htarget]

end Host

/-! ### The record of links -/

namespace Trail

variable {tree : Node} {trail trail' : Trail} {name name' target target' : String}

/-- The path of an entry of the folder that a walk has come to. -/
def pathTo (trail : Trail) (name : String) : Path := ⟨.top, trail.names ++ [name]⟩

/-- A link stands in the folder that a walk has come to. -/
def HasLink (tree : Node) (trail : Trail) (name target : String) : Prop :=
  ∃ entries, trail.node tree = .folder entries ∧ entries.get? name = some (.link target)

theorem HasLink.at?_eq (hlink : trail.HasLink tree name target) (htrail : trail.IsFrom tree) :
    tree.at? (trail.names ++ [name]) = some (.link target) := by
  obtain ⟨entries, hfolder, hget⟩ := hlink
  rw [Node.at?_append, htrail.at?_names, hfolder, Option.bind_some, Node.at?, hget]
  rfl

/-- Links at different places have paths with different texts. -/
theorem HasLink.eq_of_render (hform : tree.WellFormed) (hlink : trail.HasLink tree name target)
    (hlink' : trail'.HasLink tree name' target') (htrail : trail.IsFrom tree)
    (htrail' : trail'.IsFrom tree)
    (heq : (trail.pathTo name).render = (trail'.pathTo name').render) :
    trail = trail' ∧ name = name' := by
  have hnames := (hform.of_at? (hlink.at?_eq htrail)).1
  have hnames' := (hform.of_at? (hlink'.at?_eq htrail')).1
  have hslashed : Path.slashed (trail.names ++ [name]) = Path.slashed (trail'.names ++ [name']) :=
    String.append_right_inj "/" |>.mp heq
  obtain ⟨hfront, hlast⟩ := List.append_inj' (Path.slashed_inj hnames hnames' hslashed) rfl
  exact ⟨htrail.eq_of_names htrail' hfront, (List.cons.inj hlast).1⟩

end Trail

namespace Known

/-- The links that are still being followed lead through more than `n` links. -/
def Open (tree : Node) (n : Nat) (known : Known) : Prop :=
  ∀ trail name target m mid, Trail.IsFrom tree trail → Trail.HasLink tree trail name target →
    known.lookup (trail.pathTo name).render = some none → Follows tree m trail [name] mid → n < m

/-- The links that were followed lead to where the record says. -/
def Done (tree : Node) (known : Known) : Prop :=
  ∀ trail name target place, Trail.IsFrom tree trail → Trail.HasLink tree trail name target →
    known.lookup (trail.pathTo name).render = some (some place) →
    ∃ m mid, Follows tree m trail [name] mid ∧ place = ⟨.top, mid.names⟩

variable {tree : Node} {m n : Nat} {known known' : Known} {trail mid : Trail}
  {name target : String}

theorem Open.mono (hopen : known.Open tree n) (hle : m ≤ n)
    (hsub : ∀ text, known'.lookup text = some none → known.lookup text = some none) :
    known'.Open tree m := fun trail name target k mid htrail hlink hlookup hfollows =>
  Nat.lt_of_le_of_lt hle (hopen trail name target k mid htrail hlink (hsub _ hlookup) hfollows)

/-- A link that is about to be followed is recorded. -/
theorem Open.cons (hform : tree.WellFormed) (hopen : known.Open tree n) (hle : m ≤ n)
    (htrail : trail.IsFrom tree) (hlink : trail.HasLink tree name target)
    (hfollows : Follows tree (m + 1) trail [name] mid) :
    Known.Open tree m (((trail.pathTo name).render, none) :: known) := by
  intro trail' name' target' k mid' htrail' hlink' hlookup hfollows'
  rw [List.lookup_cons] at hlookup
  split at hlookup
  · next heq =>
    obtain ⟨rfl, rfl⟩ := hlink'.eq_of_render hform hlink htrail' htrail (beq_iff_eq.mp heq)
    obtain ⟨rfl, -⟩ := hfollows.unique hfollows'
    exact Nat.lt_succ_self m
  · exact Nat.lt_of_le_of_lt hle (hopen _ _ _ _ _ htrail' hlink' hlookup hfollows')

theorem Done.cons_none (hdone : known.Done tree) (text : String) :
    Known.Done tree ((text, none) :: known) := by
  intro trail name target place htrail hlink hlookup
  rw [List.lookup_cons] at hlookup
  split at hlookup
  · simp at hlookup
  · exact hdone _ _ _ _ htrail hlink hlookup

/-- A link that was followed to its end is recorded. -/
theorem Done.cons (hform : tree.WellFormed) (hdone : known.Done tree)
    (htrail : trail.IsFrom tree) (hlink : trail.HasLink tree name target)
    (hfollows : Follows tree m trail [name] mid) :
    Known.Done tree (((trail.pathTo name).render, some ⟨.top, mid.names⟩) :: known) := by
  intro trail' name' target' place htrail' hlink' hlookup
  rw [List.lookup_cons] at hlookup
  split at hlookup
  · next heq =>
    obtain ⟨rfl, rfl⟩ := hlink'.eq_of_render hform hlink htrail' htrail (beq_iff_eq.mp heq)
    simp only [Option.some_inj] at hlookup
    exact ⟨m, mid, hfollows, hlookup.symm⟩
  · exact hdone _ _ _ _ htrail' hlink' hlookup

end Known

/-! ### Walking and resolving -/

namespace Host

variable {h : Host} {m n depth : Nat} {known : Known} {trail mid trail' : Trail}
  {names : List String} {name target : String}

/-- Resolving names from where one walk stands ends where another one stands. The record of links
stays true, and no link is left open in it that was not open before. -/
def Resolves (h : Host) (depth : Nat) (known : Known) (trail : Trail) (names : List String)
    (trail' : Trail) : Prop :=
  ∃ known', h.resolveFrom depth known ⟨.top, trail.names⟩ (names.map String.toList) =
      .ok (known', ⟨.top, trail'.names⟩) ∧
    Known.Done h.tree known' ∧
    ∀ text, known'.lookup text = some none → known.lookup text = some none

/-- A link that was not met before is followed to its end and recorded. -/
theorem resolveFrom_of_newLink (hform : h.tree.WellFormed) (hreach : h.LinksInReach)
    (htrail : trail.IsFrom h.tree) (hlink : trail.HasLink h.tree name target)
    (hsingle : Follows h.tree m trail [name] mid)
    (hlookup : known.lookup (trail.pathTo name).render = none)
    (htarget : h.Resolves depth (((trail.pathTo name).render, none) :: known)
      (if isFromTop target then [] else trail) (linkSteps target) mid) :
    ∃ known', Known.Done h.tree known' ∧
      (∀ text, known'.lookup text = some none → known.lookup text = some none) ∧
      ∀ rest, h.resolveFrom (depth + 1) known ⟨.top, trail.names⟩ (name.toList :: rest) =
        h.resolveFrom (depth + 1) known' ⟨.top, mid.names⟩ rest := by
  have hat := hlink.at?_eq htrail
  have hname : IsName name := (hform.of_at? hat).1 name (by simp)
  obtain ⟨known₁, hresolve, hdone, hsub⟩ := htarget
  -- The record is kept by the pieces of the target, the walk by its names.
  have hpieces : h.resolveFrom depth (((trail.pathTo name).render, none) :: known)
      (if isFromTop target then ⟨.top, []⟩ else ⟨.top, trail.names⟩)
      (pieces '/' target.toList) = .ok (known₁, ⟨.top, mid.names⟩) := by
    rw [resolveFrom_eq_ok_iff, ← steps_linkSteps, ← resolveFrom_eq_ok_iff, ← hresolve]
    split <;> rfl
  refine ⟨((trail.pathTo name).render, some ⟨.top, mid.names⟩) :: known₁,
    hdone.cons hform htrail hlink hsingle, fun text htext => ?_, fun rest => ?_⟩
  · rw [List.lookup_cons] at htext
    split at htext
    · simp at htext
    · next hne =>
      have hopen := hsub text htext
      rwa [List.lookup_cons, hne] at hopen
  · exact resolveFrom_link hname (linkAt?_of_link hform hreach hat) hlookup hpieces

/-- **A link on the way of a walk.** Resolving goes on where the link leads, whether or not it was
met before. It is not one of the links that are still open, since these lead through more links. -/
theorem resolveFrom_of_hasLink (hform : h.tree.WellFormed) (hreach : h.LinksInReach)
    (htrail : trail.IsFrom h.tree) (hlink : trail.HasLink h.tree name target)
    (hsingle : Follows h.tree (m + 1) trail [name] mid) (hlt : m < n)
    (hopen : known.Open h.tree n) (hdone : known.Done h.tree)
    (htarget : ∀ known, Known.Open h.tree m known → Known.Done h.tree known →
      h.Resolves depth known (if isFromTop target then [] else trail) (linkSteps target) mid) :
    ∃ known', Known.Done h.tree known' ∧
      (∀ text, known'.lookup text = some none → known.lookup text = some none) ∧
      ∀ rest, h.resolveFrom (depth + 1) known ⟨.top, trail.names⟩ (name.toList :: rest) =
        h.resolveFrom (depth + 1) known' ⟨.top, mid.names⟩ rest := by
  cases hlookup : known.lookup (trail.pathTo name).render with
  | none =>
    refine resolveFrom_of_newLink hform hreach htrail hlink hsingle hlookup (htarget _ ?_ ?_)
    · exact hopen.cons hform (Nat.le_of_lt hlt) htrail hlink hsingle
    · exact hdone.cons_none _
  | some record =>
    cases record with
    | none =>
      have hmore := hopen trail name target (m + 1) mid htrail hlink hlookup hsingle
      omega
    | some place =>
      have hat := hlink.at?_eq htrail
      have hname : IsName name := (hform.of_at? hat).1 name (by simp)
      obtain ⟨k, mid', hfollows, rfl⟩ := hdone trail name target place htrail hlink hlookup
      obtain ⟨-, rfl⟩ := hsingle.unique hfollows
      refine ⟨known, hdone, fun _ hopen => hopen, fun rest => ?_⟩
      exact resolveFrom_known hname (linkAt?_of_link hform hreach hat) hlookup

/-- **Resolving the names of a walk ends where the walk ends.** -/
theorem resolves_of_follows (hform : h.tree.WellFormed) (hreach : h.LinksInReach)
    (hfollows : Follows h.tree n trail names trail') (htrail : trail.IsFrom h.tree)
    (hdepth : n ≤ depth) (hopen : known.Open h.tree n) (hdone : known.Done h.tree) :
    h.Resolves depth known trail names trail' := by
  -- Inside a link the walk has fewer links left than the link itself leads through.
  induction hfollows generalizing depth known with
  | done trail => exact ⟨known, resolveFrom_nil _ _ _ _, hdone, fun _ hlookup => hlookup⟩
  | here hdot _ ih =>
    subst hdot
    obtain ⟨known', hresolve, hrecord⟩ := ih htrail hdepth hopen hdone
    exact ⟨known', (resolveFrom_dot _ _ _ _ _).trans hresolve, hrecord⟩
  | @up n trail _ _ _ hdots _ ih =>
    subst hdots
    have hup : Path.up ⟨.top, trail.names⟩ = ⟨.top, Trail.names trail.tail⟩ := by
      rw [Trail.names_tail]
      rfl
    obtain ⟨known', hresolve, hrecord⟩ := ih htrail.tail hdepth hopen hdone
    refine ⟨known', ?_, hrecord⟩
    rw [← hup] at hresolve
    exact (resolveFrom_dots _ _ _ _ _).trans hresolve
  | @enter n trail _ name _ entries node _ _ hfolder hget hnode _ ih =>
    have hfrom : Trail.IsFrom h.tree ((name, node) :: trail) :=
      ⟨⟨entries, hfolder, hget⟩, hnode, htrail⟩
    have hat := hfrom.at?_names
    rw [Trail.names_cons] at hat
    have hname : IsName name := (hform.of_at? hat).1 name (by simp)
    obtain ⟨known', hresolve, hrecord⟩ := ih hfrom hdepth hopen hdone
    refine ⟨known', ?_, hrecord⟩
    rw [Trail.names_cons] at hresolve
    rw [List.map_cons, resolveFrom_enter hname (linkAt?_of_not_link hform hat hnode)]
    exact hresolve
  | @link m n trail mid _ name target _ entries hdot hdots hfolder hget htarget _ ihTarget ihRest =>
    obtain ⟨depth, rfl⟩ : ∃ d, depth = d + 1 := ⟨depth - 1, by omega⟩
    have hm : m ≤ depth := by omega
    have hn : n ≤ depth + 1 := by omega
    have hsingle : Follows h.tree (m + 1) trail [name] mid :=
      .link hdot hdots hfolder hget htarget (.done mid)
    have hstart : Trail.IsFrom h.tree (if isFromTop target then [] else trail) := by
      split
      · trivial
      · exact htrail
    obtain ⟨known₁, hdone₁, hsub₁, hstep⟩ :=
      resolveFrom_of_hasLink hform hreach htrail ⟨entries, hfolder, hget⟩ hsingle (by omega) hopen
        hdone fun known => ihTarget hstart hm
    obtain ⟨known₂, hresolve, hdone₂, hsub₂⟩ := ihRest (htarget.isFrom hstart) hn
      (hopen.mono (by omega) hsub₁) hdone₁
    refine ⟨known₂, (hstep _).trans hresolve, hdone₂, fun text htext => ?_⟩
    exact hsub₁ text (hsub₂ text htext)

/-- Where resolving ends at a place in the tree that is no link, it does not fail. -/
theorem resolve_of_placeOf (hform : h.tree.WellFormed) {p : Path} {node : Node}
    (hplace : h.placeOf p = .ok ⟨.top, names⟩) (hat : h.tree.at? names = some node)
    (hnode : ∀ target, node ≠ .link target) : h.resolve p = .ok ⟨.top, names⟩ := by
  have htop : Trail.IsFrom h.tree [] := trivial
  obtain ⟨trail', hfollows, -⟩ := follows_of_at? hform htop hat hnode
  have hlinks := follow_ne_tooManyLinks linkLimit hfollows
  have hnull : Path.hasNull ⟨.top, names⟩ = false := by
    refine List.any_eq_false.mpr fun name hname => ?_
    simpa using ((hform.of_at? hat).1 name hname).no_null
  have hfind : h.find ⟨.top, names⟩ ≠ .error .nullInPath ∧
      ∀ path, h.find ⟨.top, names⟩ ≠ .error (.file .tooManyLinks path) := by
    rw [find, walk, hnull, if_neg (by simp)]
    split
    · simp [Except.map]
    · cases hfollow : follow h.tree linkLimit [] names with
      | ok trail => simp [Path.isAbsolute, hfollow, Except.map]
      | error cause =>
        have hcause : cause ≠ .tooManyLinks := fun heq => hlinks (heq ▸ hfollow)
        simp [Path.isAbsolute, hfollow, Except.map, hcause]
  rw [resolve, hplace]
  simp only [bind, Except.bind]
  split
  · next path heq => exact absurd heq (hfind.2 path)
  · next heq => exact absurd heq hfind.1
  · rfl

/-- **A file below a folder is resolved to its place below the resolved folder.** -/
theorem resolve_below (hform : h.tree.WellFormed) (hreach : h.LinksInReach) {root : Path}
    {node : Node} (habsolute : root.isAbsolute = true) (hwalk : h.walk root = .ok trail)
    (hat : (trail.node h.tree).at? names = some node) (hnode : ∀ target, node ≠ .link target) :
    h.resolve ⟨root.anchor, root.names ++ names⟩ = .ok ⟨.top, trail.names ++ names⟩ := by
  obtain ⟨n, hn, hroot⟩ := follows_of_walk hwalk
  rw [if_pos habsolute] at hroot
  have htop : Trail.IsFrom h.tree [] := trivial
  have htrail := hroot.isFrom htop
  obtain ⟨trail', hbelow, hnames⟩ := follows_of_at? hform htrail hat hnode
  have hopen : Known.Open h.tree (n + 0) [] := fun _ _ _ _ _ _ _ hlookup => by simp at hlookup
  have hdone : Known.Done h.tree [] := fun _ _ _ _ _ _ hlookup => by simp at hlookup
  have hdepth : n + 0 ≤ nestingLimit := Nat.le_trans hn (by decide)
  obtain ⟨known', hresolve, -⟩ :=
    resolves_of_follows hform hreach (hroot.append hbelow) htop hdepth hopen hdone
  have hstart : Trail.names [] = [] := rfl
  have hfull : h.tree.at? (trail.names ++ names) = some node := by
    rw [Node.at?_append, htrail.at?_names, Option.bind_some, hat]
  refine resolve_of_placeOf hform ?_ hfull hnode
  have habsolute' : Path.isAbsolute ⟨root.anchor, root.names ++ names⟩ = true := habsolute
  rw [hstart, hnames] at hresolve
  rw [placeOf, if_pos habsolute']
  simp only [hresolve, absolute_of_at? hform hfull]

/-- A folder that can be listed has a place, and what is reached from it through folders alone has
its place below. -/
theorem resolve_of_list (hform : h.tree.WellFormed) (hreach : h.LinksInReach) {root : Path}
    {entries : Entries} (habsolute : root.isAbsolute = true) (hlist : h.list root = .ok entries) :
    ∃ base, h.resolve root = .ok base ∧ ∀ names node,
      (Node.folder entries).at? names = some node → (∀ target, node ≠ .link target) →
        h.resolve ⟨root.anchor, root.names ++ names⟩ = .ok ⟨base.anchor, base.names ++ names⟩ := by
  obtain ⟨trail, hwalk, hfolder⟩ := list_eq_ok_iff.mp hlist
  have htop : (trail.node h.tree).at? [] = some (.folder entries) := congrArg some hfolder
  have hroot := resolve_below hform hreach habsolute hwalk htop (by simp)
  rw [List.append_nil, List.append_nil] at hroot
  refine ⟨⟨.top, trail.names⟩, hroot, fun names node hat hnode => ?_⟩
  rw [← hfolder] at hat
  exact resolve_below hform hreach habsolute hwalk hat hnode

end Host

end VeLens
