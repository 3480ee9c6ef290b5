import VeLens.FileTree.Lookup
import VeLens.Proofs.FileTree.Trees

/-!
# Walks

A walk follows names from the top of a tree, or from where another walk has come, and goes through
links. The number of links on its way, those inside other links included, is determined by where it
starts and by the names that it follows.

## Main definitions

* `Trail.IsFrom`: a walk that came from the top of a tree.
* `Follows`: some names lead from one walk to another, through so many links.

## Main results

* `Trail.IsFrom.at?_names`: the names of a walk lead to where it stands.
* `Follows.unique`: where names lead, and through how many links, is determined.
* `follows_of_follow`: a walk that is found is one.
* `Host.exists_at?_of_list`: listing a folder shows a part of the tree.
-/

namespace VeLens

/-- The walk came from the top of a tree through folders, and it stands at no link. -/
def Trail.IsFrom (tree : Node) : Trail → Prop
  | [] => True
  | (name, node) :: trail =>
    (∃ entries, Trail.node tree trail = .folder entries ∧ entries.get? name = some node) ∧
      (∀ target, node ≠ .link target) ∧ Trail.IsFrom tree trail

namespace Trail

variable {tree : Node} {trail trail' : Trail}

theorem names_cons (name : String) (node : Node) (trail : Trail) :
    Trail.names ((name, node) :: trail) = trail.names ++ [name] := by
  simp [Trail.names]

theorem names_tail (trail : Trail) : Trail.names trail.tail = trail.names.dropLast := by
  cases trail with
  | nil => rfl
  | cons entry trail => rw [names_cons, List.tail_cons, List.dropLast_concat]

theorem IsFrom.tail (h : trail.IsFrom tree) : Trail.IsFrom tree trail.tail := by
  cases trail with
  | nil => trivial
  | cons entry trail => exact h.2.2

/-- The names of a walk lead from the top to where it stands. -/
theorem IsFrom.at?_names (h : trail.IsFrom tree) :
    tree.at? trail.names = some (trail.node tree) := by
  induction trail with
  | nil => rfl
  | cons entry trail ih =>
    obtain ⟨⟨entries, hfolder, hget⟩, -, htrail⟩ := h
    rw [names_cons, Node.at?_append, ih htrail, hfolder, Option.bind_some, Node.at?, hget]
    rfl

/-- A walk from the top is determined by its names. -/
theorem IsFrom.eq_of_names (h : trail.IsFrom tree) (h' : trail'.IsFrom tree)
    (hnames : trail.names = trail'.names) : trail = trail' := by
  induction trail generalizing trail' with
  | nil =>
    cases trail' with
    | nil => rfl
    | cons entry trail' => simp [Trail.names] at hnames
  | cons entry trail ih =>
    cases trail' with
    | nil => simp [Trail.names] at hnames
    | cons entry' trail' =>
      rw [names_cons, names_cons] at hnames
      obtain ⟨hfront, hlast⟩ := List.append_inj' hnames rfl
      obtain ⟨⟨entries, hfolder, hget⟩, -, htrail⟩ := h
      obtain ⟨⟨entries', hfolder', hget'⟩, -, htrail'⟩ := h'
      obtain rfl := ih htrail htrail' hfront
      obtain rfl := Node.folder.inj (hfolder.symm.trans hfolder')
      have hname : entry.1 = entry'.1 := (List.cons.inj hlast).1
      rw [hname] at hget
      exact congrArg (· :: trail) (Prod.ext hname (Option.some_inj.mp (hget.symm.trans hget')))

end Trail

/-- Names lead from one walk to another, through so many links. -/
inductive Follows (tree : Node) : Nat → Trail → List String → Trail → Prop
  | done (trail : Trail) : Follows tree 0 trail [] trail
  | here {n : Nat} {trail trail' : Trail} {name : String} {names : List String} :
      name = "." → Follows tree n trail names trail' → Follows tree n trail (name :: names) trail'
  | up {n : Nat} {trail trail' : Trail} {name : String} {names : List String} :
      name = ".." → Follows tree n trail.tail names trail' →
      Follows tree n trail (name :: names) trail'
  | enter {n : Nat} {trail trail' : Trail} {name : String} {names : List String}
      {entries : Entries} {node : Node} :
      name ≠ "." → name ≠ ".." → trail.node tree = .folder entries →
      entries.get? name = some node → (∀ target, node ≠ .link target) →
      Follows tree n ((name, node) :: trail) names trail' →
      Follows tree n trail (name :: names) trail'
  | link {m n : Nat} {trail mid trail' : Trail} {name target : String} {names : List String}
      {entries : Entries} :
      name ≠ "." → name ≠ ".." → trail.node tree = .folder entries →
      entries.get? name = some (.link target) →
      Follows tree m (if isFromTop target then [] else trail) (linkSteps target) mid →
      Follows tree n mid names trail' → Follows tree (m + n + 1) trail (name :: names) trail'

namespace Follows

variable {tree : Node} {m n : Nat} {trail mid trail' : Trail} {names more : List String}

theorem isFrom (h : Follows tree n trail names trail') (htrail : trail.IsFrom tree) :
    trail'.IsFrom tree := by
  induction h with
  | done trail => exact htrail
  | here _ _ ih => exact ih htrail
  | up _ _ ih => exact ih htrail.tail
  | enter _ _ hfolder hget hnode _ ih => exact ih ⟨⟨_, hfolder, hget⟩, hnode, htrail⟩
  | link _ _ _ _ _ _ ihTarget ihRest =>
    refine ihRest (ihTarget ?_)
    split
    · trivial
    · exact htrail

theorem append (h : Follows tree m trail names mid) (h' : Follows tree n mid more trail') :
    Follows tree (m + n) trail (names ++ more) trail' := by
  induction h with
  | done trail => rwa [Nat.zero_add]
  | here hdot _ ih => exact .here hdot (ih h')
  | up hdots _ ih => exact .up hdots (ih h')
  | enter hdot hdots hfolder hget hnode _ ih =>
    exact .enter hdot hdots hfolder hget hnode (ih h')
  | @link m k _ _ _ _ _ _ _ hdot hdots hfolder hget htarget _ _ ih =>
    have hcount : m + k + 1 + n = m + (k + n) + 1 := by omega
    rw [hcount]
    exact .link hdot hdots hfolder hget htarget (ih h')

theorem exists_of_append (h : Follows tree n trail (names ++ more) trail') :
    ∃ m k mid, Follows tree m trail names mid ∧ Follows tree k mid more trail' ∧ n = m + k := by
  generalize hall : names ++ more = all at h
  induction h generalizing names with
  | done trail =>
    obtain ⟨rfl, rfl⟩ := List.append_eq_nil_iff.mp hall
    exact ⟨0, 0, trail, .done trail, .done trail, rfl⟩
  | @here n trail _ _ _ hdot hrest ih =>
    obtain ⟨rfl, rfl⟩ | ⟨names, rfl, hrest'⟩ := List.append_eq_cons_iff.mp hall
    · exact ⟨0, n, trail, .done trail, .here hdot hrest, (Nat.zero_add n).symm⟩
    · obtain ⟨m, k, mid, hm, hk, hcount⟩ := ih hrest'.symm
      exact ⟨m, k, mid, .here hdot hm, hk, hcount⟩
  | @up n trail _ _ _ hdots hrest ih =>
    obtain ⟨rfl, rfl⟩ | ⟨names, rfl, hrest'⟩ := List.append_eq_cons_iff.mp hall
    · exact ⟨0, n, trail, .done trail, .up hdots hrest, (Nat.zero_add n).symm⟩
    · obtain ⟨m, k, mid, hm, hk, hcount⟩ := ih hrest'.symm
      exact ⟨m, k, mid, .up hdots hm, hk, hcount⟩
  | @enter n trail _ _ _ _ _ hdot hdots hfolder hget hnode hrest ih =>
    obtain ⟨rfl, rfl⟩ | ⟨names, rfl, hrest'⟩ := List.append_eq_cons_iff.mp hall
    · exact ⟨0, n, trail, .done trail, .enter hdot hdots hfolder hget hnode hrest,
        (Nat.zero_add n).symm⟩
    · obtain ⟨m, k, mid, hm, hk, hcount⟩ := ih hrest'.symm
      exact ⟨m, k, mid, .enter hdot hdots hfolder hget hnode hm, hk, hcount⟩
  | @link j n trail _ _ _ _ _ _ hdot hdots hfolder hget htarget hrest _ ih =>
    obtain ⟨rfl, rfl⟩ | ⟨names, rfl, hrest'⟩ := List.append_eq_cons_iff.mp hall
    · exact ⟨0, j + n + 1, trail, .done trail, .link hdot hdots hfolder hget htarget hrest,
        (Nat.zero_add _).symm⟩
    · obtain ⟨m, k, mid, hm, hk, hcount⟩ := ih hrest'.symm
      exact ⟨j + m + 1, k, mid, .link hdot hdots hfolder hget htarget hm, hk, by omega⟩

/-- Where names lead, and through how many links, is determined. -/
theorem unique (h : Follows tree m trail names mid) (h' : Follows tree n trail names trail') :
    m = n ∧ mid = trail' := by
  induction h generalizing n trail' with
  | done trail =>
    cases h'
    exact ⟨rfl, rfl⟩
  | here hdot _ ih =>
    cases h' with
    | here _ h' => exact ih h'
    | up hdots => exact absurd (hdot.symm.trans hdots) (by decide)
    | enter hne => exact absurd hdot hne
    | link hne => exact absurd hdot hne
  | up hdots _ ih =>
    cases h' with
    | here hdot => exact absurd (hdot.symm.trans hdots) (by decide)
    | up _ h' => exact ih h'
    | enter _ hne => exact absurd hdots hne
    | link _ hne => exact absurd hdots hne
  | enter hdot hdots hfolder hget hnode _ ih =>
    cases h' with
    | here heq => exact absurd heq hdot
    | up heq => exact absurd heq hdots
    | enter _ _ hfolder' hget' _ h' =>
      obtain rfl := Node.folder.inj (hfolder.symm.trans hfolder')
      obtain rfl := Option.some_inj.mp (hget.symm.trans hget')
      exact ih h'
    | link _ _ hfolder' hget' =>
      obtain rfl := Node.folder.inj (hfolder.symm.trans hfolder')
      exact absurd (Option.some_inj.mp (hget.symm.trans hget')) (hnode _)
  | link hdot hdots hfolder hget _ _ ihTarget ihRest =>
    cases h' with
    | here heq => exact absurd heq hdot
    | up heq => exact absurd heq hdots
    | enter _ _ hfolder' hget' hnode' =>
      obtain rfl := Node.folder.inj (hfolder.symm.trans hfolder')
      exact absurd (Option.some_inj.mp (hget'.symm.trans hget)) (hnode' _)
    | link _ _ hfolder' hget' htarget' hrest' =>
      obtain rfl := Node.folder.inj (hfolder.symm.trans hfolder')
      obtain rfl := Node.link.inj (Option.some_inj.mp (hget.symm.trans hget'))
      obtain ⟨rfl, rfl⟩ := ihTarget htarget'
      obtain ⟨rfl, rfl⟩ := ihRest hrest'
      exact ⟨rfl, rfl⟩

end Follows

/-- Names that lead through folders only are followed without links. -/
theorem follows_of_at? {tree node : Node} {trail : Trail} {names : List String}
    (hform : tree.WellFormed) (htrail : trail.IsFrom tree)
    (hat : (trail.node tree).at? names = some node) (hnode : ∀ target, node ≠ .link target) :
    ∃ trail', Follows tree 0 trail names trail' ∧ trail'.names = trail.names ++ names := by
  induction names generalizing trail with
  | nil => exact ⟨trail, .done trail, (List.append_nil _).symm⟩
  | cons name names ih =>
    have hfull := Node.at?_append tree trail.names (name :: names)
    rw [htrail.at?_names, Option.bind_some, hat] at hfull
    have hname : IsName name := (hform.of_at? hfull).1 name (by simp)
    cases hfolder : trail.node tree with
    | file content => simp [hfolder, Node.at?] at hat
    | link target => simp [hfolder, Node.at?] at hat
    | folder entries =>
      rw [hfolder, Node.at?] at hat
      obtain ⟨child, hget, hchild⟩ := Option.bind_eq_some_iff.mp hat
      have hlink : ∀ target, child ≠ .link target := by
        rintro target rfl
        obtain _ | ⟨next, names⟩ := names
        · exact hnode target (Option.some_inj.mp hchild).symm
        · simp [Node.at?] at hchild
      have hfrom : Trail.IsFrom tree ((name, child) :: trail) :=
        ⟨⟨entries, hfolder, hget⟩, hlink, htrail⟩
      obtain ⟨trail', hfollows, hnames⟩ := ih hfrom hchild
      refine ⟨trail', .enter hname.ne_dot hname.ne_dots hfolder hget hlink hfollows, ?_⟩
      rw [hnames, Trail.names_cons, List.append_assoc, List.singleton_append]

theorem follows_of_followNames {tree : Node} {links : Nat}
    {goOn : Trail → List String → Except FileCause Trail}
    (hgoOn : ∀ {trail names trail'}, goOn trail names = .ok trail' →
      ∃ n, n < links ∧ Follows tree n trail names trail')
    {trail trail' : Trail} {names : List String}
    (h : followNames tree goOn trail names = .ok trail') :
    ∃ n, n ≤ links ∧ Follows tree n trail names trail' := by
  fun_induction followNames tree goOn trail names with
  | case1 trail =>
    obtain rfl := Except.ok.inj h
    exact ⟨0, Nat.zero_le links, .done trail⟩
  | case2 trail names _ _ ih =>
    obtain ⟨n, hn, hrest⟩ := ih h
    exact ⟨n, hn, .here rfl hrest⟩
  | case3 trail names _ _ _ ih =>
    obtain ⟨n, hn, hrest⟩ := ih h
    exact ⟨n, hn, .up rfl hrest⟩
  | case4 => simp at h
  | case5 => simp at h
  | case6 trail name names entries hfolder hdot hdots _ target hget =>
    obtain ⟨n, hn, hall⟩ := hgoOn h
    obtain ⟨m, k, mid, hm, hk, rfl⟩ := hall.exists_of_append
    exact ⟨m + k + 1, hn, .link hdot hdots hfolder hget hm hk⟩
  | case7 trail name names entries hfolder hdot hdots _ node hnode hget ih =>
    obtain ⟨n, hn, hrest⟩ := ih h
    exact ⟨n, hn, .enter hdot hdots hfolder hget hnode hrest⟩
  | case8 => simp at h

/-- A walk that is found within a number of links goes through at most so many. -/
theorem follows_of_follow {tree : Node} {links : Nat} {trail trail' : Trail} {names : List String}
    (h : follow tree links trail names = .ok trail') :
    ∃ n, n ≤ links ∧ Follows tree n trail names trail' := by
  induction links generalizing trail trail' names with
  | zero => exact follows_of_followNames (fun h => by simp at h) h
  | succ links ih =>
    refine follows_of_followNames (fun h => ?_) h
    obtain ⟨n, hn, hfollows⟩ := ih h
    exact ⟨n, Nat.lt_succ_of_le hn, hfollows⟩

/-- A walk without links does not fail at links, however few it may follow. -/
theorem followNames_ne_tooManyLinks {tree : Node} {n : Nat} {trail trail' : Trail}
    {names : List String} (goOn : Trail → List String → Except FileCause Trail)
    (h : Follows tree n trail names trail') (hn : n = 0) :
    followNames tree goOn trail names ≠ .error .tooManyLinks := by
  induction h with
  | done trail => simp [followNames]
  | here hdot _ ih =>
    rw [followNames]
    split
    · rw [if_pos hdot]
      exact ih hn
    · simp
  | up hdots _ ih =>
    subst hdots
    rw [followNames]
    split
    · exact ih hn
    · simp
  | @enter _ _ _ _ _ _ node hdot hdots hfolder hget hnode _ ih =>
    rw [followNames, hfolder]
    simp only [if_neg hdot, if_neg hdots, hget]
    split
    · simp
    · cases node with
      | link target => exact absurd rfl (hnode target)
      | file content => exact ih hn
      | folder entries => exact ih hn
  | link => simp at hn

theorem follow_ne_tooManyLinks {tree : Node} {trail trail' : Trail} {names : List String}
    (links : Nat) (h : Follows tree 0 trail names trail') :
    follow tree links trail names ≠ .error .tooManyLinks := by
  cases links with
  | zero => exact followNames_ne_tooManyLinks _ h rfl
  | succ links => exact followNames_ne_tooManyLinks _ h rfl

namespace Host

variable {h : Host}

theorem presentTrail_isFrom (h : Host) : h.presentTrail.IsFrom h.tree := by
  rw [presentTrail]
  split
  · next trail hfollow =>
    obtain ⟨n, -, hfollows⟩ := follows_of_follow hfollow
    exact hfollows.isFrom trivial
  · trivial

/-- What a path leads to is found by following its names. -/
theorem follows_of_walk {p : Path} {trail : Trail} (hwalk : h.walk p = .ok trail) :
    ∃ n, n ≤ linkLimit ∧
      Follows h.tree n (if p.isAbsolute then [] else h.presentTrail) p.names trail := by
  rw [walk] at hwalk
  split at hwalk
  · simp at hwalk
  · split at hwalk
    · simp at hwalk
    · split at hwalk
      · next trail' hfollow =>
        obtain rfl := Except.ok.inj hwalk
        exact follows_of_follow hfollow
      · simp at hwalk

theorem walk_isFrom {p : Path} {trail : Trail} (hwalk : h.walk p = .ok trail) :
    trail.IsFrom h.tree := by
  obtain ⟨n, -, hfollows⟩ := follows_of_walk hwalk
  refine hfollows.isFrom ?_
  split
  · trivial
  · exact h.presentTrail_isFrom

theorem find_eq_ok_iff {p : Path} {node : Node} :
    h.find p = .ok node ↔ ∃ trail, h.walk p = .ok trail ∧ Trail.node h.tree trail = node := by
  rw [find]
  cases h.walk p with
  | error fault => simp [Except.map]
  | ok trail => simp [Except.map]

/-- A folder that can be listed is one that a walk leads to. -/
theorem list_eq_ok_iff {p : Path} {entries : Entries} :
    h.list p = .ok entries ↔
      ∃ trail, h.walk p = .ok trail ∧ Trail.node h.tree trail = .folder entries := by
  rw [list, find]
  cases h.walk p with
  | error fault => simp [Except.map, bind, Except.bind]
  | ok trail =>
    simp only [Except.map, bind, Except.bind]
    split <;> simp_all

/-- Listing a folder shows a part of the tree. -/
theorem exists_at?_of_list {p : Path} {entries : Entries} (hlist : h.list p = .ok entries) :
    ∃ names, h.tree.at? names = some (.folder entries) := by
  obtain ⟨trail, hwalk, hnode⟩ := list_eq_ok_iff.mp hlist
  have hat := (walk_isFrom hwalk).at?_names
  rw [hnode] at hat
  exact ⟨_, hat⟩

theorem list_wellFormed (hform : h.tree.WellFormed) {p : Path} {entries : Entries}
    (hlist : h.list p = .ok entries) : entries.WellFormed := by
  obtain ⟨names, hat⟩ := exists_at?_of_list hlist
  exact (hform.of_at? hat).2

theorem list_distinct (hdistinct : h.tree.Distinct) {p : Path} {entries : Entries}
    (hlist : h.list p = .ok entries) : entries.Distinct := by
  obtain ⟨names, hat⟩ := exists_at?_of_list hlist
  exact hdistinct.of_at? hat

/-- What is found behind a name in a folder is the entry of that name, unless the entry is a link.
-/
theorem get?_of_find {p : Path} {entries : Entries} {name : String} {node : Node}
    (hlist : h.list p = .ok entries) (hfind : h.find ⟨p.anchor, p.names ++ [name]⟩ = .ok node)
    (hdot : name ≠ ".") (hdots : name ≠ "..") :
    entries.get? name = some node ∨ ∃ target, entries.get? name = some (.link target) := by
  obtain ⟨trail, hwalk, hfolder⟩ := list_eq_ok_iff.mp hlist
  obtain ⟨m, -, hroot⟩ := follows_of_walk hwalk
  obtain ⟨trail', hwalk', rfl⟩ := find_eq_ok_iff.mp hfind
  obtain ⟨n, -, hall⟩ := follows_of_walk hwalk'
  obtain ⟨m', k, mid, hmid, hlast, -⟩ := hall.exists_of_append
  obtain ⟨-, rfl⟩ := hmid.unique hroot
  cases hlast with
  | here heq => exact absurd heq hdot
  | up heq => exact absurd heq hdots
  | link _ _ hfolder' hget =>
    obtain rfl := Node.folder.inj (hfolder.symm.trans hfolder')
    exact .inr ⟨_, hget⟩
  | enter _ _ hfolder' hget _ hdone =>
    obtain rfl := Node.folder.inj (hfolder.symm.trans hfolder')
    cases hdone
    exact .inl hget

end Host

end VeLens
