import VeLens.FileTree.Path
import VeLens.Proofs.FileTree.Trees
import VeLens.Proofs.Text.Cuts

/-!
# Texts of paths

Names of entries hold no slashes, so they can be read back from the text in which slashes divide
them.

## Main results

* `Path.pieces_slashed`: the names in the text of a path.
* `Path.slashed_inj`: different names make different texts.
* `Path.utf8ByteSize_render_le`: a path that goes on has no shorter text.
* `Path.joinText_of_isName`: the name of an entry leads one name further.
* `Path.relativeTo?_eq_some_iff`: the names below a path are what stands behind it.
-/

namespace VeLens.Path

open Text

variable {names more : List String}

theorem toList_slashed (names : List String) :
    (slashed names).toList = joined ['/'] (names.map String.toList) := by
  rw [slashed, String.toList_intercalate, joined_eq_intercalate]
  rfl

/-- The names of entries are the pieces of the text that they make. -/
theorem pieces_slashed (hne : names ≠ []) (hnames : ∀ name ∈ names, IsName name) :
    pieces '/' (slashed names).toList = names.map String.toList := by
  rw [toList_slashed]
  refine pieces_joined (by simpa using hne) fun p hp => ?_
  obtain ⟨name, hname, rfl⟩ := List.mem_map.mp hp
  exact (hnames name hname).no_slash

theorem slashed_ne_empty (hne : names ≠ []) (hempty : "" ∉ names) : slashed names ≠ "" := by
  obtain ⟨name, hname⟩ := List.exists_mem_of_ne_nil names hne
  have hchars : name.toList ≠ [] := fun hnil => hempty (String.toList_eq_nil_iff.mp hnil ▸ hname)
  obtain ⟨c, hc⟩ := List.exists_mem_of_ne_nil name.toList hchars
  intro hslashed
  have hmem : c ∈ (slashed names).toList := by
    rw [toList_slashed]
    exact mem_joined (List.mem_map_of_mem hname) hc
  simp [hslashed] at hmem

theorem slashed_append (hne : names ≠ []) (hmore : more ≠ []) :
    slashed (names ++ more) = slashed names ++ "/" ++ slashed more := by
  rw [slashed, String.intercalate_append_of_ne_nil hne hmore]
  rfl

/-- A path that goes on has no shorter text. -/
theorem utf8ByteSize_render_le (anchor : Anchor) (names : List String) (hempty : "" ∉ more) :
    (render ⟨anchor, names⟩).utf8ByteSize ≤ (render ⟨anchor, names ++ more⟩).utf8ByteSize := by
  by_cases hmore : more = []
  · simp [hmore]
  · by_cases hne : names = []
    · subst hne
      cases anchor with
      | here =>
        -- The text of no names at all is a single dot.
        have hsize : (slashed more).utf8ByteSize ≠ 0 :=
          mt String.utf8ByteSize_eq_zero_iff.mp (slashed_ne_empty hmore hempty)
        rw [List.nil_append, render, render, if_pos rfl, if_neg hmore]
        exact Nat.one_le_iff_ne_zero.mpr hsize
      | top => simp [render, slashed]
      | doubleTop => simp [render, slashed]
    · have hall : names ++ more ≠ [] := by simp [hne]
      cases anchor <;>
        simp only [render, if_neg hne, if_neg hall, slashed_append hne hmore,
          String.utf8ByteSize_append] <;>
        omega

/-- Different names of entries make different texts. -/
theorem slashed_inj (hnames : ∀ name ∈ names, IsName name) (hmore : ∀ name ∈ more, IsName name)
    (h : slashed names = slashed more) : names = more := by
  have hempty : ∀ {names : List String}, (∀ name ∈ names, IsName name) → "" ∉ names :=
    fun hnames hmem => (hnames _ hmem).ne_empty rfl
  by_cases hne : names = []
  · by_contra hdiffer
    have hslashed : slashed more = "" := by rw [← h, hne]; rfl
    exact slashed_ne_empty (fun hnil => hdiffer (hne.trans hnil.symm)) (hempty hmore) hslashed
  · have hne' : more ≠ [] := by
      rintro rfl
      exact slashed_ne_empty hne (hempty hnames) h
    have hpieces := pieces_slashed hne hnames
    rw [h, pieces_slashed hne' hmore] at hpieces
    exact (List.map_injective_iff.mpr (fun _ _ => String.toList_inj.mp) hpieces).symm

theorem parse_of_isName {name : String} (hname : IsName name) : parse name = ⟨.here, [name]⟩ := by
  have hfirst : name.toList.takeWhile (· == '/') = [] := by
    cases hchars : name.toList with
    | nil => rfl
    | cons c s =>
      apply List.takeWhile_cons_of_neg
      intro hslash
      apply hname.no_slash
      rw [hchars, beq_iff_eq.mp hslash]
      exact List.mem_cons_self
  have hpieces : pieces '/' name.toList = [name.toList] := by
    simpa [slashed] using
      pieces_slashed (List.cons_ne_nil name []) (List.forall_mem_singleton.mpr hname)
  have hkept : name.toList ≠ [] ∧ name.toList ≠ ['.'] := by
    constructor
    · exact fun hnil => hname.ne_empty (String.toList_eq_nil_iff.mp hnil)
    · exact fun hdot => hname.ne_dot (String.toList_inj.mp hdot)
  simp [parse, namesOf, hfirst, hpieces, hkept, anchorOf]

/-- The name of an entry, read from a path, leads one name further. -/
theorem joinText_of_isName {name : String} (hname : IsName name) (p : Path) :
    p.joinText name = p.below name := by
  rw [joinText, parse_of_isName hname, join, if_neg (by simp [isAbsolute])]
  rfl

theorem ne_of_mem_parse {text name : String} (hname : name ∈ (parse text).names) :
    name ≠ "" ∧ name ≠ "." := by
  obtain ⟨piece, hpiece, rfl⟩ := List.mem_map.mp hname
  have hkept := of_decide_eq_true (List.mem_filter.mp hpiece).2
  have hdot : "." = String.ofList ['.'] := by decide
  constructor
  · exact fun heq => hkept.1 (String.ofList_eq_empty_iff.mp heq)
  · exact fun heq => hkept.2 (String.ofList_inj.mp (heq.trans hdot))

theorem namesAfter?_eq_some_iff {base : List String} :
    namesAfter? base names = some more ↔ names = base ++ more := by
  fun_induction namesAfter? base names with
  | case1 names => simp
  | case2 b base => simp
  | case3 n base names ih => simp [ih]
  | case4 b base n names hne => simp [Ne.symm hne]

/-- The names that lead from one path down to another are what stands behind it. -/
theorem relativeTo?_eq_some_iff {p base : Path} :
    p.relativeTo? base = some names ↔ p = ⟨base.anchor, base.names ++ names⟩ := by
  rw [relativeTo?]
  split
  · next hanchor => rw [namesAfter?_eq_some_iff, ← hanchor, Path.mk.injEq, and_iff_right rfl]
  · next hanchor =>
    refine iff_of_false (by simp) ?_
    rintro rfl
    exact hanchor rfl

end VeLens.Path
