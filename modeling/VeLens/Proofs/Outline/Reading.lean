import VeLens.Outline.TopLevel
import VeLens.Proofs.Buffer.Blocks

/-!
# Reading the top level

The declarations at the top level of a buffer are found by one pass over its lines. A line without a
head is skipped. A line with a head begins a declaration, and the pass goes on below the lines that
the declaration takes up.

## Main definitions

* `TopLevel.Opens`: a declaration begins on the first of some lines.
* `Reading`: a pass over some lines and the declarations that it finds.

## Main results

* `reading_iff`: the passes are exactly what `topLevelFrom` computes.
* `Reading.opens_of_mem`: each declaration begins on the line that it names.
* `Reading.pairwise`, `Reading.covers`: the declarations stand one below the other, and together
  they take up every line with a head.
-/

namespace VeLens.Outline

open Declaration

/-- The declaration begins on the first of the lines, which has the number `index`. -/
structure TopLevel.Opens (t : TopLevel) (index : Nat) (lines : List Line) : Prop where
  index_eq : t.index = index
  isPrefix : t.lines <+: lines
  ne_nil : t.lines ≠ []
  headOf_line : headOf t.line = some t.head
  block : opensBlock t.head = true → Block.extent lines = (t.lines.length - 1, t.column)
  single : opensBlock t.head = false → t.lines = [t.line] ∧ t.column = t.line.length

namespace TopLevel

variable {t : TopLevel} {index : Nat} {lines : List Line}

theorem lines_eq_cons (hne : t.lines ≠ []) : t.lines = t.line :: t.lines.tail := by
  rw [line]
  cases h : t.lines with
  | nil => exact absurd h hne
  | cons l ls => rfl

theorem Opens.length_pos (h : t.Opens index lines) : 0 < t.lines.length :=
  List.length_pos_iff.mpr h.ne_nil

theorem Opens.exists_cons (h : t.Opens index lines) : ∃ below, lines = t.line :: below := by
  obtain ⟨rest, hrest⟩ := h.isPrefix
  refine ⟨t.lines.tail ++ rest, ?_⟩
  rw [← hrest, ← List.cons_append, ← lines_eq_cons h.ne_nil]

theorem Opens.lines_eq_take (h : t.Opens index lines) : t.lines = lines.take t.lines.length :=
  List.prefix_iff_eq_take.mp h.isPrefix

/-! ### The lines of a declaration in its buffer -/

section Buffer

variable (h : t.Opens t.index (lines.drop t.index))

include h

theorem Opens.getElem?_eq {k : Nat} (hk : k < t.lines.length) :
    lines[t.index + k]? = t.lines[k]? := by
  obtain ⟨rest, hrest⟩ := h.isPrefix
  rw [← List.getElem?_drop, ← hrest, List.getElem?_append_left hk]

theorem Opens.getElem?_index : lines[t.index]? = some t.line := by
  have hfirst := h.getElem?_eq h.length_pos
  rw [lines_eq_cons h.ne_nil] at hfirst
  exact hfirst

theorem Opens.getElem?_lastIndex : lines[t.lastIndex]? = some t.lastLine := by
  have hpos := h.length_pos
  rw [lastIndex, h.getElem?_eq (Nat.sub_lt hpos Nat.one_pos), ← List.getLast?_eq_getElem?, lastLine,
    List.getLastD_eq_getLast?, List.getLast?_eq_some_getLast h.ne_nil, Option.getD_some]

/-- What stands inside a declaration are lines of the buffer between its first and its last one. -/
theorem Opens.of_mem_inside {line : Line} {k : Nat} (hk : (line, k) ∈ t.inside) :
    t.index < k ∧ k < t.lastIndex ∧ lines[k]? = some line := by
  rw [inside, List.mk_mem_zipIdx_iff_le_and_getElem?_sub] at hk
  obtain ⟨hle, hline⟩ := hk
  obtain ⟨hlt, -⟩ := List.getElem?_eq_some_iff.mp hline
  rw [List.length_dropLast, List.length_tail] at hlt
  -- The lines inside are those of the declaration without the first and the last one.
  have hlines : lines[t.index + (k - t.index)]? = some line := by
    rw [h.getElem?_eq (by omega), ← hline, List.getElem?_dropLast, List.getElem?_tail,
      List.length_tail, if_pos hlt]
    congr 1
    omega
  rw [lastIndex]
  refine ⟨by omega, by omega, ?_⟩
  rwa [Nat.add_sub_cancel' (by omega)] at hlines

end Buffer

theorem pairwise_inside (t : TopLevel) : t.inside.Pairwise fun p q => p.2 < q.2 := by
  rw [← List.pairwise_map (f := Prod.snd) (R := (· < ·)), inside, List.zipIdx_map_snd]
  exact List.pairwise_lt_range' ..

end TopLevel

theorem topLevelFrom_nil (index : Nat) : topLevelFrom index [] = [] := by
  rw [topLevelFrom]

theorem topLevelFrom_cons_of_none {line : Line} (h : headOf line = none) (index : Nat)
    (below : List Line) : topLevelFrom index (line :: below) = topLevelFrom (index + 1) below := by
  rw [topLevelFrom, h]

theorem opens_single {line : Line} {head : Head} (h : headOf line = some head)
    (hopens : opensBlock head = false) (index : Nat) (below : List Line) :
    (⟨index, head, [line], line.length⟩ : TopLevel).Opens index (line :: below) := by
  refine ⟨rfl, ⟨below, rfl⟩, List.cons_ne_nil _ _, h, ?_, fun _ => ⟨rfl, rfl⟩⟩
  simp [hopens]

/-- Every line with a head begins a declaration. -/
theorem exists_opens {line : Line} {head : Head} (h : headOf line = some head) (index : Nat)
    (below : List Line) : ∃ t : TopLevel, t.Opens index (line :: below) := by
  cases hopens : opensBlock head with
  | true =>
    have hlt := Block.extent_fst_lt (List.cons_ne_nil line below)
    rw [List.length_cons] at hlt
    refine ⟨⟨index, head, line :: below.take (Block.extent (line :: below)).1,
      (Block.extent (line :: below)).2⟩, ⟨rfl, ?_, List.cons_ne_nil _ _, h, fun _ => ?_, ?_⟩⟩
    · simpa using List.take_prefix _ below
    · rw [List.length_cons, List.length_take, Nat.min_eq_left (Nat.le_of_lt_succ hlt),
        Nat.add_sub_cancel]
    · simp [hopens]
  | false => exact ⟨_, opens_single h hopens index below⟩

/-- A declaration comes first, and the reading goes on below the lines that it takes up. -/
theorem TopLevel.Opens.topLevelFrom_eq {t : TopLevel} {index : Nat} {lines : List Line}
    (h : t.Opens index lines) :
    topLevelFrom index lines =
      t :: topLevelFrom (index + t.lines.length) (lines.drop t.lines.length) := by
  obtain ⟨below, hbelow⟩ := h.exists_cons
  obtain ⟨n, hn⟩ : ∃ n, t.lines.length = n + 1 := Nat.exists_eq_add_one.mpr h.length_pos
  have hlines : t.lines = t.line :: below.take n := by
    have := h.lines_eq_take
    rwa [hn, hbelow, List.take_succ_cons] at this
  rw [hn, hbelow, topLevelFrom, h.headOf_line]
  dsimp only
  cases hopens : opensBlock t.head with
  | true =>
    have hextent : Block.extent (t.line :: below) = (n, t.column) := by
      rw [← hbelow, h.block hopens, hn, Nat.add_sub_cancel]
    rw [if_pos rfl, hextent]
    dsimp only
    rw [← hlines, ← h.index_eq]
    rfl
  | false =>
    obtain ⟨hsingle, hcolumn⟩ := h.single hopens
    have hzero : n = 0 := by
      rw [hsingle] at hn
      exact (Nat.succ.inj hn).symm
    rw [if_neg (by simp), hzero, ← hsingle, ← hcolumn, ← h.index_eq]
    rfl

/-- A pass over lines of which the first has the number `index`, with the declarations that it
finds. -/
inductive Reading : Nat → List Line → List TopLevel → Prop
  | done (index : Nat) : Reading index [] []
  | skip {index : Nat} {line : Line} {below : List Line} {ts : List TopLevel}
      (hline : headOf line = none) (rest : Reading (index + 1) below ts) :
      Reading index (line :: below) ts
  | declare {index : Nat} {lines : List Line} {t : TopLevel} {ts : List TopLevel}
      (ht : t.Opens index lines)
      (rest : Reading (index + t.lines.length) (lines.drop t.lines.length) ts) :
      Reading index lines (t :: ts)

theorem reading_topLevelFrom (index : Nat) (lines : List Line) :
    Reading index lines (topLevelFrom index lines) := by
  -- A declaration may take up many lines at once, so the induction is on the number of lines left.
  induction hn : lines.length using Nat.strongRecOn generalizing index lines with
  | ind n ih =>
    cases lines with
    | nil =>
      rw [topLevelFrom_nil]
      exact .done index
    | cons line below =>
      cases hline : headOf line with
      | none =>
        rw [topLevelFrom_cons_of_none hline]
        exact .skip hline (ih below.length (by simp [← hn]) (index + 1) below rfl)
      | some head =>
        obtain ⟨t, ht⟩ := exists_opens hline index below
        rw [ht.topLevelFrom_eq]
        have hpos := ht.length_pos
        refine .declare ht (ih _ ?_ _ _ rfl)
        rw [← hn, List.length_drop, List.length_cons]
        omega

/-- The passes over some lines are exactly what `topLevelFrom` computes. -/
theorem reading_iff {index : Nat} {lines : List Line} {ts : List TopLevel} :
    Reading index lines ts ↔ topLevelFrom index lines = ts := by
  constructor
  · intro h
    induction h with
    | done index => exact topLevelFrom_nil index
    | skip hline _ ih => rw [topLevelFrom_cons_of_none hline, ih]
    | declare ht _ ih => rw [ht.topLevelFrom_eq, ih]
  · rintro rfl
    exact reading_topLevelFrom index lines

namespace Reading

variable {index : Nat} {lines : List Line} {ts : List TopLevel} {t : TopLevel}

/-- Each declaration begins on the line that it names. -/
theorem opens_of_mem (h : Reading index lines ts) (ht : t ∈ ts) :
    index ≤ t.index ∧ t.Opens t.index (lines.drop (t.index - index)) := by
  induction h with
  | done => simp at ht
  | @skip index line below ts _ _ ih =>
    obtain ⟨hle, hopens⟩ := ih ht
    have hdrop : t.index - index = t.index - (index + 1) + 1 := by omega
    refine ⟨by omega, ?_⟩
    rw [hdrop, List.drop_succ_cons]
    exact hopens
  | @declare index lines u ts hu _ ih =>
    rcases List.mem_cons.mp ht with rfl | ht
    · have hdrop : t.index - index = 0 := by rw [hu.index_eq, Nat.sub_self]
      rw [hdrop, List.drop_zero, hu.index_eq]
      exact ⟨Nat.le_refl index, hu⟩
    · obtain ⟨hle, hopens⟩ := ih ht
      have hdrop : t.index - index = u.lines.length + (t.index - (index + u.lines.length)) := by
        omega
      refine ⟨by omega, ?_⟩
      rw [hdrop, ← List.drop_drop]
      exact hopens

/-- Each declaration ends above the next one. -/
theorem pairwise (h : Reading index lines ts) :
    ts.Pairwise fun t u => t.index + t.lines.length ≤ u.index := by
  induction h with
  | done => exact .nil
  | skip _ _ ih => exact ih
  | @declare index lines t ts ht rest ih =>
    refine .cons (fun u hu => ?_) ih
    rw [ht.index_eq]
    exact (rest.opens_of_mem hu).1

/-- Every line with a head belongs to a declaration. -/
theorem covers (h : Reading index lines ts) {i : Nat} {line : Line} {head : Head}
    (hline : lines[i]? = some line) (hhead : headOf line = some head) :
    ∃ t ∈ ts, t.index ≤ index + i ∧ index + i < t.index + t.lines.length := by
  induction h generalizing i with
  | done => simp at hline
  | @skip index first below ts hfirst _ ih =>
    cases i with
    | zero =>
      -- The skipped line has no head.
      rw [List.getElem?_cons_zero, Option.some_inj] at hline
      rw [hline, hhead] at hfirst
      exact absurd hfirst (Option.some_ne_none head)
    | succ i =>
      rw [List.getElem?_cons_succ] at hline
      obtain ⟨t, ht, hle, hlt⟩ := ih hline
      exact ⟨t, ht, by omega, by omega⟩
  | @declare index lines t ts ht _ ih =>
    -- The line is one of those of the declaration, or it stands below them.
    by_cases hi : i < t.lines.length
    · have := ht.index_eq
      exact ⟨t, List.mem_cons_self, by omega, by omega⟩
    · have hdrop : (lines.drop t.lines.length)[i - t.lines.length]? = some line := by
        rw [List.getElem?_drop, Nat.add_sub_cancel' (Nat.le_of_not_lt hi), hline]
      obtain ⟨u, hu, hle, hlt⟩ := ih hdrop
      exact ⟨u, List.mem_cons_of_mem t hu, by omega, by omega⟩

end Reading

end VeLens.Outline
