import VeLens.Proofs.Buffer.Braces
import VeLens.Proofs.Buffer.Lines

/-!
# Blocks inside blocks

A block that begins inside another one ends before it. The two scans read the same characters at
different depths. The outer one is always the deeper of the two, so when it comes down to zero the
inner one has been there already.

## Main definitions

* `firstBrace?`: the first brace on some lines.
* `Enters`: a text that is inside a block, or goes into one before it meets a closing brace.

## Main results

* `Enters.step`, `Enters.run`: a block stays open until it closes.
* `Enters.exists_closeFrom?_lt`: of two scans the shallower one ends first.
* `findEnd_nested`: the end of a block inside another one.
-/

namespace VeLens.Block

/-- The first brace on some lines. -/
def firstBrace? (lines : List Line) : Option Char := lines.flatten.find? isBrace

/-- A text that is reached at the given depth is inside a block, or it goes into one: its first
brace is an opening one. -/
def Enters (depth : Int) (s : List Char) : Prop :=
  0 < depth ∨ depth = 0 ∧ s.find? isBrace = some '{'

/-! ### A block stays open until it closes -/

theorem Enters.step {depth : Int} {c : Char} {s : List Char} (h : Enters depth (c :: s))
    (hclose : ¬(c = '}' ∧ depth = 1)) : Enters (depth + turn c) s := by
  cases hc : isBrace c with
  | false =>
    -- A character between the braces changes neither the depth nor the first brace.
    rwa [Enters, List.find?_cons_of_neg (by simp [hc]), ← Enters,
      ← Int.add_zero depth, ← turn_of_not_isBrace hc] at h
  | true =>
    left
    rw [Enters, List.find?_cons_of_pos hc, Option.some_inj] at h
    rcases isBrace_iff.mp hc with rfl | rfl
    · rw [turn_open]
      omega
    · have hpos : 0 < depth := h.resolve_right fun hzero => absurd hzero.2 (by decide)
      have hdepth : depth ≠ 1 := fun hone => hclose ⟨rfl, hone⟩
      rw [turn_close]
      omega

/-- What follows a text that does not close the block is still inside, or goes into one. -/
theorem Enters.run {depth : Int} {s rest : List Char} (h : Enters depth (s ++ rest))
    (hnone : closeColumn? depth s = none) : Enters (depth + turns s) rest := by
  induction s generalizing depth with
  | nil => rwa [turns_nil, Int.add_zero]
  | cons c s ih =>
    rw [closeColumn?] at hnone
    split at hnone
    · exact absurd hnone (by simp)
    · next hclose =>
      rw [turns_cons, ← Int.add_assoc]
      exact ih (h.step hclose) (Option.map_eq_none_iff.mp hnone)

theorem Enters.pos {depth : Int} (h : Enters depth []) : 0 < depth :=
  h.resolve_right fun hzero => absurd hzero.2 (by simp)

/-! ### Two scans at different depths -/

/-- On a line that closes a block, a shallower block that is open there closes before it. -/
theorem Enters.exists_closeColumn?_lt {depth deeper : Int} {line rest : List Char} {k : Nat}
    (h : Enters depth (line ++ rest)) (hlt : depth < deeper)
    (hk : closeColumn? deeper line = some k) : ∃ m < k, closeColumn? depth line = some m := by
  induction line generalizing depth deeper k with
  | nil => simp [closeColumn?] at hk
  | cons c s ih =>
    rw [closeColumn?] at hk
    split at hk
    · next hclose =>
      -- The deeper scan closes at depth one, so the other one is at zero, where no brace opens.
      obtain ⟨rfl, rfl⟩ := hclose
      rcases h with hpos | ⟨-, hopen⟩
      · omega
      · exact absurd hopen (by simp [isBrace])
    · obtain ⟨k, hrest, rfl⟩ := Option.map_eq_some_iff.mp hk
      by_cases hclose : c = '}' ∧ depth = 1
      · exact ⟨0, Nat.succ_pos k, by rw [closeColumn?, if_pos hclose]⟩
      · obtain ⟨m, hm, hcolumn⟩ := ih (h.step hclose) (Int.add_lt_add_right hlt _) hrest
        refine ⟨m + 1, Nat.succ_lt_succ hm, ?_⟩
        rw [closeColumn?, if_neg hclose, hcolumn, Option.map_some]

/-- Of two scans of the same lines the shallower one ends first. -/
theorem Enters.exists_closeFrom?_lt {depth deeper : Int} {lines : List Line} {p : Nat × Nat}
    (h : Enters depth lines.flatten) (hlt : depth < deeper)
    (hp : closeFrom? deeper lines = some p) :
    ∃ q, closeFrom? depth lines = some q ∧ (q.1 < p.1 ∨ q.1 = p.1 ∧ q.2 < p.2) := by
  induction lines generalizing depth deeper p with
  | nil => simp [closeFrom?] at hp
  | cons line below ih =>
    rw [List.flatten_cons] at h
    cases hdeeper : closeColumn? deeper line with
    | some k =>
      rw [closeFrom?_cons_of_some hdeeper, Option.some_inj] at hp
      subst hp
      obtain ⟨m, hm, hline⟩ := h.exists_closeColumn?_lt hlt hdeeper
      exact ⟨(0, m), closeFrom?_cons_of_some hline below, .inr ⟨rfl, hm⟩⟩
    | none =>
      rw [closeFrom?_cons_of_none hdeeper, Option.map_eq_some_iff] at hp
      obtain ⟨p, hp, rfl⟩ := hp
      cases hline : closeColumn? depth line with
      | some m =>
        exact ⟨(0, m), closeFrom?_cons_of_some hline below, .inl (Nat.succ_pos p.1)⟩
      | none =>
        obtain ⟨q, hq, hbefore⟩ := ih (h.run hline) (Int.add_lt_add_right hlt _) hp
        refine ⟨(q.1 + 1, q.2), ?_, ?_⟩
        · rw [closeFrom?_cons_of_none hline, hq, Option.map_some]
        · dsimp only
          omega

/-! ### Blocks of a buffer -/

/-- An end that does not stand for an open block is a closing brace. -/
theorem exists_close?_of_findEnd {lines : List Line} {i : Nat} {e : Position}
    (he : findEnd lines i = some e) (hreal : isUnterminated e i = false) :
    ∃ p, close? (lines.drop i) = some p ∧ e = placeBelow i p := by
  cases hclose : close? (lines.drop i) with
  | some p =>
    rw [findEnd_of_close? hclose, Option.some_inj] at he
    exact ⟨p, rfl, he.symm⟩
  | none =>
    rw [findEnd_of_close?_eq_none hclose, Option.some_inj] at he
    subst he
    simp [isUnterminated] at hreal

/-- A block that closes on line `j` or below is open at the start of that line, and the scan goes on
from there at the depth that the lines above lead to. -/
theorem closeFrom?_of_below {lines : List Line} {i j : Nat} {p : Nat × Nat} (hij : i ≤ j)
    (hj : j ≤ lines.length) (hp : close? (lines.drop i) = some p) (hbelow : j ≤ i + p.1) :
    closeFrom? 0 ((lines.drop i).take (j - i)) = none ∧
      ∃ q, closeFrom? (turns ((lines.drop i).take (j - i)).flatten) (lines.drop j) = some q ∧
        placeBelow i p = placeBelow j q := by
  have hsplit : lines.drop i = (lines.drop i).take (j - i) ++ lines.drop j := by
    conv_lhs => rw [← List.drop_take_append_drop lines i (j - i), Nat.add_sub_cancel' hij]
  have hlength : ((lines.drop i).take (j - i)).length = j - i := by
    rw [List.length_take, List.length_drop]
    omega
  rw [hsplit, close?] at hp
  cases hfront : closeFrom? 0 ((lines.drop i).take (j - i)) with
  | some q =>
    have hlt := closeFrom?_fst_lt hfront
    rw [closeFrom?_append_of_some hfront, Option.some_inj] at hp
    subst hp
    omega
  | none =>
    rw [closeFrom?_append_of_none hfront, Int.zero_add, Option.map_eq_some_iff] at hp
    obtain ⟨q, hq, rfl⟩ := hp
    refine ⟨rfl, q, hq, ?_⟩
    rw [placeBelow, placeBelow, Position.mk.injEq]
    dsimp only
    omega

/-- **A block inside another one ends before it.** Let the block of line `i` open above line `j` and
close on line `j` or below, and let the first brace from line `j` on be an opening one. Then the
block of line `j` closes as well, strictly before that of line `i` in reading order. -/
theorem findEnd_nested {lines : List Line} {i j : Nat} {e : Position}
    (hopen : firstBrace? ((lines.drop i).take (j - i)) = some '{')
    (he : findEnd lines i = some e) (hreal : isUnterminated e i = false)
    (hbelow : (⟨j, 0⟩ : Position).le e = true)
    (hinner : firstBrace? (lines.drop j) = some '{') :
    ∃ e', findEnd lines j = some e' ∧ isUnterminated e' j = false ∧
      e'.le e = true ∧ e' ≠ e := by
  have hij : i < j := by
    by_contra hge
    rw [Nat.sub_eq_zero_of_le (by omega)] at hopen
    simp [firstBrace?] at hopen
  have hj : j < lines.length := by
    by_contra hge
    rw [List.drop_of_length_le (by omega)] at hinner
    simp [firstBrace?] at hinner
  obtain ⟨p, hp, rfl⟩ := exists_close?_of_findEnd he hreal
  have hline : j ≤ i + p.1 := by
    rw [Position.le_iff, placeBelow] at hbelow
    dsimp only at hbelow
    omega
  obtain ⟨hnone, q, hq, hsame⟩ := closeFrom?_of_below (by omega) (by omega) hp hline
  -- The outer block has been entered above line `j`, so it is read on at a positive depth.
  have hdepth : 0 < turns ((lines.drop i).take (j - i)).flatten := by
    have houter : Enters 0 (((lines.drop i).take (j - i)).flatten ++ []) := by
      rw [List.append_nil]
      exact .inr ⟨rfl, hopen⟩
    have := (houter.run (closeFrom?_eq_none_iff_flatten.mp hnone)).pos
    rwa [Int.zero_add] at this
  have hentered : Enters 0 (lines.drop j).flatten := .inr ⟨rfl, hinner⟩
  obtain ⟨r, hr, hbefore⟩ := hentered.exists_closeFrom?_lt hdepth hq
  refine ⟨placeBelow j r, findEnd_of_close? hr, isUnterminated_of_close? hr j, ?_, ?_⟩
  · rw [hsame, Position.le_iff, placeBelow, placeBelow]
    dsimp only
    omega
  · rw [hsame, placeBelow, placeBelow, Ne, Position.mk.injEq]
    omega

/-- Both blocks end on one line, and a closing brace stands between the two ends. -/
theorem findEnd_nested_sameLine :
    let lines := ["fn f() \x7b \x7b".toList, "  if a \x7b".toList, "\x7d\x7d\x7d".toList]
    firstBrace? ((lines.drop 0).take 1) = some '{' ∧ findEnd lines 0 = some ⟨2, 2⟩ ∧
      firstBrace? (lines.drop 1) = some '{' ∧
      ∃ e', findEnd lines 1 = some e' ∧ isUnterminated e' 1 = false ∧
        e'.le ⟨2, 2⟩ = true ∧ e' ≠ ⟨2, 2⟩ := by
  intro lines
  have hopen : firstBrace? ((lines.drop 0).take 1) = some '{' := by decide
  have hend : findEnd lines 0 = some ⟨2, 2⟩ := by decide
  have hinner : firstBrace? (lines.drop 1) = some '{' := by decide
  exact ⟨hopen, hend, hinner, findEnd_nested hopen hend (by decide) (by decide) hinner⟩

end VeLens.Block
