import VeLens.Proofs.Scope.Tiers

/-!
# The enclosing function

The function that a line is in is the nearest one whose head stands on the line or above. Its names
that are visible on the line depend on nothing below the line: a block that is still open there
reaches at least down to the line, wherever it closes.

## Main definitions

* `functionOn?`: the head of a function on a line of the buffer.

## Main results

* `enclosing?_eq_some_iff`: which function is the enclosing one.
* `functionBindings_take`: the buffer can be cut below the line.
* `resolve_eq_of_agree_above`: edits below the cursor change no name of the enclosing function.
-/

namespace VeLens.Scope

open Declaration Text

/-! ### The nearest head -/

/-- The head of a function on a line of the buffer. -/
def functionOn? (lines : List Line) (i : Nat) : Option Function :=
  lines[i]?.bind fun line => functionHead? (trim line)

theorem functionOn?_eq_none_iff {lines : List Line} {i : Nat} : functionOn? lines i = none ↔
    ∀ line, lines[i]? = some line → functionHead? (trim line) = none :=
  Option.bind_eq_none_iff

theorem enclosing?_zero (lines : List Line) :
    enclosing? lines 0 = (functionOn? lines 0).map (0, ·) := by
  cases lines with
  | nil => rfl
  | cons line below => simp [enclosing?, functionOn?]

/-- The head on the line itself comes before those above it. -/
theorem enclosing?_succ (lines : List Line) (n : Nat) :
    enclosing? lines (n + 1) =
      ((functionOn? lines (n + 1)).map (n + 1, ·)).or (enclosing? lines n) := by
  rw [enclosing?, enclosing?, List.take_add_one, List.zipIdx_append, List.reverse_append,
    List.findSome?_append, functionOn?]
  congr 1
  cases hline : lines[n + 1]? with
  | none => rfl
  | some line =>
    obtain ⟨hlt, -⟩ := List.getElem?_eq_some_iff.mp hline
    simp [Nat.min_eq_left (Nat.le_of_lt hlt)]

theorem enclosing?_eq_some_iff {lines : List Line} {n i : Nat} {head : Function} :
    enclosing? lines n = some (i, head) ↔
      i ≤ n ∧ functionOn? lines i = some head ∧
        ∀ j, i < j → j ≤ n → functionOn? lines j = none := by
  induction n with
  | zero =>
    rw [enclosing?_zero, Option.map_eq_some_iff]
    constructor
    · rintro ⟨head', hhead, hsame⟩
      obtain ⟨rfl, rfl⟩ := Prod.mk.inj hsame
      exact ⟨Nat.le_refl 0, hhead, fun j hlo hhi => absurd hlo (by omega)⟩
    · rintro ⟨hle, hhead, -⟩
      obtain rfl : i = 0 := by omega
      exact ⟨head, hhead, rfl⟩
  | succ n ih =>
    rw [enclosing?_succ]
    cases hn : functionOn? lines (n + 1) with
    | some head' =>
      rw [Option.map_some, Option.some_or, Option.some_inj, Prod.mk.injEq]
      constructor
      · rintro ⟨rfl, rfl⟩
        exact ⟨Nat.le_refl _, hn, fun j hlo hhi => absurd hlo (by omega)⟩
      · -- A head further up would not be the nearest one.
        rintro ⟨hle, hhead, hnone⟩
        have hi : n + 1 = i := by
          by_contra hne
          have hgone := hnone (n + 1) (by omega) (Nat.le_refl _)
          rw [hn] at hgone
          exact absurd hgone (by simp)
        subst hi
        rw [hn, Option.some_inj] at hhead
        exact ⟨rfl, hhead⟩
    | none =>
      rw [Option.map_none, Option.none_or, ih]
      constructor
      · rintro ⟨hle, hhead, hnone⟩
        refine ⟨Nat.le_succ_of_le hle, hhead, ?_⟩
        intro j hlo hhi
        by_cases hj : j = n + 1
        · rw [hj, hn]
        · exact hnone j hlo (by omega)
      · rintro ⟨hle, hhead, hnone⟩
        have hne : i ≠ n + 1 := by
          rintro rfl
          rw [hn] at hhead
          exact absurd hhead (by simp)
        exact ⟨by omega, hhead, fun j hlo hhi => hnone j hlo (by omega)⟩

/-! ### Lines below the cursor -/

section Take

variable {lines : List Line} {n i : Nat}

theorem enclosing?_take : enclosing? (lines.take (n + 1)) n = enclosing? lines n := by
  rw [enclosing?, enclosing?, List.take_take, Nat.min_self]

theorem locals_take {stop : Nat} (hstop : stop ≤ n) :
    locals (lines.take (n + 1)) i stop = locals lines i stop := by
  rw [locals, locals, List.drop_take, List.take_take, Nat.min_eq_left (by omega)]

/-- Down to line `n` the extent of a block depends on the lines down to there only: it closes on one
of them, or it reaches line `n`. -/
theorem min_blockEndLine (hi : i ≤ n) (hn : n < lines.length) :
    min n (blockEndLine lines i) =
      ((Block.close? ((lines.take (n + 1)).drop i)).map fun p => i + p.1).getD n := by
  have hsplit : lines.drop i = (lines.take (n + 1)).drop i ++ lines.drop (n + 1) := by
    conv_lhs => rw [← List.take_append_drop (n + 1) lines]
    rw [List.drop_append_of_le_length (by rw [List.length_take]; omega)]
  have hseen : ((lines.take (n + 1)).drop i).length = n + 1 - i := by
    rw [List.length_drop, List.length_take]
    omega
  cases hclose : Block.close? ((lines.take (n + 1)).drop i) with
  | some p =>
    have hlt := Block.closeFrom?_fst_lt hclose
    have hwhole : Block.close? (lines.drop i) = some p := by
      rw [hsplit]
      exact Block.closeFrom?_append_of_some hclose _
    rw [blockEndLine, Block.extent_of_close? hwhole, Option.map_some, Option.getD_some]
    omega
  | none =>
    have hwhole := Block.closeFrom?_append_of_none hclose (lines.drop (n + 1))
    rw [← hsplit, ← Block.close?, hseen] at hwhole
    rw [blockEndLine, Block.extent, hwhole, Option.map_none, Option.getD_none]
    cases Block.closeFrom? _ (lines.drop (n + 1)) with
    | some p =>
      rw [Option.map_some, Option.getD_some]
      dsimp only
      omega
    | none =>
      rw [Option.map_none, Option.getD_none, Block.lastPlace, List.length_drop]
      dsimp only
      omega

/-- The names of the enclosing function are found without looking below the line. -/
theorem functionBindings_take (hn : n < lines.length) :
    functionBindings (lines.take (n + 1)) n = functionBindings lines n := by
  rw [functionBindings, functionBindings, enclosing?_take]
  cases henclosing : enclosing? lines n with
  | none => rfl
  | some p =>
    obtain ⟨i, head⟩ := p
    have hi := (enclosing?_eq_some_iff.mp henclosing).1
    have hlength : n < (lines.take (n + 1)).length := by
      rw [List.length_take]
      omega
    have hstop : min n (blockEndLine (lines.take (n + 1)) i) = min n (blockEndLine lines i) := by
      rw [min_blockEndLine hi hlength, min_blockEndLine hi hn, List.take_take, Nat.min_self]
    dsimp only
    rw [hstop, locals_take (Nat.min_le_left _ _)]

theorem clampLine_of_lt (hn : n < lines.length) : clampLine lines n = n := by
  rw [clampLine, Int.toNat_natCast]
  omega

end Take

/-- **Edits below the cursor do not reach its function.** If two texts agree down to the line of the
cursor, the same parameters, local variables and loop variables are visible there, whatever stands
below the line in either text. -/
theorem resolve_eq_of_agree_above (a b : String) (n : Nat) (column column' : Int)
    (ha : n < (Buffer.lines a.toList).length) (hb : n < (Buffer.lines b.toList).length)
    (hagree : (Buffer.lines a.toList).take (n + 1) = (Buffer.lines b.toList).take (n + 1)) :
    (resolve (Buffer.lines a.toList) ⟨n, column⟩).filter (!·.kind.isGlobal) =
      (resolve (Buffer.lines b.toList) ⟨n, column'⟩).filter (!·.kind.isGlobal) := by
  rw [filter_not_isGlobal_resolve, filter_not_isGlobal_resolve, clampLine_of_lt ha,
    clampLine_of_lt hb]
  calc functionBindings (Buffer.lines a.toList) n
      = functionBindings ((Buffer.lines a.toList).take (n + 1)) n := (functionBindings_take ha).symm
    _ = functionBindings ((Buffer.lines b.toList).take (n + 1)) n := by rw [hagree]
    _ = functionBindings (Buffer.lines b.toList) n := functionBindings_take hb

/-- The block closes below the cursor in one text and never in the other one. -/
theorem resolve_eq_of_agree_above_unclosed :
    let a := "fn f(p: T) \x7b\n  let x = 1;\n  \n  let y;\n\x7d\nlet g;"
    let b := "fn f(p: T) \x7b\n  let x = 1;\n  \n\x7b fn h(q: T) \x7b\x7b"
    2 < (Buffer.lines a.toList).length ∧ 2 < (Buffer.lines b.toList).length ∧
      (Buffer.lines a.toList).take 3 = (Buffer.lines b.toList).take 3 ∧
      (resolve (Buffer.lines a.toList) ⟨2, 0⟩).filter (!·.kind.isGlobal) =
        [⟨"p", "T", .parameter, none⟩, ⟨"x", "i32", .localVariable, some "1"⟩] ∧
      (resolve (Buffer.lines b.toList) ⟨2, 1⟩).filter (!·.kind.isGlobal) =
        [⟨"p", "T", .parameter, none⟩, ⟨"x", "i32", .localVariable, some "1"⟩] := by
  intro a b
  have ha : 2 < (Buffer.lines a.toList).length := by decide +kernel
  have hb : 2 < (Buffer.lines b.toList).length := by decide +kernel
  have hagree : (Buffer.lines a.toList).take 3 = (Buffer.lines b.toList).take 3 := by
    decide +kernel
  have hnames : (resolve (Buffer.lines b.toList) ⟨2, 1⟩).filter (!·.kind.isGlobal) =
      [⟨"p", "T", .parameter, none⟩, ⟨"x", "i32", .localVariable, some "1"⟩] := by decide +kernel
  have hsame := resolve_eq_of_agree_above a b 2 0 1 ha hb hagree
  exact ⟨ha, hb, hagree, hsame.trans hnames, hnames⟩

end VeLens.Scope
