import Mathlib.Data.List.Infix
import VeLens.Buffer.Block

/-!
# Where blocks end

The closing brace of a block is the first one at which the depth comes back to zero. It is found
without looking at what follows it, and lines that stay inside the block do not hold it.

## Main definitions

* `Balanced`: lines on which the depth never falls below what it was and comes back to it.

## Main results

* `closeFrom?_append_of_some`, `closeFrom?_append_of_none`: the closing brace of lines in two parts.
* `extent_fst_lt`: a block ends on one of the lines.
* `extentAt_eq`: the end of a block in a buffer, from the lines from its head on.
* `closeFrom?_concat_iff`: a block that closes on the last of some lines.
* `close?_balanced`: a block with a balanced body ends at the brace that follows it.
-/

namespace VeLens.Block

@[simp]
theorem turns_nil : turns [] = 0 := rfl

@[simp]
theorem turns_cons (c : Char) (s : Line) : turns (c :: s) = turn c + turns s := rfl

theorem turns_append (s r : Line) : turns (s ++ r) = turns s + turns r := by
  induction s with
  | nil => simp
  | cons c s ih => rw [List.cons_append, turns_cons, turns_cons, ih, Int.add_assoc]

theorem turn_open : turn '{' = 1 := rfl

theorem turn_close : turn '}' = -1 := rfl

theorem turn_eq_zero {c : Char} (hopen : c ≠ '{') (hclose : c ≠ '}') : turn c = 0 := by
  rw [turn, if_neg hopen, if_neg hclose]

theorem turns_eq_zero {s : Line} (hopen : '{' ∉ s) (hclose : '}' ∉ s) : turns s = 0 := by
  induction s with
  | nil => rfl
  | cons c s ih =>
    rw [List.mem_cons, not_or] at hopen hclose
    rw [turns_cons, turn_eq_zero (Ne.symm hopen.1) (Ne.symm hclose.1), ih hopen.2 hclose.2]
    rfl

/-! ### Two parts -/

theorem closeFrom?_cons_of_some {depth : Int} {line : Line} {column : Nat}
    (h : closeColumn? depth line = some column) (below : List Line) :
    closeFrom? depth (line :: below) = some (0, column) := by
  rw [closeFrom?, h]

theorem closeFrom?_cons_of_none {depth : Int} {line : Line}
    (h : closeColumn? depth line = none) (below : List Line) :
    closeFrom? depth (line :: below) =
      (closeFrom? (depth + turns line) below).map fun p => (p.1 + 1, p.2) := by
  rw [closeFrom?, h]

/-- A closing brace is found without looking at the lines that follow it. -/
theorem closeFrom?_append_of_some {depth : Int} {xs : List Line} {p : Nat × Nat}
    (h : closeFrom? depth xs = some p) (ys : List Line) :
    closeFrom? depth (xs ++ ys) = some p := by
  -- The depth changes from line to line, so the induction is for all depths.
  induction xs generalizing depth p with
  | nil => simp [closeFrom?] at h
  | cons line xs ih =>
    cases hline : closeColumn? depth line with
    | some column =>
      rw [closeFrom?_cons_of_some hline] at h
      rw [List.cons_append, closeFrom?_cons_of_some hline, h]
    | none =>
      rw [closeFrom?_cons_of_none hline, Option.map_eq_some_iff] at h
      obtain ⟨q, hq, hp⟩ := h
      rw [List.cons_append, closeFrom?_cons_of_none hline, ih hq, Option.map_some, hp]

/-- If the first part does not close the block, the second part is read at the depth that the first
part leads to. -/
theorem closeFrom?_append_of_none {depth : Int} {xs : List Line}
    (h : closeFrom? depth xs = none) (ys : List Line) :
    closeFrom? depth (xs ++ ys) =
      (closeFrom? (depth + turns xs.flatten) ys).map fun p => (p.1 + xs.length, p.2) := by
  induction xs generalizing depth with
  | nil => simp
  | cons line xs ih =>
    cases hline : closeColumn? depth line with
    | some column => simp [closeFrom?_cons_of_some hline] at h
    | none =>
      rw [closeFrom?_cons_of_none hline, Option.map_eq_none_iff] at h
      rw [List.cons_append, closeFrom?_cons_of_none hline, ih h, Option.map_map,
        List.flatten_cons, turns_append, Int.add_assoc]
      rfl

theorem closeFrom?_fst_lt {depth : Int} {xs : List Line} {p : Nat × Nat}
    (h : closeFrom? depth xs = some p) : p.1 < xs.length := by
  induction xs generalizing depth p with
  | nil => simp [closeFrom?] at h
  | cons line xs ih =>
    cases hline : closeColumn? depth line with
    | some column =>
      rw [closeFrom?_cons_of_some hline, Option.some_inj] at h
      rw [← h, List.length_cons]
      exact Nat.succ_pos _
    | none =>
      rw [closeFrom?_cons_of_none hline, Option.map_eq_some_iff] at h
      obtain ⟨q, hq, rfl⟩ := h
      exact Nat.succ_lt_succ (ih hq)

/-- The lines up to the closing brace are enough to find it. -/
theorem closeFrom?_take {depth : Int} {xs : List Line} {p : Nat × Nat}
    (h : closeFrom? depth xs = some p) : closeFrom? depth (xs.take (p.1 + 1)) = some p := by
  cases htake : closeFrom? depth (xs.take (p.1 + 1)) with
  | some q =>
    have hq := closeFrom?_append_of_some htake (xs.drop (p.1 + 1))
    rw [List.take_append_drop, h] at hq
    exact hq.symm
  | none =>
    -- The brace would stand below the lines that were taken.
    have hdrop := closeFrom?_append_of_none htake (xs.drop (p.1 + 1))
    rw [List.take_append_drop, h, eq_comm, Option.map_eq_some_iff] at hdrop
    obtain ⟨q, -, hqp⟩ := hdrop
    have hlt := closeFrom?_fst_lt h
    have hfst : q.1 + (xs.take (p.1 + 1)).length = p.1 := congrArg Prod.fst hqp
    rw [List.length_take] at hfst
    omega

theorem extent_of_close? {lines : List Line} {p : Nat × Nat} (h : close? lines = some p) :
    extent lines = p := by
  rw [extent, h, Option.getD_some]

/-- A block ends on one of the lines, closed or not. -/
theorem extent_fst_lt {lines : List Line} (hne : lines ≠ []) :
    (extent lines).1 < lines.length := by
  have hpos : 0 < lines.length := List.length_pos_iff.mpr hne
  cases h : close? lines with
  | some p =>
    rw [extent_of_close? h]
    exact closeFrom?_fst_lt h
  | none =>
    rw [extent, h, Option.getD_none, lastPlace]
    omega

/-- The place on a line that stands so many lines below line `i`. -/
def placeBelow (i : Nat) (p : Nat × Nat) : Position := ⟨i + p.1, p.2⟩

/-- The start of the head's line stands for a block that never closes. -/
theorem findEnd_of_close?_eq_none {lines : List Line} {i : Nat}
    (h : close? (lines.drop i) = none) : findEnd lines i = some ⟨i, 0⟩ := by
  rw [findEnd, readFrom?, if_pos (Int.natCast_nonneg i), Int.toNat_natCast, Option.map_some, h]

theorem findEnd_of_close? {lines : List Line} {i : Nat} {p : Nat × Nat}
    (h : close? (lines.drop i) = some p) : findEnd lines i = some (placeBelow i p) := by
  rw [findEnd, readFrom?, if_pos (Int.natCast_nonneg i), Int.toNat_natCast, Option.map_some, h]
  rfl

/-- A closing brace does not stand at the start of the head's line. -/
theorem isUnterminated_of_close? {lines : List Line} {p : Nat × Nat} (h : close? lines = some p)
    (i : Nat) : isUnterminated (placeBelow i p) i = false := by
  cases lines with
  | nil => simp [close?, closeFrom?] at h
  | cons line below =>
    cases hline : closeColumn? 0 line with
    | none =>
      rw [close?, closeFrom?_cons_of_none hline, Option.map_eq_some_iff] at h
      obtain ⟨q, -, rfl⟩ := h
      simp only [isUnterminated, placeBelow, Bool.and_eq_false_iff, beq_eq_false_iff_ne]
      left
      omega
    | some column =>
      rw [close?, closeFrom?_cons_of_some hline, Option.some_inj] at h
      subst h
      -- A brace at the start would be reached at depth zero, where it closes nothing.
      cases line with
      | nil => simp [closeColumn?] at hline
      | cons c s =>
        rw [closeColumn?, if_neg (by simp), Option.map_eq_some_iff] at hline
        obtain ⟨k, -, rfl⟩ := hline
        simp only [isUnterminated, placeBelow, Bool.and_eq_false_iff, beq_eq_false_iff_ne]
        right
        omega

theorem lastPlace_drop {lines : List Line} {i : Nat} (hi : i < lines.length) :
    lastPlace lines = (i + (lastPlace (lines.drop i)).1, (lastPlace (lines.drop i)).2) := by
  have hlast : (lines.drop i).getLastD [] = lines.getLastD [] := by
    rw [List.getLastD_eq_getLast?, List.getLastD_eq_getLast?, List.getLast?_drop,
      if_neg (by omega)]
  rw [lastPlace, lastPlace, hlast, List.length_drop, Prod.mk.injEq]
  exact ⟨by omega, rfl⟩

/-- The end of a block whose head is on a line of the buffer, from the lines from that one on. -/
theorem extentAt_eq {lines : List Line} {i : Nat} (hi : i < lines.length) :
    extentAt lines i = some (placeBelow i (extent (lines.drop i))) := by
  have hlines : lines.isEmpty = false :=
    List.isEmpty_eq_false_iff.mpr (List.ne_nil_of_length_pos (Nat.zero_lt_of_lt hi))
  rw [extentAt]
  cases hclose : close? (lines.drop i) with
  | some p =>
    rw [findEnd_of_close? hclose, extent_of_close? hclose, Option.map_some,
      isUnterminated_of_close? hclose]
    rfl
  | none =>
    have hopen : isUnterminated ⟨i, 0⟩ i = true := by simp [isUnterminated]
    rw [findEnd_of_close?_eq_none hclose, Option.map_some, hopen, hlines, extent, hclose,
      Option.getD_none, lastPlace_drop hi]
    rfl

/-! ### The last line -/

theorem closeColumn?_lt {depth : Int} {line : Line} {column : Nat}
    (h : closeColumn? depth line = some column) : column < line.length := by
  induction line generalizing depth column with
  | nil => simp [closeColumn?] at h
  | cons c s ih =>
    rw [closeColumn?] at h
    split at h
    · rw [← Option.some_inj.mp h]
      exact Nat.succ_pos _
    · obtain ⟨q, hq, rfl⟩ := Option.map_eq_some_iff.mp h
      exact Nat.succ_lt_succ (ih hq)

/-- What follows the closing brace on its line does not matter. -/
theorem closeColumn?_take {depth : Int} {line : Line} {column k : Nat}
    (h : closeColumn? depth line = some column) (hk : column < k) :
    closeColumn? depth (line.take k) = some column := by
  induction line generalizing depth column k with
  | nil => simp [closeColumn?] at h
  | cons c s ih =>
    obtain ⟨k, rfl⟩ : ∃ n, k = n + 1 := Nat.exists_eq_add_one.mpr (Nat.zero_lt_of_lt hk)
    rw [List.take_succ_cons, closeColumn?]
    rw [closeColumn?] at h
    split at h
    · next hclose => rw [if_pos hclose, h]
    · next hclose =>
      obtain ⟨q, hq, rfl⟩ := Option.map_eq_some_iff.mp h
      rw [if_neg hclose, ih hq (Nat.lt_of_succ_lt_succ hk), Option.map_some]

/-- The block closes on the last of some lines: the others do not close it, and the last one does
at the depth that they lead to. -/
theorem closeFrom?_concat_iff {depth : Int} {front : List Line} {last : Line} {column : Nat} :
    closeFrom? depth (front ++ [last]) = some (front.length, column) ↔
      closeFrom? depth front = none ∧
        closeColumn? (depth + turns front.flatten) last = some column := by
  have hlast (d : Int) : closeFrom? d [last] = (closeColumn? d last).map fun c => (0, c) := by
    cases h : closeColumn? d last with
    | some c => rw [closeFrom?_cons_of_some h, Option.map_some]
    | none => rw [closeFrom?_cons_of_none h]; rfl
  cases hfront : closeFrom? depth front with
  | some p =>
    have hlt := closeFrom?_fst_lt hfront
    rw [closeFrom?_append_of_some hfront]
    simp only [Option.some.injEq, reduceCtorEq, false_and, iff_false]
    rintro rfl
    exact Nat.lt_irrefl _ hlt
  | none =>
    rw [closeFrom?_append_of_none hfront, hlast]
    cases closeColumn? (depth + turns front.flatten) last <;> simp

/-! ### Balanced bodies -/

/-- Lines on which the depth never falls below what it was at the start, character by character,
and at the end of which it is the same again. -/
def Balanced (lines : List Line) : Prop :=
  (∀ front, front <+: lines.flatten → 0 ≤ turns front) ∧ turns lines.flatten = 0

instance (lines : List Line) : Decidable (Balanced lines) :=
  decidable_of_iff
    ((∀ front ∈ lines.flatten.inits, 0 ≤ turns front) ∧ turns lines.flatten = 0)
    (by simp only [List.mem_inits, Balanced])

theorem balanced_of_not_mem {lines : List Line}
    (h : ∀ line ∈ lines, '{' ∉ line ∧ '}' ∉ line) : Balanced lines := by
  have hopen : '{' ∉ lines.flatten := by
    rw [List.mem_flatten]
    rintro ⟨line, hline, hc⟩
    exact (h line hline).1 hc
  have hclose : '}' ∉ lines.flatten := by
    rw [List.mem_flatten]
    rintro ⟨line, hline, hc⟩
    exact (h line hline).2 hc
  refine ⟨fun front hfront => ?_, turns_eq_zero hopen hclose⟩
  have hzero : turns front = 0 :=
    turns_eq_zero (fun hc => hopen (hfront.subset hc)) fun hc => hclose (hfront.subset hc)
  exact Int.le_of_eq hzero.symm

theorem closeColumn?_eq_none {depth : Int} {line : Line}
    (h : ∀ front, front <+: line → 0 < depth + turns front) : closeColumn? depth line = none := by
  induction line generalizing depth with
  | nil => rfl
  | cons c s ih =>
    -- A brace that closes the block would bring the depth to zero right here.
    have hstep : ¬(c = '}' ∧ depth = 1) := by
      rintro ⟨rfl, rfl⟩
      have := h ['}'] (by simp)
      simp [turn] at this
    rw [closeColumn?, if_neg hstep, Option.map_eq_none_iff]
    apply ih
    intro front hfront
    have := h (c :: front) (by simpa using hfront)
    rw [turns_cons] at this
    omega

/-- As long as the depth stays positive the block is not closed. -/
theorem closeFrom?_eq_none {depth : Int} {lines : List Line}
    (h : ∀ front, front <+: lines.flatten → 0 < depth + turns front) :
    closeFrom? depth lines = none := by
  induction lines generalizing depth with
  | nil => rfl
  | cons line lines ih =>
    have hline : closeColumn? depth line = none := by
      apply closeColumn?_eq_none
      intro front hfront
      exact h front (hfront.trans (by simp))
    rw [closeFrom?_cons_of_none hline, Option.map_eq_none_iff]
    apply ih
    intro front hfront
    have := h (line ++ front) (by simpa using hfront)
    rw [turns_append] at this
    omega

theorem closeColumn?_of_not_mem {line : Line} (h : '}' ∉ line) (depth : Int) :
    closeColumn? depth line = none := by
  induction line generalizing depth with
  | nil => rfl
  | cons c s ih =>
    rw [List.mem_cons, not_or] at h
    rw [closeColumn?, if_neg fun hc => h.1 hc.1.symm, ih h.2, Option.map_none]

/-- A head line that opens one brace, a balanced body and a closing brace on a line of its own:
the block ends at that brace, whatever follows. -/
theorem close?_balanced {head : Line} {body : List Line} (hclose : '}' ∉ head)
    (hturns : turns head = 1) (hbody : Balanced body) (below : List Line) :
    close? (head :: body ++ ['}'] :: below) = some (body.length + 1, 0) := by
  -- Inside the body the depth is at least one, counted from the brace of the head.
  have hstay : closeFrom? 1 body = none := by
    apply closeFrom?_eq_none
    intro front hfront
    have := hbody.1 front hfront
    omega
  rw [close?, List.cons_append, closeFrom?_cons_of_none (closeColumn?_of_not_mem hclose 0), hturns,
    Int.zero_add, closeFrom?_append_of_none hstay, hbody.2, Int.add_zero]
  simp [closeFrom?, closeColumn?]

end VeLens.Block
