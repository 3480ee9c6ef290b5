import VeLens.Proofs.Buffer.Blocks
import VeLens.Proofs.Buffer.Lines

/-!
# Exact matching of braces

The end of a block is found by a scan that keeps a depth. What it finds can be said without a depth:
the first closing brace, in reading order, through which the text from the head's line on holds as
many opening braces as closing ones. Before the first opening brace the depth may fall below zero,
and such a brace can still be reached later on.

## Main definitions

* `Buffer.charAt?`, `Buffer.through`: the character at a position, and the text through it.
* `EvensOut`: a closing brace through which opening and closing braces are equally many.
* `ClosesOn`, `ClosesIn`: the same on a line and on some lines that are reached at a depth.

## Main results

* `closeColumn?_eq_none_iff`, `closesOn_of_closeColumn?`: what the scan of a line finds.
* `closeFrom?_eq_none_iff`, `closesIn_of_closeFrom?`: what the scan of some lines finds.
* `evensOut_placeBelow_iff`: depths and numbers of braces say the same.
* `findEnd_exact`: where a block ends.
-/

namespace VeLens

namespace Buffer

/-- The character at a position, if one stands there. -/
def charAt? (lines : List Line) (p : Position) : Option Char :=
  if p.column < 0 then none else (lineAt lines p.line)[p.column.toNat]?

/-- The text from the start of line `start` through the character at a position. -/
def through (lines : List Line) (start : Int) (p : Position) : List Char :=
  covered lines ⟨⟨start, 0⟩, ⟨p.line, p.column + 1⟩⟩

end Buffer

namespace Block

/-- A closing brace on line `start` or below. The text from the start of that line through the brace
holds as many opening braces as closing ones. -/
structure EvensOut (lines : List Line) (start : Int) (p : Position) : Prop where
  below : start ≤ p.line
  brace : Buffer.charAt? lines p = some '}'
  even : (Buffer.through lines start p).count '{' = (Buffer.through lines start p).count '}'

/-! ### One line -/

/-- On a line that is reached at the given depth, a closing brace brings the depth to zero. -/
def ClosesOn (depth : Int) (s : Line) (k : Nat) : Prop :=
  s[k]? = some '}' ∧ depth + turns (s.take (k + 1)) = 0

theorem not_closesOn_nil (depth : Int) (k : Nat) : ¬ClosesOn depth [] k := by
  rintro ⟨hbrace, -⟩
  simp at hbrace

theorem closesOn_cons_zero {depth : Int} {c : Char} {s : Line} :
    ClosesOn depth (c :: s) 0 ↔ c = '}' ∧ depth = 1 := by
  rw [ClosesOn, List.getElem?_cons_zero, Option.some_inj]
  refine and_congr_right ?_
  rintro rfl
  have hturn : turns (('}' :: s).take (0 + 1)) = -1 := rfl
  rw [hturn]
  omega

theorem closesOn_cons_succ {depth : Int} {c : Char} {s : Line} {k : Nat} :
    ClosesOn depth (c :: s) (k + 1) ↔ ClosesOn (depth + turn c) s k := by
  rw [ClosesOn, ClosesOn, List.getElem?_cons_succ, List.take_succ_cons, turns_cons, Int.add_assoc]

theorem closeColumn?_eq_none_iff {depth : Int} {line : Line} :
    closeColumn? depth line = none ↔ ∀ k, ¬ClosesOn depth line k := by
  induction line generalizing depth with
  | nil => exact iff_of_true rfl (not_closesOn_nil depth)
  | cons c s ih =>
    rw [closeColumn?]
    by_cases hclose : c = '}' ∧ depth = 1
    · rw [if_pos hclose]
      simp only [reduceCtorEq, false_iff, not_forall, not_not]
      exact ⟨0, closesOn_cons_zero.mpr hclose⟩
    · rw [if_neg hclose, Option.map_eq_none_iff, ih]
      constructor
      · intro h k
        cases k with
        | zero => rwa [closesOn_cons_zero]
        | succ k => rw [closesOn_cons_succ]; exact h k
      · intro h k
        rw [← closesOn_cons_succ]
        exact h (k + 1)

/-- The scan of a line finds the first brace that closes the block. -/
theorem closesOn_of_closeColumn? {depth : Int} {line : Line} {column : Nat}
    (h : closeColumn? depth line = some column) :
    ClosesOn depth line column ∧ ∀ k, ClosesOn depth line k → column ≤ k := by
  induction line generalizing depth column with
  | nil => simp [closeColumn?] at h
  | cons c s ih =>
    rw [closeColumn?] at h
    split at h
    · next hclose =>
      obtain rfl := Option.some_inj.mp h
      exact ⟨closesOn_cons_zero.mpr hclose, fun k _ => Nat.zero_le k⟩
    · next hclose =>
      obtain ⟨k, hk, rfl⟩ := Option.map_eq_some_iff.mp h
      obtain ⟨hcloses, hfirst⟩ := ih hk
      refine ⟨closesOn_cons_succ.mpr hcloses, fun m hm => ?_⟩
      cases m with
      | zero => exact absurd (closesOn_cons_zero.mp hm) hclose
      | succ m => exact Nat.succ_le_succ (hfirst m (closesOn_cons_succ.mp hm))

/-! ### Several lines -/

/-- On lines that are reached at the given depth, the closing brace so many lines down brings the
depth to zero. -/
def ClosesIn (depth : Int) (lines : List Line) (p : Nat × Nat) : Prop :=
  ClosesOn (depth + turns (lines.take p.1).flatten) (lines.getD p.1 []) p.2

theorem not_closesIn_nil (depth : Int) (p : Nat × Nat) : ¬ClosesIn depth [] p :=
  not_closesOn_nil _ p.2

theorem closesIn_cons_zero {depth : Int} {line : Line} {below : List Line} {k : Nat} :
    ClosesIn depth (line :: below) (0, k) ↔ ClosesOn depth line k := by
  rw [ClosesIn, List.take_zero, List.flatten_nil, turns_nil, Int.add_zero, List.getD_cons_zero]

theorem closesIn_cons_succ {depth : Int} {line : Line} {below : List Line} {d k : Nat} :
    ClosesIn depth (line :: below) (d + 1, k) ↔ ClosesIn (depth + turns line) below (d, k) := by
  rw [ClosesIn, ClosesIn, List.take_succ_cons, List.flatten_cons, turns_append,
    List.getD_cons_succ, Int.add_assoc]

theorem closeFrom?_eq_none_iff {depth : Int} {lines : List Line} :
    closeFrom? depth lines = none ↔ ∀ p, ¬ClosesIn depth lines p := by
  -- The lines below are reached at another depth, so the induction is for all depths.
  induction lines generalizing depth with
  | nil => exact iff_of_true rfl (not_closesIn_nil depth)
  | cons line below ih =>
    cases hline : closeColumn? depth line with
    | some column =>
      rw [closeFrom?_cons_of_some hline]
      simp only [reduceCtorEq, false_iff, not_forall, not_not]
      exact ⟨(0, column), closesIn_cons_zero.mpr (closesOn_of_closeColumn? hline).1⟩
    | none =>
      rw [closeFrom?_cons_of_none hline, Option.map_eq_none_iff, ih]
      constructor
      · rintro h ⟨d, k⟩
        cases d with
        | zero => rw [closesIn_cons_zero]; exact closeColumn?_eq_none_iff.mp hline k
        | succ d => rw [closesIn_cons_succ]; exact h (d, k)
      · rintro h ⟨d, k⟩
        rw [← closesIn_cons_succ]
        exact h (d + 1, k)

/-- The scan of some lines finds the first brace, in reading order, that closes the block. -/
theorem closesIn_of_closeFrom? {depth : Int} {lines : List Line} {p : Nat × Nat}
    (h : closeFrom? depth lines = some p) :
    ClosesIn depth lines p ∧
      ∀ q, ClosesIn depth lines q → p.1 < q.1 ∨ p.1 = q.1 ∧ p.2 ≤ q.2 := by
  induction lines generalizing depth p with
  | nil => simp [closeFrom?] at h
  | cons line below ih =>
    cases hline : closeColumn? depth line with
    | some column =>
      rw [closeFrom?_cons_of_some hline, Option.some_inj] at h
      subst h
      obtain ⟨hcloses, hfirst⟩ := closesOn_of_closeColumn? hline
      refine ⟨closesIn_cons_zero.mpr hcloses, ?_⟩
      rintro ⟨d, k⟩ hq
      cases d with
      | zero => exact .inr ⟨rfl, hfirst k (closesIn_cons_zero.mp hq)⟩
      | succ d => exact .inl (Nat.succ_pos d)
    | none =>
      rw [closeFrom?_cons_of_none hline, Option.map_eq_some_iff] at h
      obtain ⟨q, hq, rfl⟩ := h
      obtain ⟨hcloses, hfirst⟩ := ih hq
      refine ⟨closesIn_cons_succ.mpr hcloses, ?_⟩
      rintro ⟨d, k⟩ hr
      cases d with
      | zero =>
        exact absurd (closesIn_cons_zero.mp hr) (closeColumn?_eq_none_iff.mp hline k)
      | succ d =>
        have := hfirst (d, k) (closesIn_cons_succ.mp hr)
        dsimp only at this ⊢
        omega

/-! ### Numbers of braces -/

/-- The depth is the number of opening braces less that of closing ones. -/
theorem turns_eq_count_sub_count (s : List Char) :
    turns s = (s.count '{' : Int) - s.count '}' := by
  induction s with
  | nil => rfl
  | cons c s ih =>
    rw [turns_cons, ih]
    by_cases hopen : c = '{'
    · rw [hopen, turn_open, List.count_cons_self, List.count_cons_of_ne (by decide)]
      omega
    · by_cases hclose : c = '}'
      · rw [hclose, turn_close, List.count_cons_self, List.count_cons_of_ne (by decide)]
        omega
      · rw [turn_eq_zero hopen hclose, List.count_cons_of_ne hopen, List.count_cons_of_ne hclose,
          Int.zero_add]

theorem turns_eq_zero_iff {s : List Char} : turns s = 0 ↔ s.count '{' = s.count '}' := by
  rw [turns_eq_count_sub_count]
  omega

/-- Line ends hold no braces. -/
theorem turns_joined (ls : List Line) : turns (Text.joined ['\n'] ls) = turns ls.flatten := by
  fun_induction Text.joined ['\n'] ls with
  | case1 => rfl
  | case2 line => simp
  | case3 line ls _ ih =>
    rw [turns_append, turns_append, ih, List.flatten_cons, turns_append]
    simp [turn]

theorem turns_through (lines : List Line) (start d k : Nat) :
    turns (Buffer.through lines start (placeBelow start (d, k))) =
      turns ((lines.drop start).take d).flatten +
        turns (((lines.drop start).getD d []).take (k + 1)) := by
  have hlines : ((start : Int) + d - start).toNat = d := by omega
  have hcolumn : ((k : Int) + 1).toNat = k + 1 := by omega
  simp only [Buffer.through, Buffer.covered, placeBelow, Buffer.lineAt_add, hlines, hcolumn,
    Int.toNat_natCast, Int.toNat_zero, List.drop_zero]
  rw [turns_joined, List.flatten_append, turns_append, List.flatten_singleton]

section Places

variable {lines : List Line} {start : Nat}

/-- A closing brace evens out the braces exactly if the scan can stop there. -/
theorem evensOut_placeBelow_iff {p : Nat × Nat} :
    EvensOut lines start (placeBelow start p) ↔ ClosesIn 0 (lines.drop start) p := by
  obtain ⟨d, k⟩ := p
  have hchar : Buffer.charAt? lines (placeBelow start (d, k)) =
      ((lines.drop start).getD d [])[k]? := by
    rw [Buffer.charAt?, placeBelow, if_neg (by simp), Buffer.lineAt_add, Int.toNat_natCast]
  rw [ClosesIn, ClosesOn, Int.zero_add, ← turns_through, ← hchar, turns_eq_zero_iff]
  constructor
  · rintro ⟨-, hbrace, heven⟩
    exact ⟨hbrace, heven⟩
  · rintro ⟨hbrace, heven⟩
    have hbelow : (start : Int) ≤ start + d := by omega
    exact ⟨hbelow, hbrace, heven⟩

/-- A brace that evens out stands some lines down, at a column of its line. -/
theorem EvensOut.exists_placeBelow {p : Position} (h : EvensOut lines start p) :
    ∃ q, p = placeBelow start q := by
  have hcolumn : 0 ≤ p.column := by
    by_contra hneg
    have hbrace := h.brace
    rw [Buffer.charAt?, if_pos (by omega)] at hbrace
    exact absurd hbrace (by simp)
  have hline := h.below
  refine ⟨((p.line - start).toNat, p.column.toNat), ?_⟩
  obtain ⟨line, column⟩ := p
  rw [placeBelow, Position.mk.injEq]
  dsimp only at hline hcolumn ⊢
  omega

end Places

/-- **A block ends exactly where its braces even out.** The end of a block is the first closing
brace, in reading order, through which the text from the head's line on holds as many opening braces
as closing ones. If there is no such brace, and only then, the start of the head's line is given in
its place, and the block extends to the last character of the last line. -/
theorem findEnd_exact (lines : List Line) (start : Nat) :
    (∃ p, EvensOut lines start p ∧ (∀ q, EvensOut lines start q → p.le q = true) ∧
        findEnd lines start = some p ∧ isUnterminated p start = false ∧
        extentAt lines start = some p) ∨
      ((∀ p, ¬EvensOut lines start p) ∧ findEnd lines start = some ⟨start, 0⟩ ∧
        isUnterminated ⟨start, 0⟩ start = true ∧
        ∀ last, lines.getLast? = some last →
          extentAt lines start = some ⟨lines.length - 1, max (last.length - 1) 0⟩) := by
  cases hclose : close? (lines.drop start) with
  | some p =>
    obtain ⟨hcloses, hfirst⟩ := closesIn_of_closeFrom? hclose
    have hreal := isUnterminated_of_close? hclose start
    refine .inl ⟨placeBelow start p, evensOut_placeBelow_iff.mpr hcloses, ?_,
      findEnd_of_close? hclose, hreal, ?_⟩
    · intro q hq
      obtain ⟨r, rfl⟩ := hq.exists_placeBelow
      have := hfirst r (evensOut_placeBelow_iff.mp hq)
      rw [Position.le_iff, placeBelow, placeBelow]
      dsimp only
      omega
    · rw [extentAt, findEnd_of_close? hclose, Option.map_some, hreal]
      rfl
  | none =>
    have hstart : isUnterminated ⟨start, 0⟩ start = true := by simp [isUnterminated]
    refine .inr ⟨?_, findEnd_of_close?_eq_none hclose, hstart, ?_⟩
    · intro p hp
      obtain ⟨r, rfl⟩ := hp.exists_placeBelow
      exact closeFrom?_eq_none_iff.mp hclose r (evensOut_placeBelow_iff.mp hp)
    · intro last hlast
      have hne : lines ≠ [] := by
        rintro rfl
        simp at hlast
      have hpos : 0 < lines.length := List.length_pos_iff.mpr hne
      rw [extentAt, findEnd_of_close?_eq_none hclose, Option.map_some, hstart,
        List.isEmpty_eq_false_iff.mpr hne, lastPlace, List.getLastD_eq_getLast?, hlast]
      simp only [Bool.not_false, Bool.and_self, if_true, Option.getD_some, Option.some.injEq,
        Position.mk.injEq]
      omega

-- The depth is below zero at the end of the first line, and the block still closes.
example : findEnd ["\x7d \x7b \x7d".toList, "\x7b \x7b".toList, "\x7d".toList] 0 =
    some ⟨2, 0⟩ := by decide

end Block

end VeLens
