import VeLens.Proofs.Buffer.Blocks

/-!
# Braces alone decide where blocks end

The depth changes at braces and nowhere else. Whether some lines close a block, and the depth that
they lead to, can be read off the braces on them, whatever stands between the braces and however
they are spread over the lines.

## Main definitions

* `braces`: the braces of a text, in order.

## Main results

* `closeFrom?_eq_none_iff_flatten`: lines close a block as one long line does.
* `closeFrom?_concat_congr`: other lines with the same braces lead to the same closing brace on the
  line below them.
-/

namespace VeLens.Block

def isBrace (c : Char) : Bool := c == '{' || c == '}'

theorem isBrace_iff {c : Char} : isBrace c = true ↔ c = '{' ∨ c = '}' := by
  rw [isBrace, Bool.or_eq_true, beq_iff_eq, beq_iff_eq]

def braces (s : List Char) : List Char := s.filter isBrace

theorem braces_append (s r : List Char) : braces (s ++ r) = braces s ++ braces r :=
  List.filter_append s r

theorem turn_of_not_isBrace {c : Char} (hc : isBrace c = false) : turn c = 0 := by
  rw [isBrace, Bool.or_eq_false_iff, beq_eq_false_iff_ne, beq_eq_false_iff_ne] at hc
  exact turn_eq_zero hc.1 hc.2

theorem turns_braces (s : List Char) : turns (braces s) = turns s := by
  induction s with
  | nil => rfl
  | cons c s ih =>
    cases hc : isBrace c with
    | true =>
      rw [braces, List.filter_cons_of_pos hc, turns_cons, turns_cons, ← braces, ih]
    | false =>
      rw [braces, List.filter_cons_of_neg (by simp [hc]), turns_cons, turn_of_not_isBrace hc,
        Int.zero_add, ← braces, ih]

/-- Characters between the braces move the closing brace to another column, but they neither make
nor hide it. -/
theorem closeColumn?_braces_eq_none_iff {depth : Int} {s : List Char} :
    closeColumn? depth (braces s) = none ↔ closeColumn? depth s = none := by
  induction s generalizing depth with
  | nil => rfl
  | cons c s ih =>
    cases hc : isBrace c with
    | true =>
      rw [braces, List.filter_cons_of_pos hc, ← braces, closeColumn?, closeColumn?]
      by_cases hclose : c = '}' ∧ depth = 1
      · rw [if_pos hclose, if_pos hclose]
      · rw [if_neg hclose, if_neg hclose, Option.map_eq_none_iff, Option.map_eq_none_iff, ih]
    | false =>
      have hclose : ¬(c = '}' ∧ depth = 1) := by
        rintro ⟨rfl, -⟩
        exact absurd hc (by decide)
      rw [braces, List.filter_cons_of_neg (by simp [hc]), ← braces, closeColumn?, if_neg hclose,
        turn_of_not_isBrace hc, Int.add_zero, Option.map_eq_none_iff, ih]

theorem closeColumn?_append_eq_none_iff {depth : Int} {s r : Line} :
    closeColumn? depth (s ++ r) = none ↔
      closeColumn? depth s = none ∧ closeColumn? (depth + turns s) r = none := by
  induction s generalizing depth with
  | nil => simp [closeColumn?]
  | cons c s ih =>
    rw [List.cons_append, closeColumn?, closeColumn?]
    by_cases hclose : c = '}' ∧ depth = 1
    · simp [hclose]
    · rw [if_neg hclose, if_neg hclose, Option.map_eq_none_iff, Option.map_eq_none_iff, ih,
        turns_cons, Int.add_assoc]

/-- Line ends do not matter for whether a block is closed. -/
theorem closeFrom?_eq_none_iff_flatten {depth : Int} {lines : List Line} :
    closeFrom? depth lines = none ↔ closeColumn? depth lines.flatten = none := by
  induction lines generalizing depth with
  | nil => exact iff_of_true rfl rfl
  | cons line lines ih =>
    rw [List.flatten_cons, closeColumn?_append_eq_none_iff, ← ih]
    cases hline : closeColumn? depth line with
    | some column => simp [closeFrom?_cons_of_some hline]
    | none => simp [closeFrom?_cons_of_none hline]

section Congr

variable {depth : Int} {xs ys : List Line} (hbraces : braces xs.flatten = braces ys.flatten)

include hbraces

theorem turns_flatten_congr : turns xs.flatten = turns ys.flatten := by
  rw [← turns_braces, hbraces, turns_braces]

theorem closeFrom?_eq_none_congr : closeFrom? depth xs = none ↔ closeFrom? depth ys = none := by
  rw [closeFrom?_eq_none_iff_flatten, closeFrom?_eq_none_iff_flatten,
    ← closeColumn?_braces_eq_none_iff, hbraces, closeColumn?_braces_eq_none_iff]

/-- A block that closes on the line below `xs` closes at the same column of that line if other lines
with the same braces stand above it. -/
theorem closeFrom?_concat_congr {last : Line} {column : Nat}
    (h : closeFrom? depth (xs ++ [last]) = some (xs.length, column)) :
    closeFrom? depth (ys ++ [last]) = some (ys.length, column) := by
  obtain ⟨hnone, hcolumn⟩ := closeFrom?_concat_iff.mp h
  rw [turns_flatten_congr hbraces] at hcolumn
  exact closeFrom?_concat_iff.mpr ⟨(closeFrom?_eq_none_congr hbraces).mp hnone, hcolumn⟩

end Congr

end VeLens.Block
