import VeLens.Proofs.Buffer.Lines

/-!
# Text in the place of a range

Accepting a completion takes the text of a range away and puts another text in its place. Columns
are those of the lines of the buffer, which do not count the carriage return at the end of a line.
So the ends of lines stay as they are when the text of a line is replaced from its first to its last
column.

## Main definitions

* `Buffer.before`, `Buffer.behind`: the text on either side of a position.
* `Buffer.replace`: a text with another one in the place of a range.

## Main results

* `lines_replace_line`: the lines of a text after one of them was replaced.
-/

namespace VeLens.Buffer

open Text

/-- The text before a position. -/
def before (text : List Char) (p : Position) : List Char :=
  joined ['\n'] ((pieces '\n' text).take p.line.toNat ++
    [((pieces '\n' text).getD p.line.toNat []).take p.column.toNat])

/-- The text behind a position. -/
def behind (text : List Char) (p : Position) : List Char :=
  joined ['\n'] (((pieces '\n' text).getD p.line.toNat []).drop p.column.toNat ::
    (pieces '\n' text).drop (p.line.toNat + 1))

/-- The text with `s` in the place of what the range covers. -/
def replace (text : List Char) (r : Range) (s : List Char) : List Char :=
  before text r.start ++ s ++ behind text r.stop

section Piece

variable {text piece : List Char} {n : Nat} (hpiece : (pieces '\n' text)[n]? = some piece)

include hpiece

theorem before_eq (k : Nat) :
    before text ⟨n, k⟩ = joined ['\n'] ((pieces '\n' text).take n ++ [piece.take k]) := by
  simp [before, hpiece]

theorem behind_eq (k : Nat) :
    behind text ⟨n, k⟩ = joined ['\n'] (piece.drop k :: (pieces '\n' text).drop (n + 1)) := by
  simp [behind, hpiece]

/-- A text without line feeds takes the place of one piece, up to column `k` of it. -/
theorem pieces_replace_line (k : Nat) {s : List Char} (hs : '\n' ∉ s) :
    pieces '\n' (replace text ⟨⟨n, 0⟩, ⟨n, k⟩⟩ s) =
      (pieces '\n' text).set n (s ++ piece.drop k) := by
  obtain ⟨hn, -⟩ := List.getElem?_eq_some_iff.mp hpiece
  have hset : (pieces '\n' text).set n (s ++ piece.drop k) =
      (pieces '\n' text).take n ++ (s ++ piece.drop k) :: (pieces '\n' text).drop (n + 1) :=
    List.set_eq_take_cons_drop _ hn
  have hjoined : replace text ⟨⟨n, 0⟩, ⟨n, k⟩⟩ s =
      joined ['\n'] ((pieces '\n' text).set n (s ++ piece.drop k)) := by
    have hinsert : before text ⟨n, 0⟩ ++ s = joined ['\n'] ((pieces '\n' text).take n ++ [s]) := by
      have hfront : before text ⟨n, 0⟩ = joined ['\n'] ((pieces '\n' text).take n ++ [[]]) :=
        before_eq hpiece 0
      rw [hfront]
      exact joined_concat_append ['\n'] [] s ((pieces '\n' text).take n) []
    rw [replace]
    change before text ⟨n, 0⟩ ++ s ++ behind text ⟨n, k⟩ = _
    rw [hinsert, behind_eq hpiece, joined_concat_append, hset]
  rw [hjoined]
  refine pieces_joined (by simp [hset]) fun p hp => ?_
  rcases List.mem_or_eq_of_mem_set hp with hp | rfl
  · exact not_mem_of_mem_pieces hp
  · intro hmem
    rcases List.mem_append.mp hmem with hmem | hmem
    · exact hs hmem
    · exact not_mem_of_mem_pieces (List.mem_of_getElem? hpiece) (List.mem_of_mem_drop hmem)

end Piece

/-! ### Whole lines -/

theorem dropReturn_of_getLast? {line : Line} (h : line.getLast? ≠ some '\r') :
    dropReturn line = line := by
  have hnone : beforeEnd? ['\r'] line = none := by
    rw [Option.eq_none_iff_forall_not_mem]
    intro front hfront
    apply h
    rw [beforeEnd?_eq_some_iff.mp hfront, List.getLast?_concat]
  rw [dropReturn, hnone, Option.getD_none]

/-- What stands behind the last column of a line is at most its carriage return. -/
theorem dropReturn_append_drop {s : Line} (hs : s.getLast? ≠ some '\r') (piece : Line) :
    dropReturn (s ++ piece.drop (dropReturn piece).length) = s := by
  cases hend : beforeEnd? ['\r'] piece with
  | none =>
    have hwhole : dropReturn piece = piece := by rw [dropReturn, hend, Option.getD_none]
    rw [hwhole, List.drop_length, List.append_nil, dropReturn_of_getLast? hs]
  | some front =>
    have hpiece := beforeEnd?_eq_some_iff.mp hend
    have hfront : dropReturn piece = front := by rw [dropReturn, hend, Option.getD_some]
    have hreturn : beforeEnd? ['\r'] (s ++ ['\r']) = some s := beforeEnd?_eq_some_iff.mpr rfl
    rw [hfront, hpiece, List.drop_left, dropReturn, hreturn, Option.getD_some]

/-- **A whole line is replaced.** The text that takes its place is a line of its own, and all other
lines stay as they are. -/
theorem lines_replace_line {text : List Char} {n : Nat} {line s : Line}
    (hline : (lines text)[n]? = some line) (hfeed : '\n' ∉ s) (hend : s.getLast? ≠ some '\r') :
    lines (replace text ⟨⟨n, 0⟩, ⟨n, line.length⟩⟩ s) = (lines text).set n s := by
  rw [lines, List.getElem?_map, Option.map_eq_some_iff] at hline
  obtain ⟨piece, hpiece, rfl⟩ := hline
  rw [lines, pieces_replace_line hpiece _ hfeed, List.map_set, dropReturn_append_drop hend, lines]

end VeLens.Buffer
