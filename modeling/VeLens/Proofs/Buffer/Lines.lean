import VeLens.Buffer.Lines
import VeLens.Proofs.Text.Blanks
import VeLens.Proofs.Text.Cuts

/-!
# Lines and ranges of a buffer

A line feed cuts a buffer into two buffers whose lines follow each other, and lines that are joined
by line feeds are the lines of the joined text. A range in a buffer covers a text.

## Main definitions

* `Position.Inside`: the position stands on a line of the buffer, at most behind its last character.
* `Range.Within`: the range runs forward between two such positions.
* `Buffer.covered`: the text that a range covers.

## Main results

* `lines_append_newline`: the lines of two texts with a line feed between them.
* `lines_joined`: the lines of joined lines.
-/

namespace VeLens

open Text

namespace Buffer

theorem dropReturn_of_not_mem {line : Line} (h : '\r' ∉ line) : dropReturn line = line := by
  rw [dropReturn, beforeEnd?_singleton_eq_none h, Option.getD_none]

theorem isPrefix_dropReturn (line : Line) : dropReturn line <+: line := by
  rw [dropReturn]
  cases h : beforeEnd? ['\r'] line with
  | none => exact List.prefix_rfl
  | some front =>
    rw [Option.getD_some, beforeEnd?_eq_some_iff.mp h]
    exact List.prefix_append front _

theorem trim_dropReturn (line : Line) : trim (dropReturn line) = trim line := by
  rw [dropReturn]
  cases hend : beforeEnd? ['\r'] line with
  | none => rfl
  | some front =>
    rw [beforeEnd?_eq_some_iff] at hend
    subst hend
    exact (trim_append_blanks (b := []) rfl rfl).symm

theorem lines_ne_nil (text : List Char) : lines text ≠ [] := by
  rw [lines, ne_eq, List.map_eq_nil_iff]
  exact pieces_ne_nil '\n' text

/-- A line holds only characters of the text, and no line feed. -/
theorem mem_text_of_mem_line {text : List Char} {line : Line} {c : Char} (hline : line ∈ lines text)
    (hc : c ∈ line) : c ∈ text ∧ c ≠ '\n' := by
  obtain ⟨piece, hpiece, rfl⟩ := List.mem_map.mp hline
  have hmem : c ∈ piece := (isPrefix_dropReturn piece).subset hc
  constructor
  · rw [← joined_pieces '\n' text]
    exact mem_joined hpiece hmem
  · rintro rfl
    exact not_mem_of_mem_pieces hpiece hmem

/-- The lines above a line feed do not depend on what follows it, nor those below it on what
stands before it. -/
theorem lines_append_newline (a b : List Char) : lines (a ++ '\n' :: b) = lines a ++ lines b := by
  rw [lines, pieces_append_cons, List.map_append, ← lines, ← lines]

/-- Lines without breaks of their own are found again in the joined text. -/
theorem lines_joined {ls : List Line} (hne : ls ≠ []) (hfeed : ∀ l ∈ ls, '\n' ∉ l)
    (hreturn : ∀ l ∈ ls, '\r' ∉ l) : lines (joined ['\n'] ls) = ls := by
  rw [lines, pieces_joined hne hfeed]
  calc ls.map dropReturn = ls.map id :=
        List.map_congr_left fun l hl => dropReturn_of_not_mem (hreturn l hl)
    _ = ls := List.map_id ls

theorem lines_of_not_mem {text : List Char} (hfeed : '\n' ∉ text) :
    lines text = [dropReturn text] := by
  have hpieces : pieces '\n' (joined ['\n'] [text]) = [text] :=
    pieces_joined (List.cons_ne_nil _ _) (by simpa using hfeed)
  rw [lines, ← List.map_singleton, ← hpieces]
  rfl

theorem lineAt_eq {lines : List Line} {i : Nat} {line : Line} (h : lines[i]? = some line) :
    lineAt lines i = line := by
  rw [lineAt, if_neg (by omega), Int.toNat_natCast, List.getD_eq_getElem?_getD, h,
    Option.getD_some]

theorem lineAt_add (lines : List Line) (start d : Nat) :
    lineAt lines (start + d) = (lines.drop start).getD d [] := by
  have hsum : ((start : Int) + d).toNat = start + d := by omega
  rw [lineAt, if_neg (by omega), hsum, List.getD_eq_getElem?_getD,
    List.getD_eq_getElem?_getD, List.getElem?_drop]

/-- The text from the start of a range up to its end, with a line feed between lines. -/
def covered (lines : List Line) (r : Range) : List Char :=
  (joined ['\n'] ((lines.drop r.start.line.toNat).take (r.stop.line - r.start.line).toNat ++
    [(lineAt lines r.stop.line).take r.stop.column.toNat])).drop r.start.column.toNat

theorem covered_line {lines : List Line} {i : Nat} {line : Line} (h : lines[i]? = some line)
    (first last : Nat) :
    covered lines ⟨⟨i, first⟩, ⟨i, last⟩⟩ = (line.take last).drop first := by
  simp [covered, lineAt_eq h, joined]

end Buffer

/-- The position stands on a line of the buffer, at most behind its last character. -/
def Position.Inside (lines : List Line) (p : Position) : Prop :=
  0 ≤ p.line ∧ p.line < lines.length ∧
    0 ≤ p.column ∧ p.column ≤ (Buffer.lineAt lines p.line).length

/-- The range runs forward, and both its ends stand in the buffer. -/
structure Range.Within (lines : List Line) (r : Range) : Prop where
  forward : r.start.le r.stop = true
  start : r.start.Inside lines
  stop : r.stop.Inside lines

namespace Position

theorem inside_of_le {lines : List Line} {i column : Nat} {line : Line}
    (h : lines[i]? = some line) (hcolumn : column ≤ line.length) :
    (⟨i, column⟩ : Position).Inside lines := by
  obtain ⟨hi, -⟩ := List.getElem?_eq_some_iff.mp h
  refine ⟨Int.natCast_nonneg i, Int.ofNat_lt.mpr hi, Int.natCast_nonneg column, ?_⟩
  rw [Buffer.lineAt_eq h]
  exact Int.ofNat_le.mpr hcolumn

theorem le_iff {p q : Position} :
    p.le q = true ↔ p.line < q.line ∨ p.line = q.line ∧ p.column ≤ q.column := by
  simp [le]

theorem le_refl (p : Position) : p.le p = true := le_iff.mpr (.inr ⟨rfl, Int.le_refl _⟩)

theorem le_trans {p q r : Position} (hpq : p.le q = true) (hqr : q.le r = true) :
    p.le r = true := by
  rw [le_iff] at hpq hqr ⊢
  omega

theorem le_later_left (p q : Position) : p.le (p.later q) = true := by
  rw [later]
  split
  · assumption
  · exact le_refl p

theorem le_later_right (p q : Position) : q.le (p.later q) = true := by
  by_cases hle : p.le q = true
  · rw [later, if_pos hle]
    exact le_refl q
  · rw [later, if_neg hle]
    rw [le_iff] at hle ⊢
    omega

/-- If the later one of two places stands at column `k`, the columns behind `k` on its line do not
matter. -/
theorem later_min {p : Position} {line column length k : Int} (hk : k ≤ length)
    (h : p.later ⟨line, min column length⟩ = ⟨line, k⟩) :
    p.later ⟨line, min column k⟩ = ⟨line, k⟩ := by
  by_cases hle : p.le ⟨line, min column length⟩ = true
  · rw [later, if_pos hle, Position.mk.injEq] at h
    have hmin : min column k = k := by omega
    rw [hmin, later, ← h.2, if_pos hle]
  · -- The later one is `p`, which stands behind the other column on the same line.
    rw [later, if_neg hle] at h
    subst h
    have hnot : ¬(⟨line, k⟩ : Position).le ⟨line, min column k⟩ = true := by
      rw [le_iff] at hle ⊢
      dsimp only at hle ⊢
      omega
    rw [later, if_neg hnot]

theorem later_eq_or (p q : Position) : p.later q = p ∨ p.later q = q := by
  rw [later]
  split
  · exact .inr rfl
  · exact .inl rfl

end Position

end VeLens
