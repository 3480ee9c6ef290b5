import VeLens.Proofs.Outline.Symbols

/-!
# Well-formed outlines

Whatever text a buffer holds, the ranges in its outline lie in the buffer and inside each other, and
every name in it can be read again from the text that its item selects. That holds for blocks that
close on the line of their head, far below it or nowhere.

## Main definitions

* `Item.WellFormed`, `Symbol.WellFormed`: what is required of an item and of a symbol.

## Main results

* `ofText_wellFormed`: every symbol of every text is well formed.
-/

namespace VeLens.Outline

open Declaration Text

/-- **A well-formed item.** Its ranges lie in the buffer, the larger one holds the smaller one, and
the smaller one covers exactly the trimmed line, on which the kind of the item reads its name. -/
structure Item.WellFormed (lines : List Line) (item : Item) : Prop where
  range : item.range.Within lines
  selection : item.selection.Within lines
  contains : item.range.contains item.selection = true
  text : Buffer.covered lines item.selection = trim (Buffer.lineAt lines item.range.start.line)
  name : item.kind.nameOn? (Buffer.covered lines item.selection) = some item.name

/-- **A well-formed symbol.** Its members stand on lines of their own, one below the other, strictly
between the line of the head and the line on which the symbol ends. Members are items, so they have
no members themselves. -/
structure Symbol.WellFormed (lines : List Line) (s : Symbol) : Prop extends
    s.toItem.WellFormed lines where
  members : ∀ child ∈ s.children, child.WellFormed lines
  contains_members : ∀ child ∈ s.children, s.range.contains child.range = true
  single : ∀ child ∈ s.children, child.range.stop.line = child.range.start.line
  between : ∀ child ∈ s.children,
    s.range.start.line < child.range.start.line ∧ child.range.start.line < s.range.stop.line
  increasing : s.children.Pairwise fun a b => a.range.start.line < b.range.start.line

/-! ### One line -/

section Line

variable {lines : List Line} {i : Nat} {line : Line} (h : lines[i]? = some line)

include h

theorem covered_selectionOf : Buffer.covered lines (selectionOf i line) = trim line := by
  have htake : line.take (trimRight line).length = trimRight line :=
    (List.prefix_iff_eq_take.mp (isPrefix_trimRight line)).symm
  rw [selectionOf, lineEnd, Buffer.covered_line h, htake, indentation, drop_trimRight]

variable (hne : trim line ≠ [])

include hne

theorem selectionOf_within : (selectionOf i line).Within lines := by
  have hforward : indentation line ≤ (trimRight line).length := by
    rw [← drop_trimRight, ne_eq, List.drop_eq_nil_iff, Nat.not_le] at hne
    exact Nat.le_of_lt hne
  refine ⟨Position.le_iff.mpr (.inr ⟨rfl, Int.ofNat_le.mpr hforward⟩), ?_, ?_⟩
  · exact Position.inside_of_le h (Nat.sub_le _ _)
  · exact Position.inside_of_le h (isPrefix_trimRight line).length_le

end Line

/-- A range from the start of a line to a place behind its text holds the selection. -/
theorem contains_selectionOf {i : Nat} {line : Line} {stop : Position}
    (hstop : (lineEnd i line).le stop = true) :
    (⟨⟨i, 0⟩, stop⟩ : Range).contains (selectionOf i line) = true := by
  rw [Range.contains, Bool.and_eq_true]
  exact ⟨Position.le_iff.mpr (.inr ⟨rfl, Int.natCast_nonneg _⟩), hstop⟩

/-- An item that begins on a line and is named there is well formed if it ends in the buffer, not
before the text of the line does. -/
theorem item_wellFormed {lines : List Line} {i : Nat} {line : Line} {item : Item}
    (h : lines[i]? = some line) (hstart : item.range.start = ⟨i, 0⟩)
    (hselection : item.selection = selectionOf i line)
    (hname : item.kind.nameOn? (trim line) = some item.name)
    (hstop : item.range.stop.Inside lines)
    (hend : (lineEnd i line).le item.range.stop = true) : item.WellFormed lines := by
  -- A line on which a name is read is not blank, so its selection runs forward.
  have hne : trim line ≠ [] := by
    intro hnil
    rw [hnil, nameOn?_nil] at hname
    exact absurd hname (by simp)
  have hfirst : (⟨i, 0⟩ : Position).le (lineEnd i line) = true :=
    Position.le_iff.mpr (.inr ⟨rfl, Int.natCast_nonneg _⟩)
  obtain ⟨kind, name, detail, ⟨start, stop⟩, selection⟩ := item
  obtain rfl : start = ⟨i, 0⟩ := hstart
  obtain rfl : selection = selectionOf i line := hselection
  refine ⟨⟨Position.le_trans hfirst hend, ?_, hstop⟩, selectionOf_within h hne,
    contains_selectionOf hend, ?_, ?_⟩
  · exact Position.inside_of_le h (Nat.zero_le _)
  · rw [Buffer.lineAt_eq h]
    exact covered_selectionOf h
  · rw [covered_selectionOf h]
    exact hname

/-- An item on a single line is well formed as soon as it is named there. -/
theorem lineItem_wellFormed {lines : List Line} {i : Nat} {line : Line} {kind : ItemKind}
    {name : String} (h : lines[i]? = some line) (hname : kind.nameOn? (trim line) = some name)
    (detail : String) : (lineItem i line kind name detail).WellFormed lines :=
  item_wellFormed h rfl rfl hname
    (Position.inside_of_le h (isPrefix_trimRight line).length_le) (Position.le_refl _)

/-! ### Declarations -/

namespace TopLevel

variable {lines : List Line} {t : TopLevel} {s : Symbol}

theorem blockEnd_inside (h : t.Opens t.index (lines.drop t.index)) :
    t.blockEnd.Inside lines := by
  have hcolumn : min ((t.column : Int) + 1) t.lastLine.length =
      (min (t.column + 1) t.lastLine.length : Nat) := by omega
  -- The end is the later one of the end of the head's line and the place behind the brace.
  rcases Position.later_eq_or (lineEnd t.index t.line)
    ⟨t.lastIndex, min (t.column + 1) t.lastLine.length⟩ with hlater | hlater
  · rw [blockEnd, hlater]
    exact Position.inside_of_le h.getElem?_index (isPrefix_trimRight t.line).length_le
  · rw [blockEnd, hlater, hcolumn]
    exact Position.inside_of_le h.getElem?_lastIndex (Nat.min_le_right _ _)

/-- The place where a symbol ends is in the buffer, not before the text of the head's line ends. -/
theorem Shows.stop_inside (hs : t.Shows s) (h : t.Opens t.index (lines.drop t.index)) :
    s.range.stop.Inside lines ∧ (lineEnd t.index t.line).le s.range.stop = true := by
  rw [hs.stop]
  cases opensBlock t.head with
  | true => exact ⟨blockEnd_inside h, Position.le_later_left _ _⟩
  | false =>
    exact ⟨Position.inside_of_le h.getElem?_index (isPrefix_trimRight t.line).length_le,
      Position.le_refl _⟩

/-- Each member is the item of a line strictly inside the declaration. -/
theorem Shows.exists_lineItem (hs : t.Shows s) {child : Item} (hchild : child ∈ s.children) :
    ∃ line k kind name detail, (line, k) ∈ t.inside ∧ child = lineItem k line kind name detail ∧
      kind.nameOn? (trim line) = some name := by
  obtain ⟨child?, hreads, hchildren⟩ := hs.children
  rw [hchildren, List.mem_filterMap] at hchild
  obtain ⟨⟨line, k⟩, hmem, hitem⟩ := hchild
  obtain ⟨kind, name, detail, rfl, hname⟩ := hreads line k child hitem
  exact ⟨line, k, kind, name, detail, hmem, rfl, hname⟩

theorem Shows.increasing (hs : t.Shows s) :
    s.children.Pairwise fun a b => a.range.start.line < b.range.start.line := by
  obtain ⟨child?, hreads, hchildren⟩ := hs.children
  rw [hchildren, List.pairwise_filterMap]
  refine t.pairwise_inside.imp ?_
  rintro ⟨line, k⟩ ⟨line', k'⟩ hlt a ha b hb
  obtain ⟨kind, name, detail, rfl, -⟩ := hreads line k a ha
  obtain ⟨kind', name', detail', rfl, -⟩ := hreads line' k' b hb
  exact Int.ofNat_lt.mpr hlt

theorem Shows.wellFormed (hs : t.Shows s) (h : t.Opens t.index (lines.drop t.index)) :
    s.WellFormed lines := by
  have hname : s.kind.nameOn? (trim t.line) = some s.name :=
    nameOn?_of_headOf h.headOf_line hs.item
  obtain ⟨hstop, hend⟩ := hs.stop_inside h
  have hbetween : ∀ child ∈ s.children,
      s.range.start.line < child.range.start.line ∧
        child.range.start.line < s.range.stop.line := by
    intro child hchild
    obtain ⟨line, k, kind, name, detail, hmem, rfl, -⟩ := hs.exists_lineItem hchild
    obtain ⟨hlo, hhi, -⟩ := h.of_mem_inside hmem
    rw [hs.stop_line h, hs.start]
    exact ⟨Int.ofNat_lt.mpr hlo, Int.ofNat_lt.mpr hhi⟩
  have hsingle : ∀ child ∈ s.children, child.range.stop.line = child.range.start.line := by
    intro child hchild
    obtain ⟨line, k, kind, name, detail, -, rfl, -⟩ := hs.exists_lineItem hchild
    rfl
  refine ⟨item_wellFormed h.getElem?_index hs.start hs.selection hname hstop hend,
    ?_, ?_, hsingle, hbetween, hs.increasing⟩
  · intro child hchild
    obtain ⟨line, k, kind, name, detail, hmem, rfl, hread⟩ := hs.exists_lineItem hchild
    exact lineItem_wellFormed (h.of_mem_inside hmem).2.2 hread detail
  · intro child hchild
    obtain ⟨hlo, hhi⟩ := hbetween child hchild
    rw [Range.contains, Bool.and_eq_true, Position.le_iff, Position.le_iff,
      hsingle child hchild]
    exact ⟨.inl hlo, .inl hhi⟩

end TopLevel

/-- **Outlines are well formed.** Every symbol in the outline of every text is well formed in the
buffer of that text, whether or not its block closes. -/
theorem ofText_wellFormed (text : String) (s : Symbol) (hs : s ∈ ofText text) :
    s.WellFormed (Buffer.lines text.toList) := by
  obtain ⟨t, hshows, hopens⟩ := exists_shows hs
  exact hshows.wellFormed hopens

/-- The function `f` is never closed, and its last line is empty. -/
theorem ofText_wellFormed_unclosed :
    let text := "fn f() \x7b\n  let x: i32;\n"
    let f : Symbol := ⟨⟨.function, "f", "Function", ⟨⟨0, 0⟩, ⟨2, 0⟩⟩, ⟨⟨0, 0⟩, ⟨0, 8⟩⟩⟩,
      [⟨.variable, "x", "Local variable", ⟨⟨1, 0⟩, ⟨1, 13⟩⟩, ⟨⟨1, 2⟩, ⟨1, 13⟩⟩⟩]⟩
    f ∈ ofText text ∧ f.WellFormed (Buffer.lines text.toList) := by
  intro text f
  have hf : f ∈ ofText text := by decide +kernel
  exact ⟨hf, ofText_wellFormed text f hf⟩

end VeLens.Outline
