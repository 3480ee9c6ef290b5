import VeLens.Proofs.Outline.Composition
import VeLens.Proofs.Outline.WellFormed

/-!
# Symbols cut out of their buffer

The text that a symbol covers stands on its own: read alone, it declares that symbol and nothing
else. Only the last line of the declaration is cut, behind the closing brace and not before the end
of the head's text, so neither the head nor the brace can be lost.

## Main definitions

* `Symbol.up`: a symbol that stands a number of lines further up.
* `TopLevel.cut`: a declaration whose last line is cut at a column.

## Main results

* `TopLevel.cut_opens`: the lines that are left still begin that declaration.
* `TopLevel.symbol?_cut`: the declaration still has the same symbol.
* `ofText_covered`: the outline of the text that a symbol covers.
-/

namespace VeLens

def Position.up (n : Int) (p : Position) : Position := ⟨p.line - n, p.column⟩

def Range.up (n : Int) (r : Range) : Range := ⟨r.start.up n, r.stop.up n⟩

theorem Range.up_down (r : Range) (n : Nat) : (r.down n).up n = r := by
  simp [up, down, Position.up, Position.down]

namespace Outline

open Declaration Text

def Item.up (n : Int) (item : Item) : Item :=
  { item with range := item.range.up n, selection := item.selection.up n }

/-- The symbol `n` lines further up, with all its members. -/
def Symbol.up (n : Int) (s : Symbol) : Symbol := ⟨s.toItem.up n, s.children.map (Item.up n)⟩

theorem Item.up_down (item : Item) (n : Nat) : (item.down n).up n = item := by
  simp [up, down, Range.up_down]

theorem Symbol.up_down (s : Symbol) (n : Nat) : (s.down n).up n = s := by
  have hmembers : Item.up n ∘ Item.down n = id := funext fun item => item.up_down n
  simp [up, down, Item.up_down, hmembers]

/-! ### A line cut among the blanks at its end -/

section Line

variable {line : Line} {k : Nat}

theorem indentation_append {s : Line} (hs : trimLeft s ≠ []) (r : Line) :
    indentation (s ++ r) = indentation s := by
  rw [indentation, indentation, trimLeft_append hs, List.length_append, List.length_append]
  omega

theorem trim_ne_nil_of_headOf {head : Head} (h : headOf line = some head) : trim line ≠ [] := by
  intro hnil
  have hnone : classify [] = none := by decide
  rw [headOf, hnil, hnone] at h
  exact absurd h (by simp)

variable (hk : (trimRight line).length ≤ k) (hne : trim line ≠ [])

include hk hne

theorem indentation_take : indentation (line.take k) = indentation line := by
  have hleft := trimLeft_trimRight_ne_nil hne
  obtain ⟨b, -, htake⟩ := exists_take_eq_trimRight_append hk
  obtain ⟨b', -, hline⟩ := exists_take_eq_trimRight_append (isPrefix_trimRight line).length_le
  rw [List.take_length] at hline
  rw [htake, indentation_append hleft, ← indentation_append hleft b', ← hline]

theorem trim_take : trim (line.take k) = trim line := by
  rw [← drop_trimRight, ← drop_trimRight, trimRight_take hk]
  exact congrArg (List.drop · (trimRight line)) (indentation_take hk hne)

theorem lineItem_take (index : Nat) (kind : ItemKind) (name detail : String) :
    lineItem index (line.take k) kind name detail = lineItem index line kind name detail := by
  simp only [lineItem, selectionOf, lineEnd, trimRight_take hk, indentation_take hk hne]

end Line

/-! ### A declaration cut on its last line -/

namespace TopLevel

/-- The declaration with its last line cut at column `k`. -/
def cut (t : TopLevel) (k : Nat) : TopLevel where
  index := t.index
  head := t.head
  lines := t.lines.dropLast ++ [t.lastLine.take k]
  column := if opensBlock t.head then t.column else k

variable {t : TopLevel} {k : Nat}

theorem lines_eq_concat (hne : t.lines ≠ []) : t.lines = t.lines.dropLast ++ [t.lastLine] := by
  rw [lastLine, List.getLastD_eq_getLast?, List.getLast?_eq_some_getLast hne, Option.getD_some,
    List.dropLast_append_getLast]

theorem cut_lastLine : (t.cut k).lastLine = t.lastLine.take k := by
  simp [cut, lastLine]

theorem cut_length (hne : t.lines ≠ []) : (t.cut k).lines.length = t.lines.length := by
  have hpos : 0 < t.lines.length := List.length_pos_iff.mpr hne
  simp only [cut, List.length_append, List.length_dropLast, List.length_singleton]
  omega

theorem cut_lastIndex (hne : t.lines ≠ []) : (t.cut k).lastIndex = t.lastIndex := by
  rw [lastIndex, cut_length hne]
  rfl

theorem cut_inside (hne : t.lines ≠ []) : (t.cut k).inside = t.inside := by
  have hlines := lines_eq_concat hne
  rw [inside, inside]
  conv_rhs => rw [hlines]
  cases hfront : t.lines.dropLast with
  | nil => simp [cut, hfront]
  | cons l ls => simp [cut, hfront]

/-- The head's line is cut only if it is the last one as well. -/
theorem exists_cut_line (hne : t.lines ≠ [])
    (hk : t.lastIndex = t.index → (trimRight t.line).length ≤ k) :
    ∃ j, (trimRight t.line).length ≤ j ∧ (t.cut k).line = t.line.take j := by
  have hlines := lines_eq_concat hne
  cases hfront : t.lines.dropLast with
  | nil =>
    rw [hfront, List.nil_append] at hlines
    have hline : t.line = t.lastLine := by rw [line, hlines, List.headD_cons]
    have hlast : t.lastIndex = t.index := by rw [lastIndex, hlines]; rfl
    refine ⟨k, hk hlast, ?_⟩
    rw [hline]
    simp [cut, line, hfront]
  | cons l ls =>
    rw [hfront, List.cons_append] at hlines
    have hline : t.line = l := by rw [line, hlines, List.headD_cons]
    refine ⟨t.line.length, (isPrefix_trimRight t.line).length_le, ?_⟩
    rw [List.take_length, hline]
    simp [cut, line, hfront]

/-- **Where a symbol ends.** It ends at column `k` of the last line of its declaration, which is not
before the end of the head's text. -/
structure EndsAt (t : TopLevel) (k : Nat) : Prop where
  stop : (if opensBlock t.head then t.blockEnd else lineEnd t.index t.line) = ⟨t.lastIndex, k⟩
  le_length : k ≤ t.lastLine.length
  le_text : t.lastIndex = t.index → (trimRight t.line).length ≤ k

theorem Shows.exists_endsAt {lines : List Line} {s : Symbol} (hs : t.Shows s)
    (h : t.Opens t.index (lines.drop t.index)) :
    ∃ k : Nat, t.EndsAt k ∧ s.range.stop = ⟨t.lastIndex, k⟩ := by
  obtain ⟨⟨-, -, hnonneg, hlength⟩, hend⟩ := hs.stop_inside h
  obtain ⟨k, hk⟩ := Int.eq_ofNat_of_zero_le hnonneg
  have hstop : s.range.stop = ⟨t.lastIndex, k⟩ := by
    rw [← hk, ← hs.stop_line h]
  rw [hstop] at hlength hend
  dsimp only at hlength
  rw [Buffer.lineAt_eq h.getElem?_lastIndex] at hlength
  refine ⟨k, ⟨?_, Int.ofNat_le.mp hlength, ?_⟩, hstop⟩
  · rw [← hs.stop, hstop]
  · intro hlast
    rw [Position.le_iff, lineEnd] at hend
    dsimp only at hend
    omega

theorem EndsAt.le_brace (hend : t.EndsAt k) (hopens : opensBlock t.head = true) :
    min (t.column + 1) t.lastLine.length ≤ k := by
  have hle := Position.le_later_right (lineEnd t.index t.line)
    ⟨t.lastIndex, min (t.column + 1) t.lastLine.length⟩
  have hstop := hend.stop
  rw [if_pos hopens, blockEnd] at hstop
  rw [hstop, Position.le_iff] at hle
  dsimp only at hle
  omega

/-- The closing brace, or the end of a block that never closes, is not cut off. -/
theorem extent_cut {index : Nat} {lines : List Line} (h : t.Opens index lines)
    (hopens : opensBlock t.head = true) (hbrace : min (t.column + 1) t.lastLine.length ≤ k) :
    Block.extent (t.cut k).lines = (t.lines.length - 1, t.column) := by
  have hlines := lines_eq_concat h.ne_nil
  have hfront : t.lines.dropLast.length = t.lines.length - 1 := List.length_dropLast
  have hextent := h.block hopens
  cases hclose : Block.close? lines with
  | some p =>
    have hp := h.close?_lines hopens hclose
    rw [Block.extent_of_close? hclose] at hextent
    rw [hextent, ← hfront, hlines, List.dropLast_concat, Block.close?,
      Block.closeFrom?_concat_iff] at hp
    obtain ⟨hnone, hcolumn⟩ := hp
    have hlt := Block.closeColumn?_lt hcolumn
    rw [← hfront]
    exact Block.extent_of_close? (Block.closeFrom?_concat_iff.mpr
      ⟨hnone, Block.closeColumn?_take hcolumn (by omega)⟩)
  | none =>
    -- The declaration takes up all lines, and the last of them is kept as it is.
    have hpos := h.length_pos
    have hle := h.isPrefix.length_le
    rw [Block.extent, hclose, Option.getD_none, Block.lastPlace, Prod.mk.injEq] at hextent
    have hall : t.lines = lines := h.isPrefix.eq_of_length (by omega)
    have hlast : lines.getLastD [] = t.lastLine := by rw [← hall, lastLine]
    rw [hlast] at hextent
    have hwhole : t.lastLine.take k = t.lastLine := List.take_of_length_le (by omega)
    have hcut : (t.cut k).lines = lines := by rw [cut, hwhole, ← hlines, hall]
    rw [hcut, h.block hopens]

/-- What is left of the lines of a declaration begins the same declaration. -/
theorem cut_opens {index : Nat} {lines : List Line} (h : t.Opens index lines) (hend : t.EndsAt k) :
    (t.cut k).Opens t.index (t.cut k).lines := by
  obtain ⟨j, hj, hline⟩ := exists_cut_line h.ne_nil hend.le_text
  refine ⟨rfl, List.prefix_rfl, by simp [cut], ?_, ?_, ?_⟩
  · rw [hline, headOf, trim_take hj (trim_ne_nil_of_headOf h.headOf_line)]
    exact h.headOf_line
  · intro hopens
    have hopens' : opensBlock t.head = true := hopens
    have hcolumn : (t.cut k).column = t.column := if_pos hopens'
    rw [extent_cut h hopens' (hend.le_brace hopens'), cut_length h.ne_nil, hcolumn]
  · intro hsingle
    have hsingle' : opensBlock t.head = false := hsingle
    have hone := (h.single hsingle').1
    have hlines : (t.cut k).lines = [t.lastLine.take k] := by rw [cut, hone]; rfl
    have hfirst : (t.cut k).line = t.lastLine.take k := by rw [line, hlines]; rfl
    refine ⟨by rw [hlines, hfirst], ?_⟩
    rw [hfirst, List.length_take, Nat.min_eq_left hend.le_length]
    exact if_neg (by simp [hsingle'])

/-- The end of a block does not move when what stands behind it is cut off. -/
theorem blockEnd_cut (hne : t.lines ≠ []) (hopens : opensBlock t.head = true)
    (hend : t.EndsAt k) : (t.cut k).blockEnd = t.blockEnd := by
  obtain ⟨j, hj, hline⟩ := exists_cut_line hne hend.le_text
  have hstop := hend.stop
  rw [if_pos hopens] at hstop
  have hcolumn : (t.cut k).column = t.column := if_pos hopens
  have hfirst : lineEnd (t.cut k).index (t.cut k).line = lineEnd t.index t.line := by
    rw [hline, lineEnd, trimRight_take hj]
    rfl
  rw [hstop, blockEnd, cut_lastIndex hne, cut_lastLine, hcolumn, hfirst, List.length_take,
    Nat.min_eq_left hend.le_length]
  exact Position.later_min (Int.ofNat_le.mpr hend.le_length) hstop

theorem blockSymbol_cut {index : Nat} {lines : List Line} (h : t.Opens index lines)
    (hopens : opensBlock t.head = true) (hend : t.EndsAt k) (kind : ItemKind)
    (name detail : String) (child? : Line → Nat → Option Item) :
    (t.cut k).blockSymbol kind name detail child? = t.blockSymbol kind name detail child? := by
  obtain ⟨j, hj, hline⟩ := exists_cut_line h.ne_nil hend.le_text
  have hne := trim_ne_nil_of_headOf h.headOf_line
  have hselection : selectionOf (t.cut k).index (t.cut k).line = selectionOf t.index t.line := by
    rw [hline, selectionOf, lineEnd, trimRight_take hj, indentation_take hj hne]
    rfl
  simp only [blockSymbol, blockEnd_cut h.ne_nil hopens hend, cut_inside h.ne_nil, hselection]
  rfl

/-- A declaration that is cut where its symbol ends has the same symbol. -/
theorem symbol?_cut {index : Nat} {lines : List Line} (h : t.Opens index lines)
    (hend : t.EndsAt k) : (t.cut k).symbol? = t.symbol? := by
  have hhead : (t.cut k).head = t.head := rfl
  have hblock := blockSymbol_cut (k := k) h
  rw [symbol?, symbol?, hhead]
  cases ht : t.head with
  | function head => exact congrArg some (hblock (by rw [ht]; rfl) hend _ _ _ _)
  | struct name => exact congrArg some (hblock (by rw [ht]; rfl) hend _ _ _ _)
  | enum name => exact congrArg some (hblock (by rw [ht]; rfl) hend _ _ _ _)
  | «variable» head =>
    obtain ⟨j, hj, hline⟩ := exists_cut_line h.ne_nil hend.le_text
    rw [hline]
    exact congrArg some (congrArg (Symbol.mk · [])
      (lineItem_take hj (trim_ne_nil_of_headOf h.headOf_line) t.index _ _ _))
  | loop name | importing path => rfl

end TopLevel

/-! ### The text of a symbol -/

/-- The lines of one declaration alone have its symbol, moved up to the first line. -/
theorem symbols_of_opens {t : TopLevel} {s : Symbol} (h : t.Opens t.index t.lines)
    (hs : t.symbol? = some s) : symbols t.lines = [s.up t.index] := by
  let first : TopLevel := { t with index := 0 }
  have hfirst : first.Opens 0 t.lines := { h with index_eq := rfl }
  have hdown : first.down t.index = t := by simp [first, TopLevel.down]
  have hsymbol := first.symbol?_down t.index
  rw [hdown, hs, eq_comm, Option.map_eq_some_iff] at hsymbol
  obtain ⟨s', hs', rfl⟩ := hsymbol
  have hread : topLevel t.lines = [first] := by
    rw [topLevel, hfirst.topLevelFrom_eq, List.drop_length, topLevelFrom_nil]
  rw [symbols, hread, List.filterMap_cons_some hs', List.filterMap_nil, Symbol.up_down]

theorem covered_eq_joined {lines : List Line} {t : TopLevel} {k : Nat}
    (h : t.Opens t.index (lines.drop t.index)) :
    Buffer.covered lines ⟨⟨t.index, 0⟩, ⟨t.lastIndex, k⟩⟩ = joined ['\n'] (t.cut k).lines := by
  have hfront : (lines.drop t.index).take (t.lines.length - 1) = t.lines.dropLast := by
    obtain ⟨rest, hrest⟩ := h.isPrefix
    rw [← hrest, List.take_append_of_le_length (Nat.sub_le _ _), List.dropLast_eq_take]
  have hcount : ((t.lastIndex : Int) - t.index).toNat = t.lines.length - 1 := by
    rw [TopLevel.lastIndex]
    omega
  rw [Buffer.covered]
  dsimp only
  rw [hcount, Int.toNat_natCast, hfront, Buffer.lineAt_eq h.getElem?_lastIndex, Int.toNat_natCast]
  rfl

/-- The lines that are left hold only what stands on the lines of the buffer. -/
theorem exists_mem_of_mem_cut {lines : List Line} {t : TopLevel} {k : Nat} {line : Line}
    (h : t.Opens t.index (lines.drop t.index)) (hline : line ∈ (t.cut k).lines) :
    ∃ whole ∈ lines, line <+: whole := by
  rcases List.mem_append.mp hline with hfront | hlast
  · have hmem : line ∈ lines.drop t.index := h.isPrefix.subset (List.mem_of_mem_dropLast hfront)
    exact ⟨line, List.mem_of_mem_drop hmem, List.prefix_rfl⟩
  · rw [List.mem_singleton] at hlast
    subst hlast
    exact ⟨t.lastLine, List.mem_of_getElem? h.getElem?_lastIndex, List.take_prefix _ _⟩

/-- **The text of a symbol stands on its own.** Whatever text without carriage returns a symbol is
found in, the text that its range covers has exactly that symbol in its outline, moved up to the
first line. The block of the symbol may close on the line of its head, further down or nowhere. -/
theorem ofText_covered (text : String) (hreturn : '\r' ∉ text.toList) (s : Symbol)
    (hs : s ∈ ofText text) :
    ofText (String.ofList (Buffer.covered (Buffer.lines text.toList) s.range)) =
      [s.up s.range.start.line] := by
  obtain ⟨t, hsymbol, hopens⟩ := exists_opens_of_mem_symbols hs
  have hshows := TopLevel.shows_of_symbol? hsymbol
  obtain ⟨k, hend, hstop⟩ := hshows.exists_endsAt hopens
  have hrange : s.range = ⟨⟨t.index, 0⟩, ⟨t.lastIndex, k⟩⟩ := by
    rw [← hshows.start, ← hstop]
  have hlines : Buffer.lines (joined ['\n'] (t.cut k).lines) = (t.cut k).lines := by
    refine Buffer.lines_joined (by simp [TopLevel.cut]) ?_ ?_
    · intro line hline hfeed
      obtain ⟨whole, hwhole, hfront⟩ := exists_mem_of_mem_cut hopens hline
      exact (Buffer.mem_text_of_mem_line hwhole (hfront.subset hfeed)).2 rfl
    · intro line hline hmem
      obtain ⟨whole, hwhole, hfront⟩ := exists_mem_of_mem_cut hopens hline
      exact hreturn (Buffer.mem_text_of_mem_line hwhole (hfront.subset hmem)).1
  have hcut := symbols_of_opens (TopLevel.cut_opens hopens hend)
    ((TopLevel.symbol?_cut hopens hend).trans hsymbol)
  rw [ofText, String.toList_ofList, hrange, covered_eq_joined hopens, hlines, hcut]
  rfl

/-- A function with text behind its closing brace, between a variable and a struct that is never
closed. -/
theorem ofText_covered_function :
    let text := "let a;\n fn f() \x7b\n  let x: T = \x7b\x7d;\n  \x7d let y;\nstruct S \x7b"
    let alone := " fn f() \x7b\n  let x: T = \x7b\x7d;\n  \x7d"
    let f : Symbol := ⟨⟨.function, "f", "Function", ⟨⟨1, 0⟩, ⟨3, 3⟩⟩, ⟨⟨1, 1⟩, ⟨1, 9⟩⟩⟩,
      [⟨.variable, "x", "Local variable", ⟨⟨2, 0⟩, ⟨2, 16⟩⟩, ⟨⟨2, 2⟩, ⟨2, 16⟩⟩⟩]⟩
    '\r' ∉ text.toList ∧ f ∈ ofText text ∧
      String.ofList (Buffer.covered (Buffer.lines text.toList) f.range) = alone ∧
      ofText alone =
        [⟨⟨.function, "f", "Function", ⟨⟨0, 0⟩, ⟨2, 3⟩⟩, ⟨⟨0, 1⟩, ⟨0, 9⟩⟩⟩,
          [⟨.variable, "x", "Local variable", ⟨⟨1, 0⟩, ⟨1, 16⟩⟩, ⟨⟨1, 2⟩, ⟨1, 16⟩⟩⟩]⟩] := by
  intro text alone f
  have hreturn : '\r' ∉ text.toList := by decide +kernel
  have hf : f ∈ ofText text := by decide +kernel
  have hcovered : String.ofList (Buffer.covered (Buffer.lines text.toList) f.range) = alone := by
    decide +kernel
  have halone := ofText_covered text hreturn f hf
  rw [hcovered] at halone
  exact ⟨hreturn, hf, hcovered, halone⟩

end Outline

end VeLens
