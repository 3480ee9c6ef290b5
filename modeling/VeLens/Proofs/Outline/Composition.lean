import VeLens.Proofs.Outline.Symbols

/-!
# Outlines of texts one below the other

If every block of a text closes, nothing below the text changes how it is read. The outline of such
a text and another one below it is then the first outline, followed by the second one moved down.

## Main definitions

* `Symbol.down`: a symbol that stands a number of lines further down.
* `Symbol.closes`: the block of a symbol closes in the buffer.

## Main results

* `Reading.append`: passes over two parts of a buffer, one after the other.
* `Reading.down`: a pass over lines that stand further down.
* `ofText_append_newline`: the outline of two texts with a line feed between them.
-/

namespace VeLens

/-- The position `n` lines further down. -/
def Position.down (n : Nat) (p : Position) : Position := ⟨p.line + n, p.column⟩

def Range.down (n : Nat) (r : Range) : Range := ⟨r.start.down n, r.stop.down n⟩

/-- Which of two positions is the later one does not depend on where they stand. -/
theorem Position.later_down (p q : Position) (n : Nat) :
    (p.down n).later (q.down n) = (p.later q).down n := by
  have hle : (p.down n).le (q.down n) = p.le q := by
    rw [Bool.eq_iff_iff, le_iff, le_iff]
    simp [down]
  rw [later, later, hle]
  split <;> rfl

namespace Outline

open Declaration

def Item.down (n : Nat) (item : Item) : Item :=
  { item with range := item.range.down n, selection := item.selection.down n }

/-- The symbol `n` lines further down, with all its members. -/
def Symbol.down (n : Nat) (s : Symbol) : Symbol :=
  ⟨s.toItem.down n, s.children.map (Item.down n)⟩

def TopLevel.down (n : Nat) (t : TopLevel) : TopLevel := { t with index := t.index + n }

/-- The closing brace of the symbol's block is found in the buffer. -/
def Symbol.closes (lines : List Line) (s : Symbol) : Bool :=
  (Block.findEnd lines s.range.start.line).any fun stop =>
    !Block.isUnterminated stop s.range.start.line

/-! ### Closed blocks -/

section Closed

variable {t : TopLevel} {index : Nat} {lines : List Line}

/-- A symbol that closes has a closing brace below its head. -/
theorem exists_close?_of_closes {s : Symbol} (hs : t.Shows s) (h : s.closes lines = true) :
    ∃ p, Block.close? (lines.drop t.index) = some p := by
  cases hclose : Block.close? (lines.drop t.index) with
  | some p => exact ⟨p, rfl⟩
  | none =>
    -- The end of such a block is given as the start of its head, which counts as unterminated.
    rw [Symbol.closes, hs.start, Block.findEnd_of_close?_eq_none hclose] at h
    simp [Block.isUnterminated] at h

/-- The closing brace of a declaration stands on the lines that it takes up. -/
theorem TopLevel.Opens.close?_lines (h : t.Opens index lines) (hopens : opensBlock t.head = true)
    {p : Nat × Nat} (hp : Block.close? lines = some p) : Block.close? t.lines = some p := by
  have hextent := h.block hopens
  rw [Block.extent_of_close? hp] at hextent
  have hlen : p.1 + 1 = t.lines.length := by
    have := h.length_pos
    rw [hextent]
    omega
  rw [h.lines_eq_take, ← hlen]
  exact Block.closeFrom?_take hp

/-- A closed declaration is not changed by lines below. -/
theorem TopLevel.Opens.append (h : t.Opens index lines)
    (hclosed : opensBlock t.head = true → ∃ p, Block.close? t.lines = some p) (below : List Line) :
    t.Opens index (lines ++ below) := by
  refine { h with isPrefix := h.isPrefix.trans (List.prefix_append _ _), block := ?_ }
  intro hopens
  obtain ⟨p, hp⟩ := hclosed hopens
  obtain ⟨rest, hrest⟩ := h.isPrefix
  have hlines : Block.close? lines = some p := by
    rw [← hrest]
    exact Block.closeFrom?_append_of_some hp rest
  have hboth : Block.close? (lines ++ below) = some p :=
    Block.closeFrom?_append_of_some hlines below
  rw [← h.block hopens, Block.extent_of_close? hlines, Block.extent_of_close? hboth]

end Closed

/-- A pass over lines whose blocks all close goes on below them. -/
theorem Reading.append {index : Nat} {xs ys : List Line} {ts us : List TopLevel}
    (h : Reading index xs ts)
    (hclosed : ∀ t ∈ ts, opensBlock t.head = true → ∃ p, Block.close? t.lines = some p)
    (rest : Reading (index + xs.length) ys us) : Reading index (xs ++ ys) (ts ++ us) := by
  induction h with
  | done => exact rest
  | @skip index line below ts hline _ ih =>
    rw [List.length_cons, Nat.add_comm below.length, ← Nat.add_assoc] at rest
    exact .skip hline (ih hclosed rest)
  | @declare index lines t ts ht _ ih =>
    have hle : t.lines.length ≤ lines.length := ht.isPrefix.length_le
    refine .declare (ht.append (hclosed t List.mem_cons_self) ys) ?_
    -- The declaration ends within `xs`, so what is left of `xs` still stands above `ys`.
    rw [List.drop_append_of_le_length hle]
    apply ih
    · intro u hu
      exact hclosed u (List.mem_cons_of_mem t hu)
    · rw [List.length_drop, Nat.add_assoc, Nat.add_sub_cancel' hle]
      exact rest

/-! ### Moving down -/

/-- A pass over lines that stand further down finds the same declarations further down. -/
theorem Reading.down {index : Nat} {lines : List Line} {ts : List TopLevel}
    (h : Reading index lines ts) (n : Nat) :
    Reading (index + n) lines (ts.map (TopLevel.down n)) := by
  induction h with
  | done => exact .done _
  | skip hline _ ih =>
    rw [Nat.add_right_comm] at ih
    exact .skip hline ih
  | @declare index lines t ts ht _ ih =>
    rw [Nat.add_right_comm] at ih
    exact .declare { ht with index_eq := congrArg (· + n) ht.index_eq } ih

/-- Members that are read from lines further down stand further down. -/
def MovesDown (child? : Line → Nat → Option Item) : Prop :=
  ∀ line k n, child? line (k + n) = (child? line k).map (Item.down n)

theorem lineItem_add (k n : Nat) (line : Line) (kind : ItemKind) (name detail : String) :
    lineItem (k + n) line kind name detail = (lineItem k line kind name detail).down n := by
  simp [lineItem, selectionOf, lineEnd, Item.down, Range.down, Position.down]

theorem movesDown_localItem? : MovesDown localItem? := by
  intro line k n
  cases h : variableHead? (Text.trim line) with
  | none => simp [localItem?, h]
  | some head => cases ht : head.writtenType <;> simp [localItem?, h, ht, lineItem_add]

theorem movesDown_fieldItem? : MovesDown fieldItem? := by
  intro line k n
  cases h : field? (Text.trim line) <;> simp [fieldItem?, h, lineItem_add]

theorem movesDown_variantItem? : MovesDown variantItem? := by
  intro line k n
  cases h : variant? (Text.trim line) <;> simp [variantItem?, h, lineItem_add]

namespace TopLevel

theorem blockEnd_down (t : TopLevel) (n : Nat) : (t.down n).blockEnd = t.blockEnd.down n := by
  have hlast : (t.down n).lastIndex = t.lastIndex + n := Nat.add_right_comm _ _ _
  have hfirst : lineEnd (t.down n).index t.line = (lineEnd t.index t.line).down n := by
    simp [lineEnd, down, Position.down]
  rw [blockEnd, blockEnd, hlast]
  change Position.later (lineEnd (t.down n).index t.line) _ = _
  rw [hfirst, ← Position.later_down]
  simp [Position.down]
  rfl

theorem inside_down (t : TopLevel) (n : Nat) :
    (t.down n).inside = t.inside.map fun p => (p.1, p.2 + n) := by
  have hstart : (t.down n).index + 1 = n + (t.index + 1) := by
    rw [down, Nat.add_right_comm, Nat.add_comm]
  rw [inside, inside, hstart, ← List.map_snd_add_zipIdx_eq_zipIdx]
  rfl

theorem blockSymbol_down {child? : Line → Nat → Option Item} (hchild : MovesDown child?)
    (t : TopLevel) (n : Nat) (kind : ItemKind) (name detail : String) :
    (t.down n).blockSymbol kind name detail child? =
      (t.blockSymbol kind name detail child?).down n := by
  have hchildren : (t.down n).inside.filterMap (fun p => child? p.1 p.2) =
      (t.inside.filterMap fun p => child? p.1 p.2).map (Item.down n) := by
    rw [inside_down, List.filterMap_map, List.map_filterMap]
    congr 1
    funext p
    exact hchild p.1 p.2 n
  have hrange : (⟨⟨(t.down n).index, 0⟩, (t.down n).blockEnd⟩ : Range) =
      (⟨⟨t.index, 0⟩, t.blockEnd⟩ : Range).down n := by
    rw [blockEnd_down]
    simp [Range.down, Position.down, down]
  have hselection : selectionOf (t.down n).index t.line = (selectionOf t.index t.line).down n := by
    simp [selectionOf, lineEnd, Range.down, Position.down, down]
  simp only [blockSymbol, Symbol.down, Item.down, hchildren, hrange, ← hselection]
  rfl

/-- The symbol of a declaration further down is its symbol further down. -/
theorem symbol?_down (t : TopLevel) (n : Nat) :
    (t.down n).symbol? = t.symbol?.map (Symbol.down n) := by
  have hhead : (t.down n).head = t.head := rfl
  rw [symbol?, symbol?, hhead]
  cases t.head with
  | function head => exact congrArg some (blockSymbol_down movesDown_localItem? t n _ _ _)
  | struct name => exact congrArg some (blockSymbol_down movesDown_fieldItem? t n _ _ _)
  | enum name => exact congrArg some (blockSymbol_down movesDown_variantItem? t n _ _ _)
  | «variable» head =>
    exact congrArg some (congrArg (Symbol.mk · []) (lineItem_add t.index n t.line _ _ _))
  | loop name | importing path => rfl

end TopLevel

/-- The outline of lines whose blocks all close and of other lines below them. -/
theorem symbols_append {xs : List Line}
    (hclosed : ∀ t ∈ topLevel xs, opensBlock t.head = true → ∃ p, Block.close? t.lines = some p)
    (ys : List Line) :
    symbols (xs ++ ys) = symbols xs ++ (symbols ys).map (Symbol.down xs.length) := by
  have hbelow := (reading_topLevelFrom 0 ys).down xs.length
  have hread := reading_iff.mp ((reading_topLevelFrom 0 xs).append hclosed hbelow)
  have hdown : TopLevel.symbol? ∘ TopLevel.down xs.length =
      fun t => t.symbol?.map (Symbol.down xs.length) :=
    funext fun t => t.symbol?_down xs.length
  rw [symbols, topLevel, hread, List.filterMap_append, List.filterMap_map, hdown, symbols, symbols,
    List.map_filterMap]
  rfl

/-- **Outlines compose.** If every block in the outline of a text closes, then the outline of that
text and another one below it is the first outline followed by the second one, moved down by the
number of lines of the first text. -/
theorem ofText_append_newline (a b : String)
    (hclosed : ∀ s ∈ ofText a, s.kind ∈ [ItemKind.function, ItemKind.struct, ItemKind.enum] →
      s.closes (Buffer.lines a.toList) = true) :
    ofText (a ++ "\n" ++ b) =
      ofText a ++ (ofText b).map (Symbol.down (Buffer.lines a.toList).length) := by
  have hlines : Buffer.lines (a ++ "\n" ++ b).toList =
      Buffer.lines a.toList ++ Buffer.lines b.toList := by
    rw [String.toList_append, String.toList_append, List.append_assoc,
      ← Buffer.lines_append_newline]
    rfl
  rw [ofText, hlines]
  apply symbols_append
  -- The hypothesis is about symbols; every declaration with a block has one.
  intro t ht hopens
  obtain ⟨-, hfits⟩ := (reading_topLevelFrom 0 (Buffer.lines a.toList)).opens_of_mem ht
  obtain ⟨s, hs, hshows, hkind⟩ := TopLevel.exists_symbol_of_opensBlock hopens
  obtain ⟨p, hp⟩ := exists_close?_of_closes hshows
    (hclosed s (List.mem_filterMap.mpr ⟨t, ht, hs⟩) hkind)
  exact ⟨p, hfits.close?_lines hopens hp⟩

/-- A closed function above a struct that is never closed. -/
theorem ofText_append_newline_unclosed :
    let a := "fn f() \x7b\n  \x7d let y;"
    let b := "struct S \x7b\n  x: i32"
    (∀ s ∈ ofText a, s.kind ∈ [ItemKind.function, ItemKind.struct, ItemKind.enum] →
      s.closes (Buffer.lines a.toList) = true) ∧
    ofText (a ++ "\n" ++ b) = ofText a ++ (ofText b).map (Symbol.down 2) := by
  intro a b
  have hclosed : ∀ s ∈ ofText a, s.kind ∈ [ItemKind.function, ItemKind.struct, ItemKind.enum] →
      s.closes (Buffer.lines a.toList) = true := by decide +kernel
  have hlength : (Buffer.lines a.toList).length = 2 := by decide +kernel
  have happend := ofText_append_newline a b hclosed
  rw [hlength] at happend
  exact ⟨hclosed, happend⟩

end Outline

end VeLens
