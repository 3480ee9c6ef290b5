import VeLens.Outline.Symbol
import VeLens.Proofs.Buffer.Lines
import VeLens.Proofs.Declaration.Heads
import VeLens.Proofs.Outline.Reading

/-!
# Symbols and their declarations

A symbol shows one declaration: it begins on the line of the head, ends on the last line that the
declaration takes up, and its members stand on the lines between.

## Main definitions

* `itemOf`: what a head is in the outline, and by which name.
* `ItemKind.nameOn?`: the name on a line that is read as an item of a kind.
* `TopLevel.Shows`: how a symbol depends on its declaration.

## Main results

* `shows_of_symbol?`: what can be seen in the symbol of a declaration.
* `exists_symbol`: every head that declares an item has a symbol.
* `TopLevel.Shows.stop_line`: the symbol ends on the last line of its declaration.
-/

namespace VeLens.Outline

open Declaration Text

/-- The kind and the name of the item that a head declares. Loops and imports declare none. -/
def itemOf : Head → Option (ItemKind × String)
  | .function head => some (.function, head.name)
  | .struct name => some (.struct, name)
  | .enum name => some (.enum, name)
  | .variable head => some (.variable, head.name)
  | .loop _ | .importing _ => none

/-- A head with a block is a function, a struct or an enum. -/
theorem itemOf_of_opensBlock {head : Head} (h : opensBlock head = true) :
    ∃ kind name, itemOf head = some (kind, name) ∧
      kind ∈ [ItemKind.function, ItemKind.struct, ItemKind.enum] := by
  cases head with
  | function head | struct name | enum name => exact ⟨_, _, rfl, by simp⟩
  | «variable» head | loop name | importing path => exact absurd h (by simp [opensBlock])

/-- The name on a trimmed line that is read as an item of the kind. -/
def ItemKind.nameOn? (kind : ItemKind) (line : List Char) : Option String :=
  match kind with
  | .function => (functionHead? line).map (·.name)
  | .struct => structHead? line
  | .enum => enumHead? line
  | .variable => (variableHead? line).map (·.name)
  | .field => (field? line).map (·.name)
  | .enumVariant => variant? line

theorem nameOn?_nil (kind : ItemKind) : kind.nameOn? [] = none := by
  cases kind <;> rfl

/-- The reader of its kind finds the name of a declared item again. -/
theorem nameOn?_of_headOf {line : Line} {head : Head} {kind : ItemKind} {name : String}
    (hhead : headOf line = some head) (hitem : itemOf head = some (kind, name)) :
    kind.nameOn? (trim line) = some name := by
  have hread := readFrom_of_classify hhead
  cases head with
  | function head | «variable» head =>
    simp only [itemOf, Option.some.injEq, Prod.mk.injEq] at hitem
    obtain ⟨rfl, rfl⟩ := hitem
    exact congrArg (Option.map _) hread
  | struct n | enum n =>
    simp only [itemOf, Option.some.injEq, Prod.mk.injEq] at hitem
    obtain ⟨rfl, rfl⟩ := hitem
    exact hread
  | loop n | importing n => simp [itemOf] at hitem

/-! ### Members -/

/-- The members that are read from lines stand on those lines and carry the names that their kinds
find there. -/
def ReadsItems (child? : Line → Nat → Option Item) : Prop :=
  ∀ line index item, child? line index = some item →
    ∃ kind name detail, item = lineItem index line kind name detail ∧
      kind.nameOn? (trim line) = some name

theorem readsItems_localItem? : ReadsItems localItem? := by
  intro line index item h
  simp only [localItem?, Option.bind_eq_bind, Option.bind_eq_some_iff] at h
  obtain ⟨head, hhead, h⟩ := h
  split at h
  · refine ⟨.variable, head.name, _, (Option.some_inj.mp h).symm, ?_⟩
    exact congrArg (Option.map _) hhead
  · exact absurd h (by simp)

theorem readsItems_fieldItem? : ReadsItems fieldItem? := by
  intro line index item h
  obtain ⟨field, hfield, rfl⟩ := Option.map_eq_some_iff.mp h
  exact ⟨.field, field.name, _, rfl, congrArg (Option.map _) hfield⟩

theorem readsItems_variantItem? : ReadsItems variantItem? := by
  intro line index item h
  obtain ⟨name, hname, rfl⟩ := Option.map_eq_some_iff.mp h
  exact ⟨.enumVariant, name, _, rfl, hname⟩

/-! ### Symbols -/

namespace TopLevel

/-- How a symbol depends on its declaration. -/
structure Shows (t : TopLevel) (s : Symbol) : Prop where
  item : itemOf t.head = some (s.kind, s.name)
  start : s.range.start = ⟨t.index, 0⟩
  stop : s.range.stop = if opensBlock t.head then t.blockEnd else lineEnd t.index t.line
  selection : s.selection = selectionOf t.index t.line
  children : ∃ child?, ReadsItems child? ∧
    s.children = t.inside.filterMap fun p => child? p.1 p.2

variable {t : TopLevel} {s : Symbol} {index : Nat} {lines : List Line}

theorem shows_of_symbol? (h : t.symbol? = some s) : t.Shows s := by
  obtain ⟨i, head, ls, column⟩ := t
  cases head with
  | function head =>
    obtain rfl := Option.some_inj.mp h
    exact ⟨rfl, rfl, rfl, rfl, localItem?, readsItems_localItem?, rfl⟩
  | struct name =>
    obtain rfl := Option.some_inj.mp h
    exact ⟨rfl, rfl, rfl, rfl, fieldItem?, readsItems_fieldItem?, rfl⟩
  | enum name =>
    obtain rfl := Option.some_inj.mp h
    exact ⟨rfl, rfl, rfl, rfl, variantItem?, readsItems_variantItem?, rfl⟩
  | «variable» head =>
    obtain rfl := Option.some_inj.mp h
    refine ⟨rfl, rfl, rfl, rfl, fun _ _ => none, ?_, by simp⟩
    intro line index item hitem
    exact absurd hitem (by simp)
  | loop name | importing path => exact absurd h (by simp [symbol?])

/-- A declaration whose head declares an item has a symbol of that kind and name. -/
theorem exists_symbol {kind : ItemKind} {name : String} (h : itemOf t.head = some (kind, name)) :
    ∃ s, t.symbol? = some s ∧ t.Shows s ∧ s.kind = kind ∧ s.name = name := by
  obtain ⟨s, hs⟩ : ∃ s, t.symbol? = some s := by
    obtain ⟨i, head, ls, column⟩ := t
    cases head with
    | function head | struct name | enum name | «variable» head => exact ⟨_, rfl⟩
    | loop name | importing path => exact absurd h (by simp [itemOf])
  have hshows := shows_of_symbol? hs
  rw [hshows.item, Option.some_inj, Prod.mk.injEq] at h
  exact ⟨s, hs, hshows, h⟩

/-- The symbol of a declaration with a block is a function, a struct or an enum. -/
theorem exists_symbol_of_opensBlock (h : opensBlock t.head = true) :
    ∃ s, t.symbol? = some s ∧ t.Shows s ∧
      s.kind ∈ [ItemKind.function, ItemKind.struct, ItemKind.enum] := by
  obtain ⟨kind, name, hitem, hkind⟩ := itemOf_of_opensBlock h
  obtain ⟨s, hs, hshows, rfl, -⟩ := exists_symbol hitem
  exact ⟨s, hs, hshows, hkind⟩

theorem lastIndex_of_single (h : t.Opens index lines) (hsingle : opensBlock t.head = false) :
    t.lastIndex = t.index := by
  rw [lastIndex, (h.single hsingle).1]
  rfl

theorem blockEnd_line (t : TopLevel) : t.blockEnd.line = t.lastIndex := by
  have hle : t.index ≤ t.lastIndex := Nat.le_add_right _ _
  rw [blockEnd, Position.later]
  split
  · rfl
  · next hnot =>
    rw [Position.le_iff, not_or] at hnot
    have hline : ¬(t.index : Int) < t.lastIndex := hnot.1
    change (t.index : Int) = t.lastIndex
    omega

/-- The symbol ends on the last line that its declaration takes up. -/
theorem Shows.stop_line (hs : t.Shows s) (h : t.Opens index lines) :
    s.range.stop.line = t.lastIndex := by
  rw [hs.stop]
  cases hopens : opensBlock t.head with
  | true => exact t.blockEnd_line
  | false =>
    rw [lastIndex_of_single h hopens]
    rfl

end TopLevel

/-- Every symbol is that of a declaration of the buffer. -/
theorem exists_opens_of_mem_symbols {lines : List Line} {s : Symbol} (hs : s ∈ symbols lines) :
    ∃ t : TopLevel, t.symbol? = some s ∧ t.Opens t.index (lines.drop t.index) := by
  obtain ⟨t, ht, hsymbol⟩ := List.mem_filterMap.mp hs
  obtain ⟨-, hopens⟩ := (reading_topLevelFrom 0 lines).opens_of_mem ht
  exact ⟨t, hsymbol, hopens⟩

theorem exists_shows {lines : List Line} {s : Symbol} (hs : s ∈ symbols lines) :
    ∃ t : TopLevel, t.Shows s ∧ t.Opens t.index (lines.drop t.index) := by
  obtain ⟨t, hsymbol, hopens⟩ := exists_opens_of_mem_symbols hs
  exact ⟨t, TopLevel.shows_of_symbol? hsymbol, hopens⟩

end VeLens.Outline
