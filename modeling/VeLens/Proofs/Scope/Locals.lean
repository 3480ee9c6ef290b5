import VeLens.Proofs.Declaration.Inversion
import VeLens.Proofs.Scope.Enclosing

/-!
# Local variables

The local variables of a function are shown below it in the outline and are visible at its end. Both
lists are read from the lines between the head and the end of the block, by different readers: the
outline asks each line for a variable, the visible names ask it for a head of any kind. The outline
leaves out variables without a written type.

## Main definitions

* `Kind.isLocal`: the kinds of local variables, loop variables left out.
* `bodyVariables`: the variables that are declared on some lines.

## Main results

* `members_eq_bodyVariables`, `locals_eq_bodyVariables`: both lists in terms of the lines.
* `resolve_at_stop`: what is visible on the last line of a function.
* `children_sublist_locals`: the outline shows a part of the visible local variables.
-/

namespace VeLens.Scope

open Declaration Outline Text

/-- The name is a variable that is declared in a function. -/
def Kind.isLocal : Kind → Bool
  | localVariable | localForeign => true
  | parameter | loopVariable | globalVariable | globalForeign => false

theorem not_isLocal_of_isGlobal {kind : Kind} (h : kind.isGlobal = true) :
    kind.isLocal = false := by
  cases kind with
  | globalVariable | globalForeign => rfl
  | parameter | localVariable | localForeign | loopVariable => exact Bool.noConfusion h

/-- The variables that are declared on some lines. -/
def bodyVariables (lines : List Line) : List Variable :=
  lines.filterMap fun line => variableHead? (trim line)

theorem mem_bodyVariables {lines : List Line} {head : Variable} :
    head ∈ bodyVariables lines ↔ ∃ line ∈ lines, variableHead? (trim line) = some head :=
  List.mem_filterMap

/-! ### Lines between the head and the end -/

section Inside

variable {t : TopLevel} {lines : List Line} (h : t.Opens t.index (lines.drop t.index))

include h

theorem inside_lines : t.lines.tail.dropLast =
    (lines.drop (t.index + 1)).take (t.lastIndex - (t.index + 1)) := by
  obtain ⟨rest, hrest⟩ := h.isPrefix
  have htail : lines.drop (t.index + 1) = t.lines.tail ++ rest := by
    rw [← List.tail_drop, ← hrest, List.tail_append_of_ne_nil h.ne_nil]
  have hcount : t.lastIndex - (t.index + 1) = t.lines.tail.length - 1 := by
    rw [TopLevel.lastIndex, List.length_tail]
    omega
  rw [htail, hcount, List.take_append_of_le_length (Nat.sub_le _ _), List.dropLast_eq_take]

theorem mem_inside_lines {line : Line} : line ∈ t.lines.tail.dropLast ↔
    ∃ i, t.index < i ∧ i < t.lastIndex ∧ lines[i]? = some line := by
  rw [inside_lines h, List.mem_iff_getElem?]
  constructor
  · rintro ⟨k, hk⟩
    obtain ⟨hlt, -⟩ := List.getElem?_eq_some_iff.mp hk
    rw [List.length_take] at hlt
    rw [List.getElem?_take_of_lt (by omega), List.getElem?_drop] at hk
    exact ⟨t.index + 1 + k, by omega, by omega, hk⟩
  · rintro ⟨i, hlo, hhi, hi⟩
    refine ⟨i - (t.index + 1), ?_⟩
    rw [List.getElem?_take_of_lt (by omega), List.getElem?_drop, Nat.add_sub_cancel' hlo, hi]

theorem forall_isSome_writtenType_iff :
    (∀ head ∈ bodyVariables t.lines.tail.dropLast, head.writtenType.isSome = true) ↔
      ∀ (i : Nat) (line : Line) (head : Variable), t.index < i → i < t.lastIndex →
        lines[i]? = some line → variableHead? (trim line) = some head → HasColon (trim line) := by
  constructor
  · intro hall i line head hlo hhi hline hread
    have hmem := (mem_inside_lines h).mpr ⟨i, hlo, hhi, hline⟩
    exact (isSome_writtenType_iff hread).mp (hall head (mem_bodyVariables.mpr ⟨line, hmem, hread⟩))
  · intro hall head hmem
    obtain ⟨line, hline, hread⟩ := mem_bodyVariables.mp hmem
    obtain ⟨i, hlo, hhi, hi⟩ := (mem_inside_lines h).mp hline
    exact (isSome_writtenType_iff hread).mpr (hall i line head hlo hhi hi hread)

theorem blockEndLine_eq_lastIndex (hopens : opensBlock t.head = true) :
    blockEndLine lines t.index = t.lastIndex := by
  rw [blockEndLine, h.block hopens, TopLevel.lastIndex]

end Inside

/-! ### Two readers of one line -/

/-- The outline shows the variable on a line if it has a written type. -/
theorem localItem?_eq (line : Line) (index : Nat) :
    ((localItem? line index).map fun child => (child.name, child.detail == "Local FFI variable")) =
      ((variableHead? (trim line)).filter (·.writtenType.isSome)).map
        fun head => (head.name, head.isForeign) := by
  rw [localItem?]
  cases hhead : variableHead? (trim line) with
  | none => rfl
  | some head =>
    cases htype : head.writtenType <;> cases hforeign : head.isForeign <;>
      simp [htype, hforeign, lineItem, Option.filter_some]

/-- A line makes a local variable visible if it declares one. No other head is found on it then. -/
theorem bodyBinding?_eq (line : Line) :
    (((bodyBinding? line).filter (·.kind.isLocal)).map
        fun b => (b.name, b.kind == .localForeign)) =
      (variableHead? (trim line)).map fun head => (head.name, head.isForeign) := by
  cases hvar : variableHead? (trim line) with
  | some head =>
    have hhead : headOf line = some (.variable head) := classify_eq_some_iff.mpr hvar
    rw [bodyBinding?, hhead]
    cases hforeign : head.isForeign <;>
      simp [localBinding, variableBinding, hforeign, Kind.isLocal]
  | none =>
    have hnot (head : Variable) : headOf line ≠ some (.variable head) := by
      intro hhead
      have hread : variableHead? (trim line) = some head := readFrom_of_classify hhead
      rw [hvar] at hread
      exact absurd hread (by simp)
    rw [bodyBinding?]
    split
    · next head hhead => exact absurd hhead (hnot head)
    · rfl
    · rfl

/-- The symbol of a function belongs to the head of a function, and its members are read from the
lines inside. -/
theorem exists_function_of_symbol? {t : TopLevel} {s : Symbol} (hs : t.symbol? = some s)
    (hkind : s.kind = .function) :
    ∃ head, t.head = .function head ∧
      s.children = t.inside.filterMap fun p => localItem? p.1 p.2 := by
  obtain ⟨index, head, ls, column⟩ := t
  cases head with
  | function head =>
    obtain rfl := Option.some_inj.mp hs
    exact ⟨head, rfl, rfl⟩
  | struct name | enum name | «variable» head =>
    obtain rfl := Option.some_inj.mp hs
    exact absurd hkind (by simp [TopLevel.blockSymbol, lineItem])
  | loop name | importing path => exact absurd hs (by simp [TopLevel.symbol?])

theorem members_eq_bodyVariables (t : TopLevel) :
    ((t.inside.filterMap fun p => localItem? p.1 p.2).map
        fun child => (child.name, child.detail == "Local FFI variable")) =
      ((bodyVariables t.lines.tail.dropLast).filter (·.writtenType.isSome)).map
        fun head => (head.name, head.isForeign) := by
  rw [TopLevel.inside, List.map_filterMap, bodyVariables, List.filter_filterMap,
    List.map_filterMap]
  simp only [localItem?_eq]
  -- The numbers of the lines play no part.
  conv_rhs => rw [← List.zipIdx_map_fst (t.index + 1) t.lines.tail.dropLast, List.filterMap_map]
  rfl

theorem locals_eq_bodyVariables (lines : List Line) (head stop : Nat) :
    (((locals lines head stop).filter (·.kind.isLocal)).map
        fun b => (b.name, b.kind == .localForeign)) =
      (bodyVariables ((lines.drop (head + 1)).take (stop - (head + 1)))).map
        fun head => (head.name, head.isForeign) := by
  rw [locals, bodyVariables, List.filter_filterMap, List.map_filterMap, List.map_filterMap]
  simp only [bodyBinding?_eq]

/-! ### The end of a function -/

/-- On the last line of a function its own local variables are visible, unless another function
begins below its head. -/
theorem resolve_at_stop {lines : List Line} {t : TopLevel} {head : Function}
    (h : t.Opens t.index (lines.drop t.index)) (hhead : t.head = .function head)
    (halone : ∀ i, t.index < i → i ≤ t.lastIndex → functionOn? lines i = none) (column : Int) :
    (resolve lines ⟨t.lastIndex, column⟩).filter (·.kind.isLocal) =
      (locals lines t.index t.lastIndex).filter (·.kind.isLocal) := by
  obtain ⟨hlast, -⟩ := List.getElem?_eq_some_iff.mp h.getElem?_lastIndex
  have hread : functionHead? (trim t.line) = some head := by
    have := h.headOf_line
    rw [hhead] at this
    exact readFrom_of_classify this
  have henclosing : enclosing? lines t.lastIndex = some (t.index, head) := by
    refine enclosing?_eq_some_iff.mpr ⟨Nat.le_add_right _ _, ?_, halone⟩
    rw [functionOn?, h.getElem?_index, Option.bind_some, hread]
  have hparameters : (parameters head).filter (·.kind.isLocal) = [] := by
    rw [List.filter_eq_nil_iff]
    intro b hb
    simp [kind_of_mem_parameters hb, Kind.isLocal]
  have hglobals : (globals lines).filter (·.kind.isLocal) = [] := by
    rw [List.filter_eq_nil_iff]
    intro b hb
    simp [not_isLocal_of_isGlobal (isGlobal_of_mem_globals hb)]
  rw [resolve, clampLine_of_lt hlast, functionBindings, henclosing]
  dsimp only
  rw [blockEndLine_eq_lastIndex h (by rw [hhead]; rfl), Nat.min_self, List.filter_append,
    List.filter_append, hparameters, hglobals, List.nil_append, List.append_nil]

/-- Leaving out some members changes the list of their images exactly if there is one to leave out.
-/
theorem map_filter_eq_map_iff {α β : Type} {p : α → Bool} {f : α → β} {xs : List α} :
    (xs.filter p).map f = xs.map f ↔ ∀ x ∈ xs, p x = true := by
  constructor
  · intro h
    have hlength := congrArg List.length h
    rw [List.length_map, List.length_map] at hlength
    exact List.length_filter_eq_length_iff.mp hlength
  · intro h
    rw [List.filter_eq_self.mpr h]

/-- **The outline shows a part of the visible local variables.** If no other function begins on the
lines of a function, the local variables shown below it are, in the same order, among those that are
visible on its last line. Nothing is left out exactly if every variable that is declared between its
head and its last line has a colon after its name. -/
theorem children_sublist_locals (text : String) (s : Symbol) (column : Int) (hs : s ∈ ofText text)
    (hkind : s.kind = .function)
    (halone : ∀ (i : Nat) (line : Line), s.range.start.line < i → i ≤ s.range.stop.line →
      (Buffer.lines text.toList)[i]? = some line → functionHead? (trim line) = none) :
    let shown := s.children.map fun child => (child.name, child.detail == "Local FFI variable")
    let visible := ((resolve (Buffer.lines text.toList) ⟨s.range.stop.line, column⟩).filter
      (·.kind.isLocal)).map fun b => (b.name, b.kind == .localForeign)
    shown.Sublist visible ∧
      (shown = visible ↔ ∀ (i : Nat) (line : Line) (head : Variable),
        s.range.start.line < i → i < s.range.stop.line →
        (Buffer.lines text.toList)[i]? = some line → variableHead? (trim line) = some head →
        HasColon (trim line)) := by
  intro shown visible
  obtain ⟨t, hsymbol, hopens⟩ := exists_opens_of_mem_symbols hs
  obtain ⟨head, hhead, hchildren⟩ := exists_function_of_symbol? hsymbol hkind
  have hshows := TopLevel.shows_of_symbol? hsymbol
  have hstart : s.range.start.line = t.index := by rw [hshows.start]
  have hstop : s.range.stop.line = t.lastIndex := hshows.stop_line hopens
  have hshown : shown = ((bodyVariables t.lines.tail.dropLast).filter (·.writtenType.isSome)).map
      fun head => (head.name, head.isForeign) := by
    simp only [shown, hchildren]
    exact members_eq_bodyVariables t
  have hvisible : visible = (bodyVariables t.lines.tail.dropLast).map
      fun head => (head.name, head.isForeign) := by
    have hnone : ∀ i, t.index < i → i ≤ t.lastIndex →
        functionOn? (Buffer.lines text.toList) i = none := by
      intro i hlo hhi
      rw [functionOn?_eq_none_iff]
      exact fun line => halone i line (by omega) (by omega)
    simp only [visible, hstop]
    rw [resolve_at_stop hopens hhead hnone, locals_eq_bodyVariables, inside_lines hopens]
  rw [hshown, hvisible]
  refine ⟨List.filter_sublist.map _, map_filter_eq_map_iff.trans ?_⟩
  rw [hstart, hstop]
  simpa only [Int.ofNat_lt] using forall_isSome_writtenType_iff hopens

/-- The variable `b` has no written type: the colon on its line belongs to the value. -/
theorem children_sublist_locals_untyped :
    let text := "fn f() \x7b\n  let a: T;\n  let b = \":\";\n  for i in a \x7b\n  var c:\n\x7d\x7d"
    let f : Symbol := ⟨⟨.function, "f", "Function", ⟨⟨0, 0⟩, ⟨5, 2⟩⟩, ⟨⟨0, 0⟩, ⟨0, 8⟩⟩⟩,
      [⟨.variable, "a", "Local variable", ⟨⟨1, 0⟩, ⟨1, 11⟩⟩, ⟨⟨1, 2⟩, ⟨1, 11⟩⟩⟩,
        ⟨.variable, "c", "Local FFI variable", ⟨⟨4, 0⟩, ⟨4, 8⟩⟩, ⟨⟨4, 2⟩, ⟨4, 8⟩⟩⟩]⟩
    let shown := f.children.map fun child => (child.name, child.detail == "Local FFI variable")
    let visible := ((resolve (Buffer.lines text.toList) ⟨5, 0⟩).filter (·.kind.isLocal)).map
      fun b => (b.name, b.kind == .localForeign)
    f ∈ ofText text ∧
      (∀ line ∈ (Buffer.lines text.toList).drop 1, functionHead? (trim line) = none) ∧
      shown = [("a", false), ("c", true)] ∧
      visible = [("a", false), ("b", false), ("c", true)] ∧ shown.Sublist visible := by
  intro text f shown visible
  have hf : f ∈ ofText text := by decide +kernel
  have hbody : ∀ line ∈ (Buffer.lines text.toList).drop 1, functionHead? (trim line) = none := by
    decide +kernel
  have halone : ∀ (i : Nat) (line : Line), f.range.start.line < i → i ≤ f.range.stop.line →
      (Buffer.lines text.toList)[i]? = some line → functionHead? (trim line) = none := by
    intro i line hlo _ hline
    have hpos : 1 ≤ i := Int.ofNat_lt.mp hlo
    apply hbody
    rw [List.mem_iff_getElem?]
    exact ⟨i - 1, by rw [List.getElem?_drop, Nat.add_sub_cancel' hpos, hline]⟩
  have hvisible : visible = [("a", false), ("b", false), ("c", true)] := by decide +kernel
  exact ⟨hf, hbody, rfl, hvisible, (children_sublist_locals text f 0 hf rfl halone).1⟩

end VeLens.Scope
