import VeLens.Proofs.Outline.Symbols
import VeLens.Scope

/-!
# The tiers of visible names

The names visible at a cursor are those of the enclosing function, followed by the variables at the
top level. The kinds of the two parts are different, so each part can be told from the whole list.
The variables at the top level are found by a pass of their own, and they are the same ones that the
outline shows.

## Main definitions

* `Kind.isGlobal`: the kinds of variables at the top level.
* `variableOf?`: the variable that a declaration at the top level declares.

## Main results

* `filter_isGlobal_resolve`, `filter_not_isGlobal_resolve`: the two parts of the visible names.
* `globals_eq_of_reading`: the pass for variables finds what the pass for declarations finds.
* `globals_agree`: the outline and the visible names have the same variables at the top level.
-/

namespace VeLens.Scope

open Declaration Outline Text

/-- The name is declared at the top level. -/
def Kind.isGlobal : Kind → Bool
  | globalVariable | globalForeign => true
  | parameter | localVariable | localForeign | loopVariable => false

/-! ### Names of the enclosing function -/

theorem parameterBinding?_parts {slot : List Char} {b : Binding}
    (h : parameterBinding? slot = some b) :
    ∃ name s rest, name? (trim slot) = some (name, s) ∧ trimLeft s = ':' :: rest ∧
      trim rest ≠ [] ∧ '\n' ∉ trim rest ∧
      b = ⟨String.ofList name, String.ofList (trim rest), .parameter, none⟩ := by
  simp only [parameterBinding?, Option.bind_eq_bind, Option.bind_eq_some_iff] at h
  obtain ⟨⟨name, s⟩, hname, h⟩ := h
  dsimp only at h
  split at h
  · next rest hrest =>
    split at h
    · next htype =>
      exact ⟨name, s, rest, hname, hrest, htype.1, htype.2, (Option.some_inj.mp h).symm⟩
    · exact absurd h (by simp)
  · exact absurd h (by simp)

theorem kind_of_bodyBinding? {line : Line} {b : Binding} (h : bodyBinding? line = some b) :
    b.kind ∈ [Kind.localVariable, Kind.localForeign, Kind.loopVariable] := by
  rw [bodyBinding?] at h
  split at h
  · next head _ =>
    rw [← Option.some_inj.mp h, localBinding, variableBinding]
    cases head.isForeign <;> simp
  · rw [← Option.some_inj.mp h]
    simp
  · exact absurd h (by simp)

theorem kind_of_mem_parameters {head : Function} {b : Binding} (h : b ∈ parameters head) :
    b.kind = .parameter := by
  obtain ⟨slot, -, hslot⟩ := List.mem_filterMap.mp h
  obtain ⟨name, s, rest, -, -, -, -, rfl⟩ := parameterBinding?_parts hslot
  rfl

theorem kind_of_mem_locals {lines : List Line} {head stop : Nat} {b : Binding}
    (h : b ∈ locals lines head stop) :
    b.kind ∈ [Kind.localVariable, Kind.localForeign, Kind.loopVariable] := by
  obtain ⟨line, -, hline⟩ := List.mem_filterMap.mp h
  exact kind_of_bodyBinding? hline

theorem not_isGlobal_of_mem_functionBindings {lines : List Line} {n : Nat} {b : Binding}
    (h : b ∈ functionBindings lines n) : b.kind.isGlobal = false := by
  rw [functionBindings] at h
  split at h
  · exact absurd h List.not_mem_nil
  · rcases List.mem_append.mp h with h | h
    · rw [kind_of_mem_parameters h]
      rfl
    · have hkind := kind_of_mem_locals h
      simp only [List.mem_cons, List.not_mem_nil, or_false] at hkind
      rcases hkind with hkind | hkind | hkind <;> rw [hkind] <;> rfl

/-! ### Variables at the top level -/

/-- The variable that a declaration at the top level declares. -/
def variableOf? (t : TopLevel) : Option Variable :=
  match t.head with
  | .variable head => some head
  | .function _ | .struct _ | .enum _ | .loop _ | .importing _ => none

theorem globals_nil : globals [] = [] := by
  rw [globals]

theorem globals_cons_of_none {line : Line} (h : headOf line = none) (below : List Line) :
    globals (line :: below) = globals below := by
  rw [globals, h]

/-- The pass for variables takes the variable of a declaration and goes on below the lines that the
declaration takes up. -/
theorem globals_of_opens {t : TopLevel} {index : Nat} {lines : List Line}
    (h : t.Opens index lines) :
    globals lines =
      ((variableOf? t).map globalBinding).toList ++ globals (lines.drop t.lines.length) := by
  obtain ⟨below, hbelow⟩ := h.exists_cons
  obtain ⟨n, hn⟩ : ∃ n, t.lines.length = n + 1 := Nat.exists_eq_add_one.mpr h.length_pos
  have hblock : opensBlock t.head = true → (Block.extent (t.line :: below)).1 = n := by
    intro hopens
    rw [← hbelow, h.block hopens, hn]
    rfl
  have hsingle : opensBlock t.head = false → n = 0 := by
    intro hopens
    rw [(h.single hopens).1] at hn
    exact (Nat.succ.inj hn).symm
  rw [hbelow, hn, List.drop_succ_cons, globals, h.headOf_line, variableOf?]
  cases ht : t.head with
  | function head | struct name | enum name =>
    rw [ht] at hblock
    dsimp only
    rw [hblock rfl]
    rfl
  | «variable» head | loop name | importing path =>
    rw [ht] at hsingle
    rw [hsingle rfl]
    rfl

/-- Both passes skip the same blocks, so they find the same variables. -/
theorem globals_eq_of_reading {index : Nat} {lines : List Line} {ts : List TopLevel}
    (h : Reading index lines ts) :
    globals lines = (ts.filterMap variableOf?).map globalBinding := by
  induction h with
  | done => exact globals_nil
  | skip hline _ ih => rw [globals_cons_of_none hline, ih]
  | @declare index lines t ts ht _ ih =>
    rw [globals_of_opens ht, ih]
    cases hvar : variableOf? t with
    | none => rw [List.filterMap_cons_none hvar]; rfl
    | some head => rw [List.filterMap_cons_some hvar]; rfl

theorem globals_eq_filterMap (lines : List Line) :
    globals lines = ((topLevel lines).filterMap variableOf?).map globalBinding :=
  globals_eq_of_reading (reading_topLevelFrom 0 lines)

theorem isGlobal_of_mem_globals {lines : List Line} {b : Binding} (h : b ∈ globals lines) :
    b.kind.isGlobal = true := by
  rw [globals_eq_filterMap, List.mem_map] at h
  obtain ⟨head, -, rfl⟩ := h
  rw [globalBinding, variableBinding]
  cases head.isForeign <;> rfl

/-! ### The two parts -/

theorem filter_isGlobal_resolve (lines : List Line) (cursor : Position) :
    (resolve lines cursor).filter (·.kind.isGlobal) = globals lines := by
  have hfront : (functionBindings lines (clampLine lines cursor.line)).filter (·.kind.isGlobal) =
      [] := by
    rw [List.filter_eq_nil_iff]
    intro b hb
    simp [not_isGlobal_of_mem_functionBindings hb]
  rw [resolve, List.filter_append, hfront, List.nil_append, List.filter_eq_self]
  exact fun b hb => isGlobal_of_mem_globals hb

theorem filter_not_isGlobal_resolve (lines : List Line) (cursor : Position) :
    (resolve lines cursor).filter (!·.kind.isGlobal) =
      functionBindings lines (clampLine lines cursor.line) := by
  have hback : (globals lines).filter (!·.kind.isGlobal) = [] := by
    rw [List.filter_eq_nil_iff]
    intro b hb
    simp [isGlobal_of_mem_globals hb]
  rw [resolve, List.filter_append, hback, List.append_nil, List.filter_eq_self]
  intro b hb
  simp [not_isGlobal_of_mem_functionBindings hb]

/-! ### Variables in the outline -/

/-- A declaration has a symbol for a variable exactly if it declares one. -/
theorem variable_symbol? (t : TopLevel) :
    ((t.symbol?.filter (·.kind == .variable)).map fun s => (s.name, s.detail == "FFI Variable")) =
      (variableOf? t).map fun head => (head.name, head.isForeign) := by
  rw [TopLevel.symbol?, variableOf?]
  cases t.head with
  | «variable» head => cases hforeign : head.isForeign <;> simp [lineItem, hforeign]
  | function head | struct name | enum name => rfl
  | loop name | importing path => rfl

/-- **The outline and the visible names agree on the top level.** The variables in the outline of a
text are, one by one and in order, the global variables of its buffer, and the same ones are
foreign. At every cursor they are the visible names of a global kind, and they come last. -/
theorem globals_agree (text : String) :
    ((ofText text).filter (·.kind == .variable)).map
        (fun s => (s.name, s.detail == "FFI Variable")) =
      (globals (Buffer.lines text.toList)).map (fun b => (b.name, b.kind == .globalForeign)) ∧
    ∀ cursor : Position,
      (resolve (Buffer.lines text.toList) cursor).filter (·.kind.isGlobal) =
        globals (Buffer.lines text.toList) ∧
      globals (Buffer.lines text.toList) <:+ resolve (Buffer.lines text.toList) cursor := by
  refine ⟨?_, fun cursor => ⟨filter_isGlobal_resolve _ cursor, List.suffix_append _ _⟩⟩
  have hbinding (head : Variable) :
      ((globalBinding head).name, (globalBinding head).kind == .globalForeign) =
        (head.name, head.isForeign) := by
    cases hforeign : head.isForeign <;> simp [globalBinding, variableBinding, hforeign]
  rw [ofText, symbols, List.filter_filterMap, List.map_filterMap, globals_eq_filterMap,
    List.map_map, List.map_filterMap]
  congr 1
  funext t
  rw [variable_symbol?]
  congr 1
  funext head
  exact (hbinding head).symm

end VeLens.Scope
