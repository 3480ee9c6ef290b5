import VeLens.Proofs.Buffer.Access
import VeLens.Proofs.Scope.Locals

/-!
# Questions inside the buffer

The outline and the visible names, found by asking for lines by number. Whatever the text and
wherever the cursor, all lines that are asked for stand in the buffer, every turn of a loop moves on
to a later line, and what is found is the outline and the visible names.

## Main definitions

* `Access.topLevelTurn`: one turn of a pass over the top level.
* `Access.outline`, `Access.globals`, `Access.resolve`: the outline, the variables at the top level
  and the visible names.

## Main results

* `Access.yields_topLevelTurn`, `Access.yields_whileBelow`: a turn and a whole pass.
* `Access.analysis_inside`: all questions are about lines of the buffer.
-/

namespace VeLens.Access

open Declaration Outline Scope Text

variable {α : Type} {lines : List Line} {t : TopLevel}

/-! ### Passes over the top level -/

/-- One turn of a pass over the top level. It goes on below a declaration, or on the next line. -/
def topLevelTurn (lines : List Line) (report : Int → Head → Position → Access (List α)) (k : Int) :
    Access (Int × List α) := do
  let text ← line lines k
  match headOf text with
  | none => return (k + 1, [])
  | some head =>
    let stop ← (if opensBlock head then extentAt lines k else pure ⟨k, text.length⟩)
    let found ← report k head stop
    return (stop.line + 1, found)

/-- The place where a declaration ends. -/
def stopOf (t : TopLevel) : Position := Block.placeBelow t.index (t.lines.length - 1, t.column)

theorem yields_topLevelTurn_of_none {report : Int → Head → Position → Access (List α)} {i : Nat}
    {text : Line} (htext : lines[i]? = some text) (hnone : headOf text = none) :
    Yields lines.length (topLevelTurn lines report i) ((i + 1 : Nat), []) := by
  refine (Yields.line htext).bind ?_
  rw [hnone]
  exact .pure _

theorem yields_topLevelTurn {report : Int → Head → Position → Access (List α)} {found : List α}
    (ht : t.Opens t.index (lines.drop t.index))
    (hreport : Yields lines.length (report t.index t.head (stopOf t)) found) :
    Yields lines.length (topLevelTurn lines report t.index)
      ((t.index + t.lines.length : Nat), found) := by
  have hfirst := ht.getElem?_index
  obtain ⟨hlt, -⟩ := List.getElem?_eq_some_iff.mp hfirst
  have hpos := ht.length_pos
  have hstop : Yields lines.length
      (if opensBlock t.head then extentAt lines t.index else pure ⟨t.index, t.line.length⟩)
      (stopOf t) := by
    cases hopens : opensBlock t.head with
    | true =>
      have hextent := yields_extentAt hlt
      rw [ht.block hopens] at hextent
      exact hextent
    | false =>
      obtain ⟨hsingle, hcolumn⟩ := ht.single hopens
      have hplace : stopOf t = ⟨t.index, t.line.length⟩ := by
        rw [stopOf, hcolumn, hsingle]
        simp [Block.placeBelow]
      rw [hplace]
      exact .pure _
  have hnext : (stopOf t).line + 1 = (t.index + t.lines.length : Nat) := by
    simp only [stopOf, Block.placeBelow]
    omega
  refine (Yields.line hfirst).bind ?_
  rw [ht.headOf_line]
  refine hstop.bind (hreport.bind ?_)
  rw [hnext]
  exact .pure _

/-- A pass over the top level reports every declaration, in the order of the buffer. -/
theorem yields_whileBelow {report : Int → Head → Position → Access (List α)}
    {found : TopLevel → List α} {index : Nat} {rest : List Line} {ts : List TopLevel}
    (hreading : Reading index rest ts) (hrest : lines.drop index = rest)
    (hreport : ∀ t : TopLevel, t.Opens t.index (lines.drop t.index) →
      Yields lines.length (report t.index t.head (stopOf t)) (found t)) :
    Yields lines.length (whileBelow lines.length (topLevelTurn lines report) index)
      (ts.flatMap found) := by
  -- One turn for each step of the pass. The lines that are left are always those from `index` on.
  induction hreading with
  | done index =>
    have hle := List.drop_eq_nil_iff.mp hrest
    exact Yields.whileBelow_of_le (by omega)
  | @skip index text below ts hnone _ ih =>
    obtain ⟨htext, hbelow⟩ := of_drop_eq_cons hrest
    obtain ⟨hlt, -⟩ := List.getElem?_eq_some_iff.mp htext
    have hturn : Yields lines.length (topLevelTurn lines report index) ((index + 1 : Nat), []) :=
      yields_topLevelTurn_of_none htext hnone
    rw [← List.nil_append (ts.flatMap found)]
    exact Yields.whileBelow_of_lt (by omega) (by omega) hturn (ih hbelow)
  | @declare index rest t ts ht _ ih =>
    obtain rfl := ht.index_eq
    subst hrest
    obtain ⟨hlt, -⟩ := List.getElem?_eq_some_iff.mp ht.getElem?_index
    have hpos := ht.length_pos
    rw [List.flatMap_cons]
    exact Yields.whileBelow_of_lt (by omega) (by omega) (yields_topLevelTurn ht (hreport t ht))
      (ih List.drop_drop.symm)

/-! ### The outline -/

/-- The member on a line. Its place is taken from the line once more. -/
def memberAt (lines : List Line) (child? : Line → Nat → Option Item) (k : Int) :
    Access (Option Item) := do
  let text ← line lines k
  if (child? text k.toNat).isSome then
    let again ← line lines k
    return child? again k.toNat
  else return none

/-- The symbol of a declaration with a block. -/
def blockSymbol (lines : List Line) (k : Int) (stop : Position) (kind : ItemKind)
    (name detail : String) (child? : Line → Nat → Option Item) : Access Symbol := do
  let text ← line lines k
  let last ← line lines stop.line
  let children ← each (memberAt lines child?) (upward (k + 1) stop.line)
  return {
    kind := kind
    name := name
    detail := detail
    range :=
      ⟨⟨k, 0⟩, (lineEnd k.toNat text).later ⟨stop.line, min (stop.column + 1) last.length⟩⟩
    selection := selectionOf k.toNat text
    children := children }

/-- The symbol of a declaration, if it has one. -/
def symbolAt (lines : List Line) (k : Int) (head : Head) (stop : Position) :
    Access (List Symbol) :=
  match head with
  | .function head => do
    let symbol ← blockSymbol lines k stop .function head.name
      (if head.name == entryPoint then "Main function" else "Function") localItem?
    return [symbol]
  | .struct name => do
    let symbol ← blockSymbol lines k stop .struct name "Struct" fieldItem?
    return [symbol]
  | .enum name => do
    let symbol ← blockSymbol lines k stop .enum name "Enum" variantItem?
    return [symbol]
  | .variable head => do
    let text ← line lines k
    return [⟨lineItem k.toNat text .variable head.name
      (if head.isForeign then "FFI Variable" else "Variable"), []⟩]
  | .loop _ | .importing _ => pure []

/-- The outline of a buffer. -/
def outline (lines : List Line) : Access (List Symbol) :=
  whileBelow lines.length (topLevelTurn lines (symbolAt lines)) 0

theorem yields_memberAt {child? : Line → Nat → Option Item} {i : Nat} {text : Line}
    (htext : lines[i]? = some text) :
    Yields lines.length (memberAt lines child? i) (child? text i) := by
  refine (Yields.line htext).bind ?_
  rw [Int.toNat_natCast]
  by_cases hchild : (child? text i).isSome = true
  · rw [if_pos hchild]
    exact (Yields.line htext).bind (.pure _)
  · rw [if_neg hchild, Option.not_isSome_iff_eq_none.mp hchild]
    exact .pure none

theorem yields_blockSymbol (ht : t.Opens t.index (lines.drop t.index)) (kind : ItemKind)
    (name detail : String) (child? : Line → Nat → Option Item) :
    Yields lines.length (blockSymbol lines t.index (stopOf t) kind name detail child?)
      (t.blockSymbol kind name detail child?) := by
  have hpos := ht.length_pos
  have hlast : (stopOf t).line = t.lastIndex := by
    simp only [stopOf, Block.placeBelow, TopLevel.lastIndex]
    omega
  have hbody : t.lines.tail.dropLast <+: lines.drop (t.index + 1) := by
    rw [inside_lines ht]
    exact List.take_prefix _ _
  have hcount : ((stopOf t).line - (t.index + 1 : Nat)).toNat = t.lines.tail.dropLast.length := by
    rw [hlast, TopLevel.lastIndex, List.length_dropLast, List.length_tail]
    omega
  have hchildren : Yields lines.length
      (each (memberAt lines child?) (upward (t.index + 1 : Nat) (stopOf t).line))
      ((t.lines.tail.dropLast.zipIdx (t.index + 1)).filterMap fun p => child? p.1 p.2) :=
    Yields.each hbody hcount yields_memberAt
  refine (Yields.line ht.getElem?_index).bind ?_
  rw [hlast] at hchildren ⊢
  refine (Yields.line ht.getElem?_lastIndex).bind (hchildren.bind ?_)
  have hend : t.blockEnd = (lineEnd t.index t.line).later
      ⟨t.lastIndex, min ((stopOf t).column + 1) t.lastLine.length⟩ := by
    simp [TopLevel.blockEnd, stopOf, Block.placeBelow]
  rw [TopLevel.blockSymbol, TopLevel.inside, hend]
  exact .pure _

theorem yields_symbolAt (ht : t.Opens t.index (lines.drop t.index)) :
    Yields lines.length (symbolAt lines t.index t.head (stopOf t)) t.symbol?.toList := by
  rw [TopLevel.symbol?]
  cases t.head with
  | function head => exact (yields_blockSymbol ht ..).bind (.pure _)
  | struct name => exact (yields_blockSymbol ht ..).bind (.pure _)
  | «enum» name => exact (yields_blockSymbol ht ..).bind (.pure _)
  | «variable» head => exact (Yields.line ht.getElem?_index).bind (.pure _)
  | loop name => exact .pure []
  | importing path => exact .pure []

theorem yields_outline (lines : List Line) :
    Yields lines.length (outline lines) (Outline.symbols lines) := by
  rw [Outline.symbols, List.filterMap_eq_flatMap_toList]
  exact yields_whileBelow (reading_topLevelFrom 0 lines) rfl fun t ht => yields_symbolAt ht

/-! ### Visible names -/

/-- The variables at the top level of a buffer. -/
def globals (lines : List Line) : Access (List Binding) :=
  whileBelow lines.length (topLevelTurn lines fun _ head _ =>
    match head with
    | .variable head => pure [globalBinding head]
    | _ => pure []) 0

/-- The function head on a line. -/
def functionAt (lines : List Line) (k : Int) : Access (Option (Int × Function)) := do
  let text ← line lines k
  return (functionHead? (trim text)).map (k, ·)

/-- The name that a line of a body makes visible. -/
def bodyNameAt (lines : List Line) (k : Int) : Access (Option Binding) := do
  let text ← line lines k
  return bodyBinding? text

/-- The names that the enclosing function makes visible on a line. -/
def functionNames (lines : List Line) (k : Int) : Access (List Binding) := do
  match ← first (functionAt lines) (downward k) with
  | none => return []
  | some (index, head) =>
    let stop ← extentAt lines index
    let names ← each (bodyNameAt lines) (upward (index + 1) (min k stop.line))
    return parameters head ++ names

/-- The names visible on the cursor's line. -/
def resolve (lines : List Line) (cursor : Position) : Access (List Binding) := do
  let names ← functionNames lines (min (max cursor.line 0) (lines.length - 1))
  let more ← globals lines
  return names ++ more

theorem yields_globals (lines : List Line) :
    Yields lines.length (globals lines) (Scope.globals lines) := by
  have hnames : Scope.globals lines =
      (topLevel lines).flatMap fun t => ((variableOf? t).map globalBinding).toList := by
    rw [globals_eq_filterMap, List.map_filterMap, List.filterMap_eq_flatMap_toList]
  rw [hnames]
  refine yields_whileBelow (reading_topLevelFrom 0 lines) rfl fun t _ => ?_
  rw [variableOf?]
  cases t.head with
  | «variable» head => exact .pure _
  | function _ | struct _ | «enum» _ | loop _ | importing _ => exact .pure _

theorem yields_functionAt {n : Nat} (hn : n < lines.length) :
    Yields lines.length (functionAt lines n) ((functionOn? lines n).map ((n : Int), ·)) := by
  have htext := List.getElem?_eq_getElem hn
  rw [functionOn?, htext]
  exact (Yields.line htext).bind (.pure _)

/-- Going up from a line of the buffer, the enclosing function is found. -/
theorem yields_enclosing {n : Nat} (hn : n < lines.length) :
    Yields lines.length (first (functionAt lines) (downward n))
      ((enclosing? lines n).map fun p => ((p.1 : Int), p.2)) := by
  have hnumber (m : Nat) : ((functionOn? lines m).map (m, ·)).map
      (fun p => ((p.1 : Int), p.2)) = (functionOn? lines m).map ((m : Int), ·) := by
    rw [Option.map_map]
    rfl
  induction n with
  | zero =>
    have hfound : Yields lines.length (first (functionAt lines) (downward (0 : Nat)))
        (((functionOn? lines 0).map (((0 : Nat) : Int), ·)).or none) :=
      Yields.first_cons (yields_functionAt hn) (.pure none)
    rw [Option.or_none] at hfound
    rwa [enclosing?_zero, hnumber]
  | succ n ih =>
    rw [enclosing?_succ, Option.map_or, hnumber, downward_succ]
    exact Yields.first_cons (yields_functionAt hn) (ih (by omega))

theorem yields_functionNames {n : Nat} (hn : n < lines.length) :
    Yields lines.length (functionNames lines n) (functionBindings lines n) := by
  refine (yields_enclosing hn).bind ?_
  rw [functionBindings]
  cases henclosing : enclosing? lines n with
  | none => exact .pure []
  | some p =>
    obtain ⟨i, head⟩ := p
    have hi : i < lines.length := by
      have hle := (enclosing?_eq_some_iff.mp henclosing).1
      omega
    refine (yields_extentAt hi).bind ?_
    -- Lines are counted up to `stop`, which may stand above the first line of the body.
    let stop := min (n : Int) (Block.placeBelow i (Block.extent (lines.drop i))).line
    let body := (lines.drop (i + 1)).take (min n (blockEndLine lines i) - (i + 1))
    have hcount : (stop - (i + 1 : Nat)).toNat = body.length := by
      simp only [stop, body, Block.placeBelow, blockEndLine, List.length_take, List.length_drop]
      omega
    have hbody : Yields lines.length (each (bodyNameAt lines) (upward (i + 1 : Nat) stop))
        ((body.zipIdx (i + 1)).filterMap (bodyBinding? ∘ Prod.fst)) :=
      Yields.each (f := fun text _ => bodyBinding? text) (List.take_prefix _ _) hcount
        fun htext => (Yields.line htext).bind (.pure _)
    rw [← List.filterMap_map, List.zipIdx_map_fst] at hbody
    exact hbody.bind (.pure _)

theorem yields_resolve (hne : lines ≠ []) (cursor : Position) :
    Yields lines.length (resolve lines cursor) (Scope.resolve lines cursor) := by
  have hpos := List.length_pos_iff.mpr hne
  have hclamp : min (max cursor.line 0) ((lines.length : Int) - 1) =
      clampLine lines cursor.line := by
    rw [clampLine]
    omega
  have hnames : Yields lines.length
      (functionNames lines (min (max cursor.line 0) (lines.length - 1)))
      (functionBindings lines (clampLine lines cursor.line)) := by
    rw [hclamp]
    refine yields_functionNames ?_
    rw [clampLine]
    omega
  exact hnames.bind ((yields_globals lines).bind (.pure _))

/-- **All questions are about lines of the buffer.** For every text and every cursor the outline,
the variables at the top level and the visible names are found by asking for lines of the buffer
only, counted from the top, with loops that move on in each turn. A block whose head is on a line of
the buffer ends on a line of the buffer, on the same line or below. -/
theorem analysis_inside (text : List Char) (cursor : Position) :
    let lines := Buffer.lines text
    Yields lines.length (outline lines) (Outline.symbols lines) ∧
      Yields lines.length (globals lines) (Scope.globals lines) ∧
      Yields lines.length (resolve lines cursor) (Scope.resolve lines cursor) ∧
      ∀ i : Int, 0 ≤ i → i < lines.length → ∃ stop,
        Block.extentAt lines i = some stop ∧ Yields lines.length (extentAt lines i) stop ∧
          i ≤ stop.line ∧ stop.line < lines.length := by
  intro lines
  refine ⟨yields_outline lines, yields_globals lines,
    yields_resolve (Buffer.lines_ne_nil text) cursor, fun i hi hlt => ?_⟩
  obtain ⟨n, rfl⟩ := Int.eq_ofNat_of_zero_le hi
  have hn : n < lines.length := by omega
  have hdown : (Block.extent (lines.drop n)).1 < (lines.drop n).length := by
    refine Block.extent_fst_lt ?_
    rw [ne_eq, List.drop_eq_nil_iff]
    omega
  rw [List.length_drop] at hdown
  refine ⟨_, Block.extentAt_eq hn, yields_extentAt hn, ?_, ?_⟩
  · simp only [Block.placeBelow]
    omega
  · simp only [Block.placeBelow]
    omega

/-- Braces out of balance, a block that never closes, and a cursor far outside. -/
theorem analysis_inside_unbalanced :
    let text := "\x7d\nfn f(a: T) \x7b \x7d \x7d\n  let x;\nstruct S \x7b \x7b\n".toList
    let lines := Buffer.lines text
    let far : Position := ⟨-7, 99⟩
    Yields 5 (resolve lines far) (Scope.resolve lines far) ∧
      (Scope.resolve lines far).map (·.name) = ["x"] ∧
      ∃ stop, Block.extentAt lines 3 = some stop ∧ 3 ≤ stop.line ∧ stop.line < 5 := by
  intro text lines far
  obtain ⟨-, -, hresolve, hextent⟩ := analysis_inside text far
  obtain ⟨stop, hstop, -, hle, hlt⟩ := hextent 3 (by decide) (by decide +kernel)
  exact ⟨hresolve, by decide +kernel, stop, hstop, hle, hlt⟩

end VeLens.Access
