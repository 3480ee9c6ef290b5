import VeLens.Proofs.Outline.EntryLines
import VeLens.Proofs.Outline.Symbols

/-!
# Outlines of printed texts

The outline of a printed text has one symbol for each declaration that was printed, in order, at
the place where it was printed and with its members.

## Main results

* `printedBlock_opens`: a printed block takes up exactly the lines on which it was printed.
* `Entry.symbolsFrom_append`: an entry is read again, whatever is printed below it.
* `ofText_print`: the outline of a printed text is what it should be.
-/

namespace VeLens.Outline

open Declaration Text

/-! ### Printed blocks -/

/-- The declaration with a block that is printed from line `i` on. -/
def printedBlock (i : Nat) (head : Head) (line : Line) (body : List Line) : TopLevel :=
  ⟨i, head, blockLines line body, 0⟩

section Block

variable {head : Head} {line : Line} {body : List Line}

/-- A printed block takes up exactly the lines on which it was printed. -/
theorem printedBlock_opens (hhead : headOf line = some head) (hopens : opensBlock head = true)
    (hclose : '}' ∉ line) (hturns : Block.turns line = 1) (hbody : Block.Balanced body)
    (i : Nat) (below : List Line) :
    (printedBlock i head line body).Opens i (blockLines line body ++ below) := by
  refine ⟨rfl, List.prefix_append _ _, List.cons_ne_nil _ _, hhead, fun _ => ?_, ?_⟩
  · have hclosed := Block.close?_balanced hclose hturns hbody below
    have hlines : blockLines line body ++ below = line :: body ++ ['}'] :: below := by
      simp [blockLines]
    rw [hlines, Block.extent_of_close? hclosed]
    simp [printedBlock, blockLines]
  · simp [printedBlock, hopens]

theorem blockEnd_printedBlock (i : Nat) (head : Head) (line : Line) (body : List Line) :
    (printedBlock i head line body).blockEnd = ⟨i + body.length + 1, 1⟩ := by
  have hlast : (printedBlock i head line body).lastIndex = i + body.length + 1 := by
    simp [printedBlock, TopLevel.lastIndex, blockLines, Nat.add_assoc]
  have hline : (printedBlock i head line body).lastLine = ['}'] := by
    rw [TopLevel.lastLine, List.getLastD_eq_getLast?, printedBlock, blockLines, ← List.cons_append,
      List.getLast?_concat, Option.getD_some]
  have hle : (lineEnd i (printedBlock i head line body).line).le ⟨i + body.length + 1, 1⟩ = true :=
    Position.le_iff.mpr (.inl (by change (i : Int) < i + body.length + 1; omega))
  have hplace : (⟨((i + body.length + 1 : Nat) : Int),
      min (((printedBlock i head line body).column : Int) + 1) (['}'] : Line).length⟩ : Position) =
      ⟨i + body.length + 1, 1⟩ := by
    simp [printedBlock]
  rw [TopLevel.blockEnd, hlast, hline, hplace]
  exact if_pos hle

theorem inside_printedBlock (i : Nat) (head : Head) (line : Line) (body : List Line) :
    (printedBlock i head line body).inside = body.zipIdx (i + 1) := by
  simp [printedBlock, TopLevel.inside, blockLines]

/-- The symbol of a printed block ends just after its closing brace. -/
theorem blockSymbol_printedBlock (htrim : trim line = line) (i : Nat) (kind : ItemKind)
    (name : Name) (detail : String) (child? : Line → Nat → Option Item) :
    (printedBlock i head line body).blockSymbol kind (String.ofList name.text) detail child? =
      wholeBlock i line body.length kind name detail
        ((body.zipIdx (i + 1)).filterMap fun p => child? p.1 p.2) := by
  rw [TopLevel.blockSymbol, blockEnd_printedBlock, inside_printedBlock, wholeBlock,
    ← selectionOf_of_trim htrim]
  rfl

end Block

/-- The outline of lines of which the first has the number `i`. -/
def symbolsFrom (i : Nat) (lines : List Line) : List Symbol :=
  (topLevelFrom i lines).filterMap TopLevel.symbol?

theorem symbolsFrom_of_opens {t : TopLevel} {i : Nat} {lines : List Line} (h : t.Opens i lines) :
    symbolsFrom i lines =
      t.symbol?.toList ++ symbolsFrom (i + t.lines.length) (lines.drop t.lines.length) := by
  rw [symbolsFrom, h.topLevelFrom_eq, List.filterMap_cons]
  cases t.symbol? <;> rfl

theorem symbolsFrom_single {line : Line} {head : Head} (h : headOf line = some head)
    (hopens : opensBlock head = false) (i : Nat) (below : List Line) :
    symbolsFrom i (line :: below) =
      (⟨i, head, [line], line.length⟩ : TopLevel).symbol?.toList ++ symbolsFrom (i + 1) below :=
  symbolsFrom_of_opens (opens_single h hopens i below)

theorem symbolsFrom_block {line : Line} {head : Head} {body : List Line}
    (hhead : headOf line = some head) (hopens : opensBlock head = true)
    (hclose : '}' ∉ line) (hturns : Block.turns line = 1) (hbody : Block.Balanced body)
    (i : Nat) (below : List Line) :
    symbolsFrom i (blockLines line body ++ below) =
      (printedBlock i head line body).symbol?.toList ++
        symbolsFrom (i + (blockLines line body).length) below := by
  rw [symbolsFrom_of_opens (printedBlock_opens hhead hopens hclose hturns hbody i below)]
  congr 2
  exact List.drop_left

/-- If every line of a block is printed from something and has a member, the block has one member
for each of them. -/
theorem filterMap_zipIdx_map {α : Type} {printed : α → Line} {child? : Line → Nat → Option Item}
    {member : α → Nat → Item} (h : ∀ a k, child? (printed a) k = some (member a k)) (xs : List α)
    (i : Nat) : ((xs.map printed).zipIdx i).filterMap (fun p => child? p.1 p.2) =
      (xs.zipIdx i).map fun p => member p.1 p.2 := by
  rw [List.zipIdx_map, List.filterMap_map, ← List.filterMap_eq_map]
  congr 1
  funext p
  exact h p.1 p.2

theorem symbol?_structBlock (i : Nat) (name : Name) (fields : List (Name × Name)) :
    (printedBlock i (.struct (String.ofList name.text)) (bracedLine structWord name)
      (fields.map fieldLine)).symbol? = (Entry.struct name fields).symbol? i := by
  refine congrArg some ?_
  rw [blockSymbol_printedBlock (trim_structLine name),
    filterMap_zipIdx_map fieldItem?_fieldLine, List.length_map]

theorem symbol?_enumBlock (i : Nat) (name : Name) (variants : List CapitalName) :
    (printedBlock i (.enum (String.ofList name.text)) (bracedLine enumWord name)
      (variants.map (·.text))).symbol? = (Entry.enum name variants).symbol? i := by
  refine congrArg some ?_
  rw [blockSymbol_printedBlock (trim_enumLine name),
    filterMap_zipIdx_map variantItem?_variant, List.length_map]

/-- The symbol of a printed function has the variables with a written type as members. -/
theorem symbol?_functionBlock (i : Nat) (isExported : Bool) (name : Name)
    (parameters : ParameterText) (body : Body) :
    (printedBlock i (.function ⟨String.ofList name.text, String.ofList (trim parameters.text),
      isExported⟩) (functionLine isExported name parameters) body.lines).symbol? =
      (Entry.function isExported name parameters body).symbol? i := by
  refine congrArg some ?_
  rw [blockSymbol_printedBlock (trim_functionLine isExported name parameters),
    localItem?_eq_typedVariable?]
  simp [entryPoint]

/-! ### The outline of a printed text -/

/-- A line that declares nothing is passed over. -/
theorem symbolsFrom_filler (plain : Filler) (i : Nat) (below : List Line) :
    symbolsFrom i (plain.line :: below) = symbolsFrom (i + 1) below := by
  have hfiller := plain.isFiller
  rw [isFiller] at hfiller
  cases hhead : headOf plain.line with
  | none => rw [symbolsFrom, topLevelFrom_cons_of_none hhead, symbolsFrom]
  | some head =>
    rw [hhead] at hfiller
    cases head with
    | loop name | importing path => exact symbolsFrom_single hhead rfl i below
    | function head | struct name | enum name | «variable» head => exact Bool.noConfusion hfiller

/-- An entry is read from the lines on which it was printed, whatever follows them. -/
theorem Entry.symbolsFrom_append (e : Entry) (i : Nat) (below : List Line) :
    symbolsFrom i (e.lines ++ below) =
      (e.symbol? i).toList ++ symbolsFrom (i + e.lines.length) below := by
  cases e with
  | «variable» isForeign name type value =>
    rw [lines, List.singleton_append,
      symbolsFrom_single (headOf_variableLine isForeign name type value) rfl, symbol?,
      ← lineItem_of_trim (trim_variableLine isForeign name type value)]
    rfl
  | struct name fields =>
    obtain ⟨hclose, hturns⟩ := bracedLine_braces structWord (by decide) (by decide) name
    rw [lines, symbolsFrom_block (headOf_structLine name) rfl hclose hturns
      (fieldLines_balanced fields), symbol?_structBlock]
  | enum name variants =>
    obtain ⟨hclose, hturns⟩ := bracedLine_braces enumWord (by decide) (by decide) name
    rw [lines, symbolsFrom_block (headOf_enumLine name) rfl hclose hturns
      (variantLines_balanced variants), symbol?_enumBlock]
  | function isExported name parameters body =>
    -- Heads in the body are not read: the declaration takes up all lines of the body.
    obtain ⟨hclose, hturns⟩ := functionLine_braces isExported name parameters
    rw [lines, symbolsFrom_block (headOf_functionLine isExported name parameters) rfl hclose hturns
      body.balanced, symbol?_functionBlock]
  | filler plain => exact symbolsFrom_filler plain i below

theorem symbolsFrom_flatMap (entries : List Entry) (i : Nat) :
    symbolsFrom i (entries.flatMap Entry.lines) = symbolsOf i entries := by
  induction entries generalizing i with
  | nil => rw [List.flatMap_nil, symbolsFrom, topLevelFrom_nil]; rfl
  | cons e es ih => rw [List.flatMap_cons, e.symbolsFrom_append, ih, symbolsOf]

theorem Entry.lines_ne_nil (e : Entry) : e.lines ≠ [] := by
  cases e <;> exact List.cons_ne_nil _ _

theorem lines_print {entries : List Entry} (hne : entries ≠ []) (h : '\r' ∉ print entries) :
    Buffer.lines (print entries) = entries.flatMap Entry.lines := by
  refine Buffer.lines_joined ?_ ?_ ?_
  · obtain ⟨e, es, rfl⟩ := List.exists_cons_of_ne_nil hne
    simp [e.lines_ne_nil]
  · intro line hline
    obtain ⟨e, -, hline⟩ := List.mem_flatMap.mp hline
    exact e.oneLine line hline
  · exact fun line hline hreturn => h (mem_joined hline hreturn)

/-- **The outline finds what was printed.** For every list of entries whose text holds no carriage
return, the outline of the text has exactly the symbols of the entries, in order. -/
theorem ofText_print (entries : List Entry) (h : '\r' ∉ print entries) :
    ofText (String.ofList (print entries)) = symbolsOf 0 entries := by
  rw [ofText, String.toList_ofList]
  by_cases hne : entries = []
  · -- The empty text has one line, which declares nothing.
    subst hne
    cbv
  · rw [lines_print hne h]
    exact symbolsFrom_flatMap entries 0

/-- The head of a loop, a function with a function in its body, a struct, an enum and a variable. -/
def mixedEntries : List Entry :=
  [.filler ⟨"for i in xs \x7b".toList, by decide, by decide +kernel⟩,
    .function true ⟨"main".toList, by decide⟩ ⟨"a: T".toList, by decide, by decide, by decide⟩
      ⟨["  fn g(x) \x7b".toList, "    let b: i32 = 1;".toList, "  \x7d let".toList,
        "  let c = 2;".toList], by decide, by decide +kernel⟩,
    .struct ⟨"P".toList, by decide⟩ [(⟨"x".toList, by decide⟩, ⟨"i32".toList, by decide⟩)],
    .enum ⟨"E".toList, by decide⟩
      [⟨⟨"Red".toList, by decide⟩, 'R', "ed".toList, by decide, by decide⟩],
    .variable false ⟨"y".toList, by decide⟩ none
      (some ⟨"f(1); g".toList, by decide, by decide, by decide⟩)]

theorem ofText_print_mixedEntries :
    '\r' ∉ print mixedEntries ∧ ofText (String.ofList (print mixedEntries)) =
      [⟨⟨.function, "main", "Main function", ⟨⟨1, 0⟩, ⟨6, 1⟩⟩, ⟨⟨1, 0⟩, ⟨1, 22⟩⟩⟩,
        [⟨.variable, "b", "Local variable", ⟨⟨3, 0⟩, ⟨3, 19⟩⟩, ⟨⟨3, 4⟩, ⟨3, 19⟩⟩⟩]⟩,
      ⟨⟨.struct, "P", "Struct", ⟨⟨7, 0⟩, ⟨9, 1⟩⟩, ⟨⟨7, 0⟩, ⟨7, 10⟩⟩⟩,
        [⟨.field, "x", "Field (i32)", ⟨⟨8, 0⟩, ⟨8, 6⟩⟩, ⟨⟨8, 0⟩, ⟨8, 6⟩⟩⟩]⟩,
      ⟨⟨.enum, "E", "Enum", ⟨⟨10, 0⟩, ⟨12, 1⟩⟩, ⟨⟨10, 0⟩, ⟨10, 8⟩⟩⟩,
        [⟨.enumVariant, "Red", "Enum variant", ⟨⟨11, 0⟩, ⟨11, 3⟩⟩, ⟨⟨11, 0⟩, ⟨11, 3⟩⟩⟩]⟩,
      ⟨⟨.variable, "y", "Variable", ⟨⟨13, 0⟩, ⟨13, 16⟩⟩, ⟨⟨13, 0⟩, ⟨13, 16⟩⟩⟩, []⟩] :=
  have hreturn : '\r' ∉ print mixedEntries := by decide +kernel
  ⟨hreturn, (ofText_print mixedEntries hreturn).trans (by decide +kernel)⟩

end VeLens.Outline
