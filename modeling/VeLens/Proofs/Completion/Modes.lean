import VeLens.Completion.Context

/-!
# Modes of completion

The text before the cursor decides first: it may call for modules to import, for the keyword
`import` or for a new function. Only if it calls for none of these is the word at the cursor looked
at. A column outside the line is moved to the nearer end of the line when the word is looked for,
but a negative column is counted from the end when the text before the cursor is taken.

## Main definitions

* `cursorLine`, `textBefore`: the line of the cursor, and the text before the cursor on it.
* `keywordMode?`: the mode that a text before the cursor calls for.
* `clampColumn`: the column of a line that is nearest to a given one.

## Main results

* `keywordMode?_of_contextAt`: which mode is chosen.
* `classify_clampColumn`: for which columns completion is the same as at the nearest one.
-/

namespace VeLens.Completion

open Text

/-- The line that the cursor is on, which is empty outside the buffer. -/
def cursorLine (text : List Char) (cursor : Position) : Line :=
  Buffer.lineAt (Buffer.lines text) cursor.line

/-- The text before the cursor on its line, as the host gives it or else as it stands in the
buffer. -/
def textBefore (text : List Char) (cursor : Position) (before? : Option (List Char)) : List Char :=
  before?.getD (upTo cursor.column (cursorLine text cursor))

/-- The mode that the text before the cursor calls for. -/
def keywordMode? (before : List Char) : Option ContextKind :=
  if atImportPath before then some .importPath
  else if atImportKeyword before then some .importKeyword
  else if atFunctionKeyword before then some .functionKeyword
  else none

theorem keywordMode?_nil : keywordMode? [] = none := by decide

/-- No keyword calls for a mode for names. -/
theorem keywordMode?_cases (before : List Char) :
    (atImportPath before = true ∧ keywordMode? before = some .importPath) ∨
      keywordMode? before = some .importKeyword ∨ keywordMode? before = some .functionKeyword ∨
        keywordMode? before = none := by
  rw [keywordMode?]
  by_cases hpath : atImportPath before = true
  · exact .inl ⟨hpath, if_pos hpath⟩
  rw [if_neg hpath]
  by_cases himport : atImportKeyword before = true
  · exact .inr (.inl (if_pos himport))
  rw [if_neg himport]
  by_cases hfunction : atFunctionKeyword before = true
  · exact .inr (.inr (.inl (if_pos hfunction)))
  · exact .inr (.inr (.inr (if_neg hfunction)))

variable {h : Host} {env : Environment} {text : List Char} {cursor : Position}
  {before? : Option (List Char)} {context : Context}

/-! ### The chosen mode -/

/-- The final event does not change the context. -/
theorem outcome_classify :
    (classify h env text cursor before?).outcome =
      (contextAt h env text cursor before?).outcome := by
  rw [classify]
  change (Report.andThen _ _).outcome = _
  cases hcontext : (contextAt h env text cursor before?).outcome with
  | ok context => rw [Report.andThen, hcontext]; rfl
  | error fault => rw [Report.andThen, hcontext]

theorem contextAt_eq : contextAt h env text cursor before? =
    if atImportPath (textBefore text cursor before?) then
      importPathContext h env (textBefore text cursor before?) (cursorLine text cursor) cursor
    else if atImportKeyword (textBefore text cursor before?) then
      pure ⟨.importKeyword, none, [importKeyword]⟩
    else if atFunctionKeyword (textBefore text cursor before?) then
      pure ⟨.functionKeyword, none, [entryPoint]⟩
    else nameContext h env text (Buffer.lines text) (cursorLine text cursor) cursor :=
  rfl

/-- If no keyword calls for another mode, names are offered. -/
theorem contextAt_of_keywordMode?_eq_none
    (hmode : keywordMode? (textBefore text cursor before?) = none) :
    contextAt h env text cursor before? =
      nameContext h env text (Buffer.lines text) (cursorLine text cursor) cursor := by
  rw [contextAt_eq]
  rw [keywordMode?] at hmode
  split at hmode
  · exact absurd hmode (by simp)
  split at hmode
  · exact absurd hmode (by simp)
  split at hmode
  · exact absurd hmode (by simp)
  rw [if_neg ‹_›, if_neg ‹_›, if_neg ‹_›]

theorem importPathContext_eq_ok_iff {before : List Char} {line : Line} :
    (importPathContext h env before line cursor).outcome = .ok context ↔
      ∃ modules, (availableModules h env).outcome = .ok modules ∧
        context =
          if isInsideQuotes before then
            ⟨.importPath, some (String.ofList (afterLast '"' before)),
              importLines modules (afterLast '"' before)
                ⟨⟨cursor.line, 0⟩, ⟨cursor.line, line.length⟩⟩⟩
          else ⟨.importPath, none, quotedModules modules⟩ := by
  rw [importPathContext, Report.outcome_bind_eq_ok_iff]
  refine exists_congr fun modules => and_congr_right fun _ => ?_
  split
  · rw [Report.outcome_pure, Except.ok.injEq, eq_comm]
  · rw [Report.outcome_pure, Except.ok.injEq, eq_comm]

theorem kind_of_importPathContext {before : List Char} {line : Line}
    (hok : (importPathContext h env before line cursor).outcome = .ok context) :
    context.kind = .importPath := by
  obtain ⟨modules, -, rfl⟩ := importPathContext_eq_ok_iff.mp hok
  split <;> rfl

theorem kind_of_nameContext {lines : List Line} {line : Line}
    (hok : (nameContext h env text lines line cursor).outcome = .ok context) :
    context.kind = .identifierStart ∨ context.kind = .emptyContext := by
  rw [nameContext, Report.outcome_bind_eq_ok_iff] at hok
  obtain ⟨signatures, -, hok⟩ := hok
  rw [Report.outcome_bind_eq_ok_iff] at hok
  obtain ⟨-, -, hok⟩ := hok
  rw [Report.outcome_pure, Except.ok.injEq] at hok
  rw [← hok]
  dsimp only
  split
  · exact .inl rfl
  · exact .inr rfl

/-- **The chosen mode.** A mode that the text before the cursor calls for is the one that is chosen.
If it calls for none, the mode is one of those for names. -/
theorem keywordMode?_of_contextAt
    (hok : (contextAt h env text cursor before?).outcome = .ok context) :
    keywordMode? (textBefore text cursor before?) = some context.kind ∨
      keywordMode? (textBefore text cursor before?) = none ∧
        (context.kind = .identifierStart ∨ context.kind = .emptyContext) := by
  rw [contextAt_eq] at hok
  rw [keywordMode?]
  split at hok
  · next hpath =>
    rw [if_pos hpath, kind_of_importPathContext hok]
    exact .inl rfl
  · next hpath =>
    rw [if_neg hpath]
    split at hok
    · next himport =>
      rw [if_pos himport, ← Except.ok.inj hok]
      exact .inl rfl
    · next himport =>
      rw [if_neg himport]
      split at hok
      · next hfunction =>
        rw [if_pos hfunction, ← Except.ok.inj hok]
        exact .inl rfl
      · next hfunction =>
        rw [if_neg hfunction]
        exact .inr ⟨rfl, kind_of_nameContext hok⟩

/-- Modules are offered only where the text before the cursor calls for them. -/
theorem importPathContext_of_kind
    (hok : (contextAt h env text cursor before?).outcome = .ok context)
    (hkind : context.kind = .importPath) :
    atImportPath (textBefore text cursor before?) = true ∧
      (importPathContext h env (textBefore text cursor before?) (cursorLine text cursor)
        cursor).outcome = .ok context := by
  have hmode := keywordMode?_of_contextAt hok
  rw [hkind] at hmode
  obtain ⟨hpath, -⟩ | hother | hother | hother :=
    keywordMode?_cases (textBefore text cursor before?)
  · rw [contextAt_eq, if_pos hpath] at hok
    exact ⟨hpath, hok⟩
  all_goals
    rw [hother] at hmode
    exact absurd hmode (by simp)

/-- A context for names was called for by no keyword. -/
theorem keywordMode?_eq_none_of_kind
    (hok : (contextAt h env text cursor before?).outcome = .ok context)
    (hkind : context.kind = .identifierStart ∨ context.kind = .emptyContext) :
    keywordMode? (textBefore text cursor before?) = none := by
  obtain hmode | ⟨hmode, -⟩ := keywordMode?_of_contextAt hok
  · obtain ⟨-, hother⟩ | hother | hother | hother :=
      keywordMode?_cases (textBefore text cursor before?)
    · rw [hmode, Option.some_inj] at hother
      simp [hother] at hkind
    · rw [hmode, Option.some_inj] at hother
      simp [hother] at hkind
    · rw [hmode, Option.some_inj] at hother
      simp [hother] at hkind
    · exact hother
  · exact hmode

/-! ### Columns outside the line -/

/-- The column of the line that is nearest to `column`. -/
def clampColumn (line : Line) (column : Int) : Int := min (max column 0) line.length

section Column

variable {line : Line} {column : Int}

theorem upTo_clampColumn (hcolumn : 0 ≤ column) :
    upTo (clampColumn line column) line = upTo column line := by
  have hclamp : 0 ≤ clampColumn line column := by
    rw [clampColumn]
    omega
  rw [upTo, upTo, if_pos hclamp, if_pos hcolumn]
  by_cases hle : column ≤ line.length
  · have hsame : clampColumn line column = column := by
      rw [clampColumn]
      omega
    rw [hsame]
  · have hend : clampColumn line column = line.length := by
      rw [clampColumn]
      omega
    rw [hend, Int.toNat_natCast, List.take_length, List.take_of_length_le (by omega)]

theorem upTo_clampColumn_of_neg (hcolumn : column < 0) :
    upTo (clampColumn line column) line = [] := by
  have hclamp : clampColumn line column = 0 := by
    rw [clampColumn]
    omega
  rw [hclamp]
  rfl

/-- The word at a column outside the line is the one at its nearest column. -/
theorem wordAt_clampColumn : wordAt line (clampColumn line column) = wordAt line column := by
  have hsame : min (clampColumn line column).toNat line.length = min column.toNat line.length := by
    rw [clampColumn]
    omega
  rw [wordAt, wordAt, hsame]

/-- Of the column only the word there matters for names. -/
theorem nameContext_clampColumn {lines : List Line} (n : Int) :
    nameContext h env text lines line ⟨n, clampColumn line column⟩ =
      nameContext h env text lines line ⟨n, column⟩ := by
  rw [nameContext, nameContext]
  dsimp only
  rw [wordAt_clampColumn]
  rfl

end Column

/-- The text before a column that is not negative stops at the end of the line by itself. -/
theorem contextAt_clampColumn {n column : Int} (hcolumn : 0 ≤ column) :
    contextAt h env text ⟨n, clampColumn (cursorLine text ⟨n, column⟩) column⟩ none =
      contextAt h env text ⟨n, column⟩ none := by
  have hline : cursorLine text ⟨n, clampColumn (cursorLine text ⟨n, column⟩) column⟩ =
      cursorLine text ⟨n, column⟩ := rfl
  have hbefore : textBefore text ⟨n, clampColumn (cursorLine text ⟨n, column⟩) column⟩ none =
      textBefore text ⟨n, column⟩ none := upTo_clampColumn hcolumn
  rw [contextAt_eq, contextAt_eq, hbefore, hline, nameContext_clampColumn]
  rfl

/-- Before the first column no keyword calls for anything, so names are offered there. -/
theorem contextAt_clampColumn_of_neg {n column : Int} (hcolumn : column < 0) :
    contextAt h env text ⟨n, clampColumn (cursorLine text ⟨n, column⟩) column⟩ none =
      nameContext h env text (Buffer.lines text) (cursorLine text ⟨n, column⟩) ⟨n, column⟩ := by
  have hbefore : textBefore text ⟨n, clampColumn (cursorLine text ⟨n, column⟩) column⟩ none = [] :=
    upTo_clampColumn_of_neg hcolumn
  rw [contextAt_of_keywordMode?_eq_none (by rw [hbefore, keywordMode?_nil])]
  exact nameContext_clampColumn n

/-- **Columns outside the line.** Completion at a column is the same as at the nearest column of the
line, events included, unless the column is negative and the text that is left when as many
characters are taken from the end of the line calls for a mode of its own. In that case the two
contexts are never of the same kind. -/
theorem classify_clampColumn (h : Host) (env : Environment) (text : List Char) (n column : Int) :
    let line := cursorLine text ⟨n, column⟩
    let nearest := clampColumn line column
    (0 ≤ column ∨ keywordMode? (upTo column line) = none →
      classify h env text ⟨n, column⟩ none = classify h env text ⟨n, nearest⟩ none) ∧
    ∀ context context' : Context,
      (classify h env text ⟨n, column⟩ none).outcome = .ok context →
      (classify h env text ⟨n, nearest⟩ none).outcome = .ok context' →
      (context = context' ↔ 0 ≤ column ∨ keywordMode? (upTo column line) = none) ∧
      (context ≠ context' → context.kind ≠ context'.kind) := by
  intro line nearest
  have hsame : 0 ≤ column ∨ keywordMode? (upTo column line) = none →
      classify h env text ⟨n, column⟩ none = classify h env text ⟨n, nearest⟩ none := by
    intro hinside
    rw [classify, classify]
    congr 1
    by_cases hcolumn : 0 ≤ column
    · exact (contextAt_clampColumn hcolumn).symm
    · rw [contextAt_clampColumn_of_neg (by omega)]
      exact contextAt_of_keywordMode?_eq_none (hinside.resolve_left hcolumn)
  have hkinds : ∀ context context' : Context,
      (classify h env text ⟨n, column⟩ none).outcome = .ok context →
      (classify h env text ⟨n, nearest⟩ none).outcome = .ok context' →
      context.kind = context'.kind → 0 ≤ column ∨ keywordMode? (upTo column line) = none := by
    intro context context' hok hok' hkind
    by_cases hcolumn : 0 ≤ column
    · exact .inl hcolumn
    · -- At the nearest column names are offered, so no keyword calls for the same kind of context.
      rw [outcome_classify, contextAt_clampColumn_of_neg (by omega)] at hok'
      rw [outcome_classify] at hok
      have hnames := kind_of_nameContext hok'
      rw [← hkind] at hnames
      exact .inr (keywordMode?_eq_none_of_kind hok hnames)
  refine ⟨hsame, fun context context' hok hok' => ?_⟩
  have hequal : 0 ≤ column ∨ keywordMode? (upTo column line) = none → context = context' := by
    intro hinside
    rw [hsame hinside, hok', Except.ok.injEq] at hok
    exact hok.symm
  refine ⟨⟨?_, hequal⟩, ?_⟩
  · rintro rfl
    exact hkinds context context hok hok' rfl
  · intro hne hkind
    exact hne (hequal (hkinds context context' hok hok' hkind))

/-- One column before the first one, a letter is taken from the end of `import x`, and then all
modules are offered. At the first column it is the names that go on from `import`. -/
theorem classify_clampColumn_negative :
    let host : Host := ⟨.empty, [], "", []⟩
    let text := "import x".toList
    ((classify host {} text ⟨0, -1⟩ none).outcome.toOption.map fun c => (c.kind, c.typed)) =
      some (.importPath, none) ∧
    clampColumn (cursorLine text ⟨0, -1⟩) (-1) = 0 ∧
    ((classify host {} text ⟨0, 0⟩ none).outcome.toOption.map fun c => (c.kind, c.typed)) =
      some (.identifierStart, some "import") := by
  decide +kernel

end VeLens.Completion
