import VeLens.Proofs.Buffer.Replacement
import VeLens.Proofs.Completion.Modes
import VeLens.Proofs.Declaration.Imports

/-!
# Completion of import paths

Where a path is being typed, each candidate writes the line of the cursor anew, and the line that it
writes is read as an import of the module that was chosen. Everywhere else at an import the modules
are offered between quotation marks. A path counts as being typed if there is a quotation mark
before the cursor that is not the last character there, which is not always the same as an open
quotation.

## Main definitions

* `opensQuote`: a text with an odd number of quotation marks.
* `wholeLine`: the line of the cursor, as a range.

## Main results

* `importPath_cases`: what is offered at an import.
* `importPath_typed_iff_opensQuote`: when a path counts as being typed and when it should.
* `imports_accept_importPath`: what a buffer imports after a candidate was accepted.
-/

namespace VeLens.Completion

open Text

/-- The text holds a quotation mark that is not closed. -/
def opensQuote (s : List Char) : Bool := s.count '"' % 2 == 1

/-- The whole line of the cursor. -/
def wholeLine (text : List Char) (cursor : Position) : Range :=
  ⟨⟨cursor.line, 0⟩, ⟨cursor.line, (cursorLine text cursor).length⟩⟩

theorem isInsideQuotes_iff {before : List Char} :
    isInsideQuotes before = true ↔ '"' ∈ before ∧ before.getLast? ≠ some '"' := by
  rw [isInsideQuotes, Bool.and_eq_true, List.contains_iff_mem, decide_eq_true_eq]

/-- The path that is being typed is not empty. -/
theorem afterLast_ne_nil {before : List Char} (h : isInsideQuotes before = true) :
    afterLast '"' before ≠ [] := by
  obtain ⟨hmem, hlast⟩ := isInsideQuotes_iff.mp h
  cases before using List.reverseRecOn with
  | nil => simp at hmem
  | append_singleton front c =>
    have hc : (c != '"') = true := by simpa using hlast
    rw [afterLast, List.reverse_append, List.reverse_singleton, List.singleton_append,
      List.takeWhile_cons, if_pos hc]
    simp

variable {h : Host} {env : Environment} {text : List Char} {cursor : Position}
  {before? : Option (List Char)} {context : Context}

/-- **What is offered at an import.** While a path is being typed, the lines that import modules
whose names go on from it, else all modules between quotation marks. -/
theorem importPath_cases (hok : (classify h env text cursor before?).outcome = .ok context)
    (hkind : context.kind = .importPath) :
    atImportPath (textBefore text cursor before?) = true ∧
      ∃ modules, (availableModules h env).outcome = .ok modules ∧
        (isInsideQuotes (textBefore text cursor before?) = true ∧
            context.typed = some (String.ofList (afterLast '"' (textBefore text cursor before?))) ∧
            context.candidates = importLines modules
              (afterLast '"' (textBefore text cursor before?)) (wholeLine text cursor) ∨
          isInsideQuotes (textBefore text cursor before?) = false ∧
            context.typed = none ∧ context.candidates = quotedModules modules) := by
  rw [outcome_classify] at hok
  obtain ⟨hpath, hoffer⟩ := importPathContext_of_kind hok hkind
  obtain ⟨modules, hmodules, rfl⟩ := importPathContext_eq_ok_iff.mp hoffer
  refine ⟨hpath, modules, hmodules, ?_⟩
  by_cases hinside : isInsideQuotes (textBefore text cursor before?) = true
  · rw [if_pos hinside]
    exact .inl ⟨hinside, rfl, rfl⟩
  · rw [if_neg hinside]
    exact .inr ⟨Bool.eq_false_iff.mpr hinside, rfl, rfl⟩

/-! ### Open quotations -/

/-- **When a path counts as being typed.** At an import, either no path is being typed and all
modules are offered between quotation marks, or the text behind the last quotation mark is being
typed and the lines that import modules with names that begin so are offered. The second happens
whenever the text before the cursor holds a quotation mark and does not end in one. It is the same
as an open quotation before the cursor in exactly these cases: there is no quotation mark at all, or
the text ends in one if and only if none is open. -/
theorem importPath_typed_iff_opensQuote (h : Host) (env : Environment) (text : List Char)
    (cursor : Position) (before? : Option (List Char)) (context : Context)
    (hok : (classify h env text cursor before?).outcome = .ok context)
    (hkind : context.kind = .importPath) :
    let before := textBefore text cursor before?
    (∃ modules, (availableModules h env).outcome = .ok modules ∧
      (context.typed = none ∧ context.candidates = quotedModules modules ∨
        context.typed = some (String.ofList (afterLast '"' before)) ∧
          context.candidates =
            importLines modules (afterLast '"' before) (wholeLine text cursor))) ∧
    (context.typed.isSome = true ↔ '"' ∈ before ∧ before.getLast? ≠ some '"') ∧
    ((context.typed.isSome = true ↔ opensQuote before = true) ↔
      '"' ∉ before ∨ (before.getLast? = some '"' ↔ opensQuote before = false)) := by
  intro before
  obtain ⟨-, modules, hmodules, hoffer⟩ := importPath_cases hok hkind
  have htyped : context.typed.isSome = true ↔ '"' ∈ before ∧ before.getLast? ≠ some '"' := by
    rw [← isInsideQuotes_iff]
    obtain ⟨hinside, htyped, -⟩ | ⟨hinside, htyped, -⟩ := hoffer
    · exact iff_of_true (by rw [htyped]; rfl) hinside
    · exact iff_of_false (by rw [htyped]; simp) (by simp [before, hinside])
  refine ⟨⟨modules, hmodules, ?_⟩, htyped, ?_⟩
  · obtain ⟨-, htyped, hcandidates⟩ | ⟨-, htyped, hcandidates⟩ := hoffer
    · exact .inr ⟨htyped, hcandidates⟩
    · exact .inl ⟨htyped, hcandidates⟩
  · rw [htyped]
    by_cases hmem : '"' ∈ before
    · -- Both sides say that the text ends in a quotation mark exactly if none is open.
      cases hopen : opensQuote before with
      | true => simp [hmem]
      | false => simp [hmem]
    · have hclosed : opensQuote before = false := by
        rw [opensQuote, List.count_eq_zero.mpr hmem]
        rfl
      simp [hmem, hclosed]

/-- A path is being typed behind the third quotation mark. -/
theorem importPath_typed_iff_opensQuote_third :
    let host : Host := ⟨.empty, [], "", []⟩
    let text := "import \"a\" \"std/i".toList
    let candidate : Candidate :=
      { label := "std/io", kind := .module, insertion := "import \"std/io\";",
        detail := "Library module", sortKey := "0std/io",
        documentation := some "Input/output operations", replaced := some ⟨⟨0, 0⟩, ⟨0, 17⟩⟩ }
    (classify host {} text ⟨0, 17⟩ none).outcome =
        .ok ⟨.importPath, some "std/i", [candidate]⟩ ∧
      (text.getLast? = some '"' ↔ opensQuote text = false) := by
  intro host text candidate
  have hok : (classify host {} text ⟨0, 17⟩ none).outcome =
      .ok ⟨.importPath, some "std/i", [candidate]⟩ := Report.outcome_eq_ok (by decide +kernel)
  obtain ⟨-, -, hagree⟩ := importPath_typed_iff_opensQuote host {} text ⟨0, 17⟩ none _ hok rfl
  have hbefore : textBefore text ⟨0, 17⟩ none = text := by decide +kernel
  rw [hbefore] at hagree
  have hopen : opensQuote text = true := by decide +kernel
  have hmem : '"' ∈ text := by decide +kernel
  exact ⟨hok, (hagree.mp (iff_of_true rfl hopen)).resolve_left (not_not_intro hmem)⟩

/-- A quotation that was just opened, and one that is closed with more text behind it. -/
theorem importPath_typed_off_quote :
    let host : Host := ⟨.empty, [], "", []⟩
    let typedAt (text : String) : Option (Option String) :=
      (classify host {} text.toList ⟨0, text.length⟩ none).outcome.toOption.map (·.typed)
    typedAt "import \"" = some none ∧ opensQuote "import \"".toList = true ∧
      typedAt "import \"a\"; " = some (some "; ") ∧ opensQuote "import \"a\"; ".toList = false := by
  decide +kernel

/-! ### Accepted candidates -/

/-- A cursor with something on its line stands on a line of the buffer. -/
theorem exists_getElem?_of_cursorLine (hne : cursorLine text cursor ≠ []) :
    ∃ n : Nat, cursor.line = n ∧ (Buffer.lines text)[n]? = some (cursorLine text cursor) := by
  rw [cursorLine, Buffer.lineAt] at hne
  split at hne
  · exact absurd rfl hne
  · next hnonneg =>
    refine ⟨cursor.line.toNat, by omega, ?_⟩
    rw [cursorLine, Buffer.lineAt, if_neg hnonneg, List.getD_eq_getElem?_getD]
    rw [List.getD_eq_getElem?_getD] at hne
    cases hline : (Buffer.lines text)[cursor.line.toNat]? with
    | none =>
      rw [hline] at hne
      exact absurd rfl hne
    | some line => rfl

/-- At an import the line of the cursor is not empty. -/
theorem cursorLine_ne_nil (hpath : atImportPath (textBefore text cursor none) = true) :
    cursorLine text cursor ≠ [] := by
  intro hnil
  have hbefore : textBefore text cursor none = [] := by
    rw [textBefore, Option.getD_none, hnil, upTo]
    split <;> exact List.take_nil
  rw [hbefore] at hpath
  exact absurd hpath (by decide)

theorem mem_importLines {modules : List Catalog.Module} {typed : List Char} {r : Range}
    {c : Candidate} (hc : c ∈ importLines modules typed r) :
    c.replaced = some r ∧ typed <+: c.label.toList ∧ (∃ m ∈ modules, c.label = m.name) ∧
      c.insertion.toList = "import \"".toList ++ c.label.toList ++ "\";".toList := by
  obtain ⟨m, hm, rfl⟩ := List.mem_map.mp hc
  obtain ⟨hmem, hstarts⟩ := List.mem_filter.mp hm
  refine ⟨rfl, startsWith_iff.mp hstarts, ⟨m, hmem, rfl⟩, ?_⟩
  rw [String.toList_append, String.toList_append]

/-- An import that is written on a line of its own comes between the imports above and below. -/
theorem imports_replace_line {n : Nat} {line path : List Char}
    (hline : (Buffer.lines text)[n]? = some line) (hne : path ≠ []) (hquote : '"' ∉ path)
    (hfeed : '\n' ∉ path) :
    let written := "import \"".toList ++ path ++ "\";".toList
    let accepted := Buffer.replace text ⟨⟨n, 0⟩, ⟨n, line.length⟩⟩ written
    Buffer.lines accepted = (Buffer.lines text).set n written ∧
      imports accepted = imports (joined ['\n'] ((Buffer.lines text).take n)) ++
        String.ofList path :: imports (joined ['\n'] ((Buffer.lines text).drop (n + 1))) := by
  intro written accepted
  obtain ⟨hn, -⟩ := List.getElem?_eq_some_iff.mp hline
  have hlines : Buffer.lines accepted = (Buffer.lines text).set n written := by
    apply Buffer.lines_replace_line hline
    · simp [written, hfeed]
    · rw [List.getLast?_append_of_ne_nil _ (by decide)]
      decide
  have habove : ∀ l ∈ Buffer.lines text, '\n' ∉ l :=
    fun l hl hmem => (Buffer.mem_text_of_mem_line hl hmem).2 rfl
  refine ⟨hlines, ?_⟩
  rw [imports_eq_filterMap, hlines, List.set_eq_take_cons_drop _ hn, List.filterMap_append,
    List.filterMap_cons_some (importOn?_written hne hquote),
    imports_joined fun l hl => habove l (List.mem_of_mem_take hl),
    imports_joined fun l hl => habove l (List.mem_of_mem_drop hl)]

/-- **Accepting a path.** Wherever completion finds that a path is being typed, the cursor is on a
line of the buffer. Each candidate stands for one of the modules, its label goes on from what is
typed, and it replaces exactly that whole line. If the name of the module holds no quotation mark
and no line feed, then the buffer has the same lines afterwards but for that one, and it imports
what the lines above import, then the module, then what the lines below import. -/
theorem imports_accept_importPath (h : Host) (env : Environment) (text : List Char)
    (cursor : Position) (context : Context) (typed : String)
    (hok : (classify h env text cursor none).outcome = .ok context)
    (hkind : context.kind = .importPath) (htyped : context.typed = some typed) :
    ∃ (n : Nat) (line : Line) (modules : List Catalog.Module),
      cursor.line = n ∧ (Buffer.lines text)[n]? = some line ∧
      (availableModules h env).outcome = .ok modules ∧
      ∀ c ∈ context.candidates,
        c.replaced = some ⟨⟨n, 0⟩, ⟨n, line.length⟩⟩ ∧ typed.toList <+: c.label.toList ∧
        (∃ m ∈ modules, c.label = m.name) ∧
        ('"' ∉ c.label.toList → '\n' ∉ c.label.toList →
          let accepted := Buffer.replace text ⟨⟨n, 0⟩, ⟨n, line.length⟩⟩ c.insertion.toList
          Buffer.lines accepted = (Buffer.lines text).set n c.insertion.toList ∧
          imports accepted =
            imports (joined ['\n'] ((Buffer.lines text).take n)) ++
              c.label :: imports (joined ['\n'] ((Buffer.lines text).drop (n + 1)))) := by
  obtain ⟨hpath, modules, hmodules, hoffer⟩ := importPath_cases hok hkind
  obtain ⟨n, hn, hline⟩ := exists_getElem?_of_cursorLine (cursorLine_ne_nil hpath)
  obtain ⟨hinside, hpartial, hcandidates⟩ | ⟨-, hnone, -⟩ := hoffer
  · rw [htyped, Option.some_inj] at hpartial
    refine ⟨n, cursorLine text cursor, modules, hn, hline, hmodules, fun c hc => ?_⟩
    rw [hcandidates] at hc
    obtain ⟨hreplaced, hstarts, hmodule, hinsertion⟩ := mem_importLines hc
    refine ⟨?_, ?_, hmodule, fun hquote hfeed => ?_⟩
    · rw [hreplaced, wholeLine, hn]
    · rw [hpartial, String.toList_ofList]
      exact hstarts
    · -- What is typed is not empty, so neither is the name of the module.
      have hne : c.label.toList ≠ [] := by
        intro hnil
        rw [hnil, List.prefix_nil] at hstarts
        exact afterLast_ne_nil hinside hstarts
      rw [hinsertion]
      have haccepted := imports_replace_line hline hne hquote hfeed
      rwa [String.ofList_toList] at haccepted
  · rw [htyped] at hnone
    exact absurd hnone (by simp)

/-- Between two imports, in a buffer whose lines end in carriage returns. -/
theorem imports_accept_importPath_between :
    let host : Host := ⟨.empty, [], "", []⟩
    let text := "import \"a\";\r\n  import \"std/i\r\nimport \"b\";".toList
    let candidate : Candidate :=
      { label := "std/io", kind := .module, insertion := "import \"std/io\";",
        detail := "Library module", sortKey := "0std/io",
        documentation := some "Input/output operations", replaced := some ⟨⟨1, 0⟩, ⟨1, 15⟩⟩ }
    (classify host {} text ⟨1, 90⟩ none).outcome =
        .ok ⟨.importPath, some "std/i", [candidate]⟩ ∧
      imports (Buffer.replace text ⟨⟨1, 0⟩, ⟨1, 15⟩⟩ candidate.insertion.toList) =
        ["a", "std/io", "b"] := by
  intro host text candidate
  have hok : (classify host {} text ⟨1, 90⟩ none).outcome =
      .ok ⟨.importPath, some "std/i", [candidate]⟩ := Report.outcome_eq_ok (by decide +kernel)
  obtain ⟨n, line, modules, hn, hline, -, haccept⟩ :=
    imports_accept_importPath host {} text ⟨1, 90⟩ _ "std/i" hok rfl rfl
  obtain rfl : n = 1 := by
    dsimp only at hn
    omega
  obtain rfl : "  import \"std/i".toList = line :=
    Option.some_inj.mp (Eq.trans (by decide +kernel) hline)
  obtain ⟨-, -, -, hread⟩ := haccept candidate List.mem_cons_self
  refine ⟨hok, (hread (by decide +kernel) (by decide +kernel)).2.trans ?_⟩
  decide +kernel

end VeLens.Completion
