import VeLens.Completion.Candidate
import VeLens.Text.Alphanumeric

/-!
# Completion at a cursor

What is offered at a cursor depends on the text before it on the same line. After the word `import`
with a quotation mark or a space at the end, modules are offered. Right after the word `import` it
is the keyword itself, and after `fn` and blanks the skeleton of a function. Everywhere else
functions, variables and keywords are offered, those that go on from the word at the cursor if there
is one.

## Main definitions

* `wordAt`: the word that touches a column.
* `Environment`: where modules are looked for.
* `Context`: the mode of completion at a cursor and its candidates.
* `classify`: the context at a cursor.

## Design notes

Words around `import` and `fn` are those of all scripts. The word at the cursor is made of the
letters of names only. An import path is open if a quotation mark stands before the cursor, but not
directly before it.
-/

namespace VeLens.Completion

open Declaration Text

/-- The word that touches a column: the longest run of name characters around it. A column outside
the line counts as at its nearest end. -/
def wordAt (line : Line) (column : Int) : Option (List Char) :=
  let c := min column.toNat line.length
  let left := ((line.take c).reverse.takeWhile isNameChar).reverse
  let right := (line.drop c).takeWhile isNameChar
  let word := left ++ right
  if word = [] then none else some word

/-- Where modules are looked for. -/
structure Environment where
  library : Option Path := none
  workspace : Option Path := none
  openFile : Option String := none
  options : Workspace.Options := {}

/-- The mode of completion. -/
inductive ContextKind where
  | importPath
  | importKeyword
  | functionKeyword
  | identifierStart
  | emptyContext
deriving DecidableEq

/-- The word for a mode. -/
def ContextKind.word : ContextKind → String
  | importPath => "import_path"
  | importKeyword => "import_keyword"
  | functionKeyword => "function_keyword"
  | identifierStart => "identifier_prefix"
  | emptyContext => "empty_context"

/-- The mode of completion at a cursor, what is already typed, and the candidates in the order in
which they were found. -/
structure Context where
  kind : ContextKind
  typed : Option String
  candidates : List Candidate
deriving DecidableEq

/-- The text does not begin with a word character. -/
def wordEnds : List Char → Bool
  | [] => true
  | c :: _ => !isWord c

/-- The word occurs in the text with no word character next to it. The flag tells whether the text
may begin a word. -/
def hasWord (word : List Char) : (fresh : Bool) → List Char → Bool
  | fresh, s =>
    (fresh && (after? word s).any wordEnds) ||
      match s with
      | [] => false
      | c :: rest => hasWord word (!isWord c) rest

/-- The text ends in the word, with no word character before it. -/
def endsInWord (word s : List Char) : Bool :=
  (after? word.reverse s.reverse).any wordEnds

/-- The word `import`. -/
def importWord : List Char := ['i', 'm', 'p', 'o', 'r', 't']

/-- The cursor is at the path of an import. -/
def atImportPath (before : List Char) : Bool :=
  hasWord importWord true before && (before.contains '"' || before.getLast? == some ' ')

/-- The cursor is after the word `import`. -/
def atImportKeyword (before : List Char) : Bool := endsInWord importWord (trimRight before)

/-- The cursor is after the word `fn` and blanks. -/
def atFunctionKeyword (before : List Char) : Bool :=
  trimRight before ≠ before && endsInWord ['f', 'n'] (trimRight before)

/-- The cursor is inside the quotation marks of an import path. -/
def isInsideQuotes (before : List Char) : Bool :=
  before.contains '"' && before.getLast? ≠ some '"'

/-- The modules that an environment offers. -/
def availableModules (h : Host) (env : Environment) : Report (List Catalog.Module) :=
  Catalog.modules h env.library env.workspace env.openFile env.options

/-- The context at the path of an import. -/
def importPathContext (h : Host) (env : Environment) (before line : List Char) (cursor : Position) :
    Report Context := do
  let modules ← availableModules h env
  if isInsideQuotes before then
    let typed := afterLast '"' before
    let range : Range := ⟨⟨cursor.line, 0⟩, ⟨cursor.line, line.length⟩⟩
    return ⟨.importPath, some (String.ofList typed), importLines modules typed range⟩
  else return ⟨.importPath, none, quotedModules modules⟩

/-- The functions declared in a buffer, then those of the standard modules that it imports. -/
def visibleFunctions (h : Host) (env : Environment) (text : List Char) :
    Report (List Signature) := do
  let imported ← (imports text) |> Report.each fun module =>
    Catalog.standardFunctions h env.library module env.options.suffix
  return signatures text ++ imported.flatten

/-- The context at a word or at none. -/
def nameContext (h : Host) (env : Environment) (text : List Char) (lines : List Line) (line : Line)
    (cursor : Position) : Report Context := do
  let typed := (wordAt line cursor.column).map String.ofList
  let signatures ← visibleFunctions h env text
  Report.logAll (Scope.events lines cursor)
  return {
    kind := if typed.isSome then .identifierStart else .emptyContext
    typed := typed
    candidates :=
      snippets typed ++ functions signatures typed ++
        boundNames (Scope.resolve lines cursor) typed ++ keywords }

/-- The context at a cursor, without the final event. -/
def contextAt (h : Host) (env : Environment) (text : List Char) (cursor : Position)
    (before? : Option (List Char)) : Report Context :=
  let lines := Buffer.lines text
  let line := Buffer.lineAt lines cursor.line
  let before := before?.getD (upTo cursor.column line)
  if atImportPath before then importPathContext h env before line cursor
  else if atImportKeyword before then return ⟨.importKeyword, none, [importKeyword]⟩
  else if atFunctionKeyword before then return ⟨.functionKeyword, none, [entryPoint]⟩
  else nameContext h env text lines line cursor

/-- The context at a cursor. The text before the cursor on its line may be given by the host. -/
def classify (h : Host) (env : Environment) (text : List Char) (cursor : Position)
    (before? : Option (List Char)) : Report Context := do
  let context ← contextAt h env text cursor before?
  Report.log (.contextClassified context.kind.word context.candidates.length)
  return context

/-- Candidates in the order in which an editor shows them: by sort key, and as they were found where
the keys are equal. -/
def ordered (candidates : List Candidate) : List Candidate :=
  candidates.mergeSort fun a b => decide (a.sortKey ≤ b.sortKey)

end VeLens.Completion
