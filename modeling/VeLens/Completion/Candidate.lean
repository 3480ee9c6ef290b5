import VeLens.Buffer.Lines
import VeLens.Catalog.Modules
import VeLens.Scope
import VeLens.Signature

/-!
# Completion candidates

A candidate is an entry of the list that an editor offers at the cursor. Its sort key puts keywords
and modules before functions and functions before variables. Candidates of one kind are ordered by
their labels.

## Main definitions

* `Candidate`: an entry of the list.
* `keywords`, `snippets`, `functions`, `boundNames`, `importLines`, `quotedModules`: the families of
  candidates.
-/

namespace VeLens.Completion

/-- What a candidate stands for. -/
inductive CandidateKind where
  | keyword
  | module
  | function
  | variable
deriving DecidableEq

namespace CandidateKind

/-- The word for a kind. -/
def word : CandidateKind → String
  | .keyword => "keyword"
  | .module => "module"
  | .function => "function"
  | .variable => "variable"

/-- The digit that orders candidates by kind. -/
def tier : CandidateKind → Char
  | .keyword | .module => '0'
  | .function => '1'
  | .variable => '2'

/-- The key by which candidates of a kind are ordered. -/
def sortKey (kind : CandidateKind) (label : String) : String := kind.tier.toString ++ label

end CandidateKind

/-- An entry of the completion list. The range, if present, is replaced by the inserted text. -/
structure Candidate where
  label : String
  kind : CandidateKind
  insertion : String
  detail : String
  sortKey : String
  documentation : Option String := none
  isSnippet : Bool := false
  replaced : Option Range := none
deriving DecidableEq

/-- The keywords of the language. -/
def languageKeywords : List String :=
  ["fn", "let", "var", "if", "else", "return", "safe", "rawptr", "defer", "as", "while", "for",
    "import", "from", "export", "struct", "enum", "match", "true", "false", "foreign", "in"]

/-- A label is worth offering: it goes on from what is typed. -/
def goesOn (typed : Option String) (label : String) : Bool :=
  match typed with
  | none => true
  | some typed => Text.startsWith typed.toList label.toList && label != typed

/-- The `import` keyword. -/
def importKeyword : Candidate where
  label := "import"
  kind := .keyword
  insertion := "import"
  detail := "Import statement"
  sortKey := CandidateKind.keyword.sortKey "import"
  documentation := some "Import a module"

/-- The `fn` keyword, with the skeleton of a function. -/
def functionKeyword : Candidate where
  label := "fn"
  kind := .keyword
  insertion := "fn $\x7b1:function_name\x7d($\x7b2:parameters\x7d) \x7b\n\t$0\n\x7d"
  detail := "Function declaration"
  sortKey := CandidateKind.keyword.sortKey "fn"
  documentation := some "Create a new function"
  isSnippet := true

/-- The skeleton of the function at which a program starts, for the place after `fn`. -/
def entryPoint : Candidate where
  label := "main"
  kind := .function
  insertion := "$\x7b1:main\x7d() \x7b\n\t$0\n\x7d"
  detail := "Main function"
  sortKey := CandidateKind.function.sortKey "main"
  documentation := some "Creates the main entry point function"
  isSnippet := true

/-- The keywords that come with a skeleton. -/
def snippets (typed : Option String) : List Candidate :=
  [importKeyword, functionKeyword].filter fun candidate => goesOn typed candidate.label

/-- The functions whose names go on from what is typed. -/
def functions (signatures : List Signature) (typed : Option String) : List Candidate :=
  (signatures.filter fun s => goesOn typed s.name).map fun s => {
    label := s.name
    kind := .function
    insertion := s.snippet
    detail := s.detail
    sortKey := CandidateKind.function.sortKey s.name
    documentation := some ("Call " ++ s.name ++ " function")
    isSnippet := true }

/-- The variables whose names go on from what is typed. -/
def boundNames (bindings : List Scope.Binding) (typed : Option String) : List Candidate :=
  (bindings.filter fun b => goesOn typed b.name).map fun b => {
    label := b.name
    kind := .variable
    insertion := b.name
    detail := (if b.kind.isForeign then "var " else "let ") ++ b.name ++ ": " ++ b.type
    sortKey := CandidateKind.variable.sortKey b.name
    documentation := some ("Variable of type " ++ b.type) }

/-- All keywords, whatever is typed. -/
def keywords : List Candidate :=
  languageKeywords.map fun keyword => {
    label := keyword
    kind := .keyword
    insertion := keyword
    detail := "Keyword"
    sortKey := CandidateKind.keyword.sortKey keyword }

/-- The modules whose names begin with a partly typed path. Each replaces the whole line. -/
def importLines (modules : List Catalog.Module) (typed : List Char) (line : Range) :
    List Candidate :=
  (modules.filter fun m => Text.startsWith typed m.name.toList).map fun m => {
    label := m.name
    kind := .module
    insertion := "import \"" ++ m.name ++ "\";"
    detail := "Library module"
    sortKey := CandidateKind.module.sortKey m.name
    documentation := some m.description
    replaced := some line }

/-- All modules, each between quotation marks. -/
def quotedModules (modules : List Catalog.Module) : List Candidate :=
  modules.map fun m => {
    label := "\"" ++ m.name ++ "\""
    kind := .module
    insertion := "\"" ++ m.name ++ "\""
    detail :=
      if Text.startsWith ModuleName.standardMark m.name.toList then "Standard library module"
      else "Local module"
    sortKey := CandidateKind.module.sortKey m.name
    documentation := some m.description
    isSnippet := true }

end VeLens.Completion
