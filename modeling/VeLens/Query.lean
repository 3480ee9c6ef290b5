import VeLens.Completion.Context
import VeLens.Config
import VeLens.Outline.Symbol

/-!
# Questions about a text

The questions that a host asks, with the events that go with their answers.

## Main definitions

* `Query.outline`: the symbols of a text.
* `Query.scope`: the names visible at a cursor.
* `Query.environment`: where the modules of a workspace are looked for.
-/

namespace VeLens.Query

/-- The symbols of a text. -/
def outline (text : List Char) : Report (List Outline.Symbol) := do
  let lines := Buffer.lines text
  let symbols := Outline.symbols lines
  Report.log (.outlineBuilt lines.length symbols.length)
  return symbols

/-- The names visible at a cursor in a text. -/
def scope (text : List Char) (cursor : Position) : Report (List Scope.Binding) := do
  let lines := Buffer.lines text
  Report.logAll (Scope.events lines cursor)
  return Scope.resolve lines cursor

/-- Where the modules of a workspace with the given configuration are looked for. -/
def environment (h : Host) (config : Config) (root : Path) (openFile : Option String) :
    Except Fault Completion.Environment := do
  return {
    library := some (← config.libraryRoot h)
    workspace := some root
    openFile := openFile
    options := config.options }

end VeLens.Query
