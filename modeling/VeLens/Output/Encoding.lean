import VeLens.Completion.Context
import VeLens.Outline.Symbol
import VeLens.Output.Json

/-!
# Answers as JSON

What each kind of answer looks like in JSON: the names of the fields and their order.
-/

namespace VeLens

/-- A position as JSON. -/
def Position.toJson (p : Position) : Json :=
  .object [("line", .number p.line), ("column", .number p.column)]

/-- A range as JSON. -/
def Range.toJson (r : Range) : Json := .object [("start", r.start.toJson), ("end", r.stop.toJson)]

namespace Outline

/-- An item with the given members as JSON. -/
def Item.toJsonWith (children : List Json) (item : Item) : Json :=
  .object [
    ("kind", .text item.kind.word),
    ("name", .text item.name),
    ("detail", .text item.detail),
    ("range", item.range.toJson),
    ("selection_range", item.selection.toJson),
    ("children", .list children)]

/-- A symbol as JSON. Members have no members of their own. -/
def Symbol.toJson (symbol : Symbol) : Json :=
  symbol.toItem.toJsonWith (symbol.children.map (Item.toJsonWith []))

end Outline

/-- A visible name as JSON. -/
def Scope.Binding.toJson (b : Scope.Binding) : Json :=
  .object [
    ("name", .text b.name),
    ("type", .text b.type),
    ("scope_kind", .text b.kind.word),
    ("value_preview", .text? b.preview)]

/-- A module as JSON. -/
def Catalog.Module.toJson (m : Catalog.Module) : Json :=
  .object [("name", .text m.name), ("description", .text m.description)]

/-- A completion candidate as JSON. -/
def Completion.Candidate.toJson (c : Completion.Candidate) : Json :=
  .object [
    ("label", .text c.label),
    ("kind", .text c.kind.word),
    ("insertion_template", .text c.insertion),
    ("detail", .text c.detail),
    ("sort_key", .text c.sortKey),
    ("documentation", .text? c.documentation),
    ("is_snippet", .boolean c.isSnippet),
    ("replace_range", (c.replaced.map Range.toJson).getD .null)]

/-- A completion context with the given candidates as JSON. -/
def Completion.Context.toJsonWith (candidates : List Completion.Candidate)
    (context : Completion.Context) : Json :=
  .object [
    ("kind", .text context.kind.word),
    ("prefix", .text? context.typed),
    ("candidates", .list (candidates.map Completion.Candidate.toJson))]

end VeLens
