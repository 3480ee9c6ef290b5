import VeLens.Event
import VeLens.Output.Json
import VeLens.Text.Quoted

/-!
# Lines for events

An event is written on a line of its own, for people or as JSON. A line for people has the time, the
level, the name, the origin if there is one, and the fields in the order of their names. As JSON the
fields come first, in the order in which they are given.

## Main definitions

* `Event.line`: the line for people.
* `Event.jsonLine`: the line as JSON.
-/

namespace VeLens

open Text

/-- The text has to be quoted so that the next field can be told from it. -/
def needsQuotes (s : List Char) : Bool :=
  s.any fun c => [' ', '\t', '=', '\r', '\n', '"', '\''].contains c

/-- The content of a field, for people. -/
def FieldValue.shown : FieldValue → String
  | text content => if needsQuotes content.toList then quoted content else content
  | number content => toString content

/-- The content of a field as JSON. -/
def FieldValue.toJson : FieldValue → Json
  | text content => .text content
  | number content => .number content

namespace Event

/-- The fields in the order of their names. -/
def sortedFields (event : Event) : List (String × FieldValue) :=
  event.fields.mergeSort fun a b => decide (a.1 ≤ b.1)

/-- The line for people. -/
def line (time : String) (event : Event) : String :=
  time ++ " [" ++ event.level.word ++ "] " ++ event.name ++
    (event.origin?.map fun origin => " [" ++ origin ++ "]").getD "" ++
    String.join (event.sortedFields.map fun (key, value) => " " ++ key ++ "=" ++ value.shown)

/-- The line as JSON. -/
def jsonLine (time : String) (event : Event) : String :=
  let origin := (event.origin?.map fun origin => ("logger", Json.text origin)).toList
  let fields := event.fields.map fun (key, value) => (key, value.toJson)
  Json.compact (.object (origin ++ fields ++ [
    ("event", .text event.name),
    ("level", .text event.level.word),
    ("timestamp", .text time)]))

end Event

end VeLens
