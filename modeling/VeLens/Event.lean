/-!
# Events

Answers are accompanied by events that tell a host what happened on the way. An event has a name, a
level and fields with names of their own. How events are written out is not settled here.
-/

namespace VeLens

/-- How important an event is, from the least to the most. -/
inductive Level where
  | debug
  | info
  | warning
  | error
deriving DecidableEq

namespace Level

/-- The place of a level in the order of importance. -/
def rank : Level → Nat
  | debug => 10
  | info => 20
  | warning => 30
  | error => 40

/-- The word for a level. -/
def word : Level → String
  | debug => "debug"
  | info => "info"
  | warning => "warning"
  | error => "error"

end Level

/-- The content of an event's field. -/
inductive FieldValue where
  | text (content : String)
  | number (content : Nat)
deriving DecidableEq

/-- What can happen while a question is answered. -/
inductive Event where
  /-- An outline of so many symbols was drawn from so many lines. -/
  | outlineBuilt (lines symbols : Nat)
  /-- The cursor stands below the function whose names were resolved. -/
  | pastFunction (function : String) (line : Nat)
  /-- A completion context was found, with so many candidates. -/
  | contextClassified (kind : String) (candidates : Nat)
  /-- The first lines of a library file could not be read. -/
  | descriptionUnreadable (path error : String)
  /-- The library folder could not be listed. -/
  | libraryUnavailable (root error : String)
  /-- The workspace folder could not be listed. -/
  | workspaceUnavailable (root error : String)
  /-- An imported library module has no file. -/
  | moduleMissing (module path : String)
  /-- The file of an imported library module could not be read. -/
  | moduleUnreadable (module error : String)
  /-- The file that a command names could not be read. -/
  | inputUnreadable (error : String)
deriving DecidableEq

namespace Event

/-- The name of an event. -/
def name : Event → String
  | outlineBuilt .. => "outline.built"
  | pastFunction .. => "scope.past_function"
  | contextClassified .. => "completion.classified"
  | descriptionUnreadable .. => "catalog.description_unreadable"
  | libraryUnavailable .. => "catalog.library_unavailable"
  | workspaceUnavailable .. => "catalog.workspace_unavailable"
  | moduleMissing .. => "catalog.module_missing"
  | moduleUnreadable .. => "catalog.module_unreadable"
  | inputUnreadable .. => "cli.input_unreadable"

/-- The level of an event: a warning if an answer is poorer than it might be. -/
def level : Event → Level
  | libraryUnavailable .. | workspaceUnavailable .. | moduleUnreadable .. => .warning
  | _ => .debug

/-- The part of the program that an event names as its origin. -/
def origin? : Event → Option String
  | inputUnreadable .. => some "velang_assist.cli"
  | _ => none

/-- The fields of an event, in the order in which they are given. -/
def fields : Event → List (String × FieldValue)
  | outlineBuilt lines symbols => [("lines", .number lines), ("symbols", .number symbols)]
  | pastFunction function line => [("function", .text function), ("line", .number line)]
  | contextClassified kind candidates => [("kind", .text kind), ("candidates", .number candidates)]
  | descriptionUnreadable path error => [("path", .text path), ("error", .text error)]
  | libraryUnavailable root error => [("library_root", .text root), ("error", .text error)]
  | workspaceUnavailable root error => [("root", .text root), ("error", .text error)]
  | moduleMissing module path => [("module", .text module), ("path", .text path)]
  | moduleUnreadable module error => [("module", .text module), ("error", .text error)]
  | inputUnreadable error => [("error", .text error)]

end Event

end VeLens
