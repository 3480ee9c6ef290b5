import VeLens.Text.Utf8

/-!
# JSON values

Answers are written as JSON, either over several lines with two blanks for each level of nesting, or
on one line in plain ASCII. Fields keep the order in which they are given.

## Main definitions

* `Json`: a value.
* `Json.pretty`: the value over several lines.
* `Json.compact`: the value on one line, in ASCII.
-/

namespace VeLens

/-- A JSON value. Numbers are whole. -/
inductive Json where
  | null
  | boolean (value : Bool)
  | number (value : Int)
  | text (value : String)
  | list (items : List Json)
  | object (fields : List (String × Json))

namespace Json

/-- A text, or null if there is none. -/
def text? (value : Option String) : Json := (value.map text).getD null

/-- The escape of a character that has a short one. -/
def shortEscape? (c : Char) : Option String :=
  if c = '"' then some "\\\""
  else if c = '\\' then some "\\\\"
  else if c = '\n' then some "\\n"
  else if c = '\r' then some "\\r"
  else if c = '\t' then some "\\t"
  else if c = '\x08' then some "\\b"
  else if c = '\x0c' then some "\\f"
  else none

/-- The escape of a number of sixteen bits. -/
def unitEscape (n : Nat) : String := "\\u" ++ Text.Utf8.hex 4 n

/-- A character as it stands between quotation marks. Only what has to be is escaped. -/
def plainChar (c : Char) : String :=
  match shortEscape? c with
  | some escape => escape
  | none => if c.toNat < 0x20 then unitEscape c.toNat else c.toString

/-- A character in ASCII. One beyond sixteen bits is written as two halves. -/
def asciiChar (c : Char) : String :=
  match shortEscape? c with
  | some escape => escape
  | none =>
    let n := c.toNat
    if 0x20 ≤ n ∧ n < 0x7F then c.toString
    else if n < 0x10000 then unitEscape n
    else unitEscape (0xD800 + (n - 0x10000) / 0x400) ++ unitEscape (0xDC00 + (n - 0x10000) % 0x400)

/-- A text between quotation marks. -/
def quote (write : Char → String) (s : String) : String :=
  "\"" ++ String.join (s.toList.map write) ++ "\""

/-- The blanks at the beginning of a line. -/
def indent (depth : Nat) : String := String.ofList (List.replicate (2 * depth) ' ')

/-- Parts between brackets, each on a line of its own. -/
def stacked (opening closing : String) (depth : Nat) (parts : List String) : String :=
  if parts = [] then opening ++ closing
  else
    opening ++ "\n" ++ ",\n".intercalate (parts.map (indent (depth + 1) ++ ·)) ++ "\n" ++
      indent depth ++ closing

/-- Parts between brackets on one line. -/
def inline (opening closing : String) (parts : List String) : String :=
  opening ++ ", ".intercalate parts ++ closing

/-- A truth value. -/
def truth (value : Bool) : String := if value then "true" else "false"

mutual

/-- The value over several lines, at some depth of nesting. -/
def prettyAt (depth : Nat) : Json → String
  | .null => "null"
  | .boolean value => truth value
  | .number value => toString value
  | .text value => quote plainChar value
  | .list items => stacked "[" "]" depth (prettyItems (depth + 1) items)
  | .object fields => stacked "\x7b" "\x7d" depth (prettyFields (depth + 1) fields)

/-- The items of a list. -/
def prettyItems (depth : Nat) : List Json → List String
  | [] => []
  | item :: items => prettyAt depth item :: prettyItems depth items

/-- The fields of an object. -/
def prettyFields (depth : Nat) : List (String × Json) → List String
  | [] => []
  | (key, value) :: fields =>
    (quote plainChar key ++ ": " ++ prettyAt depth value) :: prettyFields depth fields

end

/-- The value over several lines. -/
def pretty (value : Json) : String := prettyAt 0 value

mutual

/-- The value on one line, in ASCII. -/
def compact : Json → String
  | .null => "null"
  | .boolean value => truth value
  | .number value => toString value
  | .text value => quote asciiChar value
  | .list items => inline "[" "]" (compactItems items)
  | .object fields => inline "\x7b" "\x7d" (compactFields fields)

/-- The items of a list. -/
def compactItems : List Json → List String
  | [] => []
  | item :: items => compact item :: compactItems items

/-- The fields of an object. -/
def compactFields : List (String × Json) → List String
  | [] => []
  | (key, value) :: fields =>
    (quote asciiChar key ++ ": " ++ compact value) :: compactFields fields

end

end Json

end VeLens
