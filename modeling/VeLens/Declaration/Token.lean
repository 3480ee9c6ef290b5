import VeLens.Text.Blank
import VeLens.Text.Cut
import VeLens.Text.Integer

/-!
# Names and literals

A name is made of letters, digits and underscores of the basic Latin alphabet and does not begin
with a digit.

A variable without a written type takes the type of its value if the value is a literal. The forms
are tried in order: whole numbers, numbers with a decimal point, truth values, quoted text and the
null value. Everything else has the unresolved type `auto`.

## Main definitions

* `isNameChar`: the characters that names are made of.
* `name?`: the longest name that a text begins with, and what follows it.
* `inferType`: the type of a value.
-/

namespace VeLens.Declaration

open Text

/-- The characters that a name may begin with. -/
def isNameStart (c : Char) : Bool := c.isAlpha || c == '_'

/-- The characters that a name is made of. -/
def isNameChar (c : Char) : Bool := c.isAlphanum || c == '_'

/-- The whole text is a name. -/
def isName : List Char → Bool
  | [] => false
  | c :: s => isNameStart c && s.all isNameChar

/-- The longest name at the beginning of a text, and what follows it. -/
def name? : List Char → Option (List Char × List Char)
  | [] => none
  | c :: s =>
    if isNameStart c then some (c :: s.takeWhile isNameChar, s.dropWhile isNameChar) else none

/-- The type of a value that is no literal. -/
def unresolved : String := "auto"

/-- At least one decimal digit and nothing else. -/
def isNumeral (s : List Char) : Bool := !s.isEmpty && s.all isDigit

/-- Two numerals with a point between them. -/
def isFraction (s : List Char) : Bool :=
  match s.dropWhile isDigit with
  | '.' :: places => isNumeral (s.takeWhile isDigit) && isNumeral places
  | _ => false

/-- The text begins and ends with the same quotation mark, and the two are not one. -/
def isQuoted (s : List Char) : Bool :=
  2 ≤ s.length && ['"', '\'', '\x60'].any fun q => s.head? == some q && s.getLast? == some q

/-- The type of a value, blanks around it left out. -/
def inferType (value : List Char) : String :=
  let s := trim value
  if isNumeral s then "i32"
  else if isFraction s then "f64"
  else if s == ['t', 'r', 'u', 'e'] || s == ['f', 'a', 'l', 's', 'e'] then "bool"
  else if isQuoted s then "string"
  else if s == ['n', 'u', 'l', 'l'] then "null"
  else unresolved

end VeLens.Declaration
