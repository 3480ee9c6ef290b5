/-!
# Blanks

A line is trimmed, and its parts are told apart, by blanks: tabs, line and page breaks, the
information separators, the plain space and the other spaces of Unicode. Zero-width characters and
the byte order mark are not blank.

## Main definitions

* `isBlank`: the blanks.
* `trimLeft`, `trimRight`, `trim`: a text without the blanks at its ends.
-/

namespace VeLens.Text

/-- Tabs, breaks, separators and spaces. -/
def isBlank (c : Char) : Bool :=
  let n := c.toNat
  (0x09 ≤ n && n ≤ 0x0D) || (0x1C ≤ n && n ≤ 0x20) || n == 0x85 || n == 0xA0 || n == 0x1680 ||
    (0x2000 ≤ n && n ≤ 0x200A) || n == 0x2028 || n == 0x2029 || n == 0x202F || n == 0x205F ||
    n == 0x3000

/-- The text from its first character that is not blank. -/
def trimLeft (s : List Char) : List Char := s.dropWhile isBlank

/-- The text up to its last character that is not blank. -/
def trimRight (s : List Char) : List Char := (s.reverse.dropWhile isBlank).reverse

/-- The text without the blanks at either end. -/
def trim (s : List Char) : List Char := trimRight (trimLeft s)

/-- Nothing but blanks, if anything at all. -/
def allBlank (s : List Char) : Bool := s.all isBlank

/-- What follows a run of blanks that is not empty. -/
def afterBlanks? : List Char → Option (List Char)
  | c :: s => if isBlank c then some (trimLeft s) else none
  | [] => none

end VeLens.Text
