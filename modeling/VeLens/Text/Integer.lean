import VeLens.Text.Blank

/-!
# Digits and integers

A decimal digit belongs to one of the scripts that write numbers in base ten. In each of them the
ten digits stand side by side, so a script is given by the place of its zero.

An integer may be written with blanks around it, with a sign, with digits of any script and with
single low lines between digits. The information separators are no blanks here, and there is a limit
to the number of digits.

## Main definitions

* `isDigit`, `digitValue?`: the decimal digits and their values.
* `integer?`: the integer that a text stands for.
-/

namespace VeLens.Text

/-- The code points of the zeros. Each is followed by the other nine digits of its script. -/
def digitZeros : List Nat := [
  0x30, 0x660, 0x6F0, 0x7C0, 0x966, 0x9E6, 0xA66, 0xAE6, 0xB66, 0xBE6,
  0xC66, 0xCE6, 0xD66, 0xDE6, 0xE50, 0xED0, 0xF20, 0x1040, 0x1090, 0x17E0,
  0x1810, 0x1946, 0x19D0, 0x1A80, 0x1A90, 0x1B50, 0x1BB0, 0x1C40, 0x1C50, 0xA620,
  0xA8D0, 0xA900, 0xA9D0, 0xA9F0, 0xAA50, 0xABF0, 0xFF10, 0x104A0, 0x10D30, 0x11066,
  0x110F0, 0x11136, 0x111D0, 0x112F0, 0x11450, 0x114D0, 0x11650, 0x116C0, 0x11730, 0x118E0,
  0x11950, 0x11C50, 0x11D50, 0x11DA0, 0x16A60, 0x16AC0, 0x16B50, 0x1D7CE, 0x1D7D8, 0x1D7E2,
  0x1D7EC, 0x1D7F6, 0x1E140, 0x1E2F0, 0x1E950, 0x1FBF0]

/-- The value of a decimal digit of any script. -/
def digitValue? (c : Char) : Option Nat :=
  (digitZeros.find? fun z => z ≤ c.toNat && c.toNat < z + 10).map (c.toNat - ·)

/-- Decimal digits of any script. -/
def isDigit (c : Char) : Bool := (digitValue? c).isSome

/-- How many digits an integer may have. -/
def digitLimit : Nat := 4300

/-- The blanks that may stand around an integer. -/
def isNumberBlank (c : Char) : Bool := isBlank c && !(0x1C ≤ c.toNat && c.toNat ≤ 0x1F)

/-- The values of digits with single low lines between them. -/
def digitValues? : List Char → Option (List Nat)
  | [] => none
  | [c] => (digitValue? c).map ([·])
  | c :: '_' :: s => do
    let value ← digitValue? c
    return value :: (← digitValues? s)
  | c :: s => do
    let value ← digitValue? c
    return value :: (← digitValues? s)

/-- The number that digits stand for. -/
def ofDigits (values : List Nat) : Nat := values.foldl (fun n value => 10 * n + value) 0

/-- A number without a sign. -/
def natural? (s : List Char) : Option Nat := do
  let values ← digitValues? s
  if values.length ≤ digitLimit then some (ofDigits values) else none

/-- An integer. -/
def integer? (s : List Char) : Option Int :=
  let s := ((s.dropWhile isNumberBlank).reverse.dropWhile isNumberBlank).reverse
  match s with
  | '-' :: s => (natural? s).map fun n => -n
  | '+' :: s => (natural? s).map Int.ofNat
  | s => (natural? s).map Int.ofNat

end VeLens.Text
