/-!
# Values of a configuration file

Configuration files follow the format TOML. Its values are texts, whole and decimal numbers, truth
values, dates and times, lists and tables. A table keeps its keys in the order of the file.

A decimal number means the nearest number of double precision: the nearest multiple of a power of
two that leaves 53 binary digits, a half going to the even neighbour.

## Main definitions

* `Decimal`: a decimal number as written.
* `Decimal.wholeNear?`: the whole number that a quotient is in double precision.
* `Decimal.whole?`: the same for a decimal number, if it is not too great.
* `Value`: a value, and `Table`, the keys of a table with their values.

## Design notes

All arithmetic is on whole numbers and exact. What is rounded is the quotient of two of them,
counted in steps of `2 ^ -places`. No number of double precision is finer than `2 ^ -1074`.
-/

namespace VeLens.Toml

/-- A decimal number as written: digits and the power of ten that they are counted in. -/
inductive Decimal where
  | finite (isNegative : Bool) (digits : Nat) (exponent : Int)
  | infinite
  | notNumber
deriving DecidableEq

namespace Decimal

/-- How many decimal digits a positive number has. -/
def digitCount (n : Nat) : Nat := (Nat.toDigits 10 n).length

/-- The quotient rounded to the nearest whole number, a half to the even neighbour. -/
def roundDiv (num den : Nat) : Nat :=
  let quotient := num / den
  let rest := num % den
  if 2 * rest < den then quotient
  else if den < 2 * rest then quotient + 1
  else quotient + quotient % 2

/-- The greatest power of two that is no more than a positive quotient, by its exponent. -/
def powerBelow (num den : Nat) : Int :=
  let guess : Int := (Nat.log2 num : Int) - Nat.log2 den
  if num * Nat.pow 2 (-guess).toNat < den * Nat.pow 2 guess.toNat then guess - 1 else guess

/-- How many binary places a positive quotient is rounded to in double precision. Above `2 ^ 53`
whole numbers are rounded too, and the count is negative. -/
def places (num den : Nat) : Int := min 1074 (52 - powerBelow num den)

/-- A positive quotient in double precision, if it is a whole number then. -/
def wholeNear? (num den : Nat) : Option Nat :=
  let coarse := Nat.pow 2 (-places num den).toNat
  let fine := Nat.pow 2 (places num den).toNat
  let steps := roundDiv (num * fine) (den * coarse) * coarse
  if steps % fine = 0 then some (steps / fine) else none

/-- The whole number that is nearest in double precision. There is none if the nearest number is not
whole or not less than `2 ^ 63` in size. Sizes that are far off are told by their decimal places. -/
def whole? : Decimal → Option Int
  | finite isNegative digits exponent =>
    let decimals := digitCount digits + exponent
    if digits = 0 ∨ decimals < -400 then some 0
    else if 20 < decimals then none
    else do
      let near ← wholeNear? (digits * Nat.pow 10 exponent.toNat) (Nat.pow 10 (-exponent).toNat)
      if near < Nat.pow 2 63 then some (if isNegative then -near else near) else none
  | _ => none

end Decimal

/-- A value of a configuration file. Of dates and times only the kind is kept. -/
inductive Value where
  | text (content : String)
  | integer (number : Int)
  | decimal (number : Decimal)
  | boolean (value : Bool)
  | moment
  | list (items : List Value)
  | table (fields : List (String × Value))

/-- The keys of a table with their values, in the order of the file. -/
abbrev Table := List (String × Value)

/-- A list or a table. -/
def Value.isContainer : Value → Bool
  | .list _ | .table _ => true
  | _ => false

/-- The table with the value of a key put in place of the old one, or added at the end. -/
def Table.put (key : String) (value : Value) : Table → Table
  | [] => [(key, value)]
  | (k, old) :: rest =>
    if k = key then (key, value) :: rest else (k, old) :: Table.put key value rest

end VeLens.Toml
