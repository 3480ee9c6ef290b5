import VeLens.Text.Cut
import VeLens.Text.Integer
import VeLens.Toml.Value

/-!
# Texts, numbers and dates in configuration files

Readers for the values that are not made of other values. Each takes a text and returns what it has
read together with what follows, or nothing if the text is not of its form. A number or a date may
be of its form and have a flaw all the same.

## Main definitions

* `basicText?`, `literalText?`: texts between double and between single quotation marks.
* `number?`: whole and decimal numbers.
* `moment?`: dates and times.
* `Flaw`: why a file is not read to its end.
-/

namespace VeLens.Toml

open Text

/-- Why a file is not read to its end. -/
inductive Flaw where
  /-- It does not follow the format. -/
  | malformed
  /-- A whole number has too many digits. -/
  | longNumber (digits : Nat)
  /-- Lists and tables are nested too deep. -/
  | tooDeep
deriving DecidableEq

/-- A space or a tab. -/
def isGap (c : Char) : Bool := c == ' ' || c == '\t'

/-- A space, a tab or a line feed. -/
def isGapOrBreak (c : Char) : Bool := isGap c || c == '\n'

/-- What follows spaces and tabs. -/
def skipGap (s : List Char) : List Char := s.dropWhile isGap

/-- A control character that may not stand in a text. A tab may, and a line feed too if the text
goes over several lines. -/
def isIllegal (overLines : Bool) (c : Char) : Bool :=
  (c.toNat < 32 || c.toNat == 127) && c != '\t' && !(overLines && c == '\n')

/-- The value of a hexadecimal digit. -/
def hexDigit? (c : Char) : Option Nat :=
  if '0' ≤ c ∧ c ≤ '9' then some (c.toNat - '0'.toNat)
  else if 'a' ≤ c ∧ c ≤ 'f' then some (c.toNat - 'a'.toNat + 10)
  else if 'A' ≤ c ∧ c ≤ 'F' then some (c.toNat - 'A'.toNat + 10)
  else none

/-- The number that some digits in a base stand for. -/
def numberIn (base : Nat) (digits : List Nat) : Nat := digits.foldl (fun n d => n * base + d) 0

/-- The character with the code that the first `n` characters give. -/
def codedChar? (n : Nat) (s : List Char) : Option Char := do
  let digits ← (s.take n).mapM hexDigit?
  let code := numberIn 16 digits
  if digits.length = n ∧ (code < 0xD800 ∨ (0xDFFF < code ∧ code < 0x110000)) then
    some (Char.ofNat code)
  else none

/-- The character that a letter after a backslash stands for. -/
def escaped? (c : Char) : Option Char :=
  match c with
  | 'b' => some (Char.ofNat 8)
  | 't' => some '\t'
  | 'n' => some '\n'
  | 'f' => some (Char.ofNat 12)
  | 'r' => some '\r'
  | '"' => some '"'
  | '\\' => some '\\'
  | _ => none

/-- Up to two quotation marks that stand directly before the closing three belong to the text. -/
def extraMarks (mark : Char) : List Char → List Char × List Char
  | a :: b :: s =>
    if a = mark then if b = mark then ([a, b], s) else ([a], b :: s) else ([], a :: b :: s)
  | [a] => if a = mark then ([a], []) else ([], [a])
  | [] => ([], [])

/-- What follows a backslash that joins two lines: spaces, a line feed and all blanks after it. -/
def joinedLine? (s : List Char) : Option (List Char) :=
  match skipGap s with
  | '\n' :: s => some (s.dropWhile isGapOrBreak)
  | _ => none

/-- What follows a joined line is shorter. -/
theorem length_lt_of_joinedLine? {s rest : List Char} (h : joinedLine? s = some rest) :
    rest.length < s.length := by
  simp only [joinedLine?] at h
  split at h
  · rename_i s' read
    have outer := (List.dropWhile_sublist isGap (l := s)).length_le
    have inner := (List.dropWhile_sublist isGapOrBreak (l := s')).length_le
    simp only [skipGap] at read
    simp only [Option.some.injEq] at h
    rw [read, List.length_cons] at outer
    rw [h] at inner
    omega
  · simp at h

/-- The rest of a text between double quotation marks, up to its closing ones. -/
def basicBody? (overLines : Bool) (s : List Char) : Option (List Char × List Char) :=
  match s with
  | [] => none
  | '"' :: s =>
    if overLines then
      match after? ['"', '"'] s with
      | some rest => some (extraMarks '"' rest)
      | none => (basicBody? overLines s).map fun (text, rest) => ('"' :: text, rest)
    else some ([], s)
  | '\\' :: c :: s =>
    if c = 'u' then do
      let char ← codedChar? 4 s
      (basicBody? overLines (s.drop 4)).map fun (text, rest) => (char :: text, rest)
    else if c = 'U' then do
      let char ← codedChar? 8 s
      (basicBody? overLines (s.drop 8)).map fun (text, rest) => (char :: text, rest)
    else
      match escaped? c with
      | some char => (basicBody? overLines s).map fun (text, rest) => (char :: text, rest)
      | none =>
        if overLines then
          match _joined : joinedLine? (c :: s) with
          | some rest => basicBody? overLines rest
          | none => none
        else none
  | c :: s =>
    if isIllegal overLines c ∨ c = '\\' then none
    else (basicBody? overLines s).map fun (text, rest) => (c :: text, rest)
termination_by s.length
decreasing_by
  all_goals simp only [List.length_cons, List.length_drop]
  all_goals first
    | omega
    | (have short := length_lt_of_joinedLine? _joined
       rw [List.length_cons] at short
       omega)

/-- What follows the line feed that may come right after three opening quotation marks. -/
def dropBreak (s : List Char) : List Char := (after? ['\n'] s).getD s

/-- A text between double quotation marks, or between three of them on each side. -/
def basicText? (s : List Char) : Option (String × List Char) := do
  match after? ['"', '"', '"'] s with
  | some s => (basicBody? true (dropBreak s)).map fun (text, rest) => (String.ofList text, rest)
  | none =>
    let s ← after? ['"'] s
    (basicBody? false s).map fun (text, rest) => (String.ofList text, rest)

/-- A text between double quotation marks on one line. -/
def basicLine? (s : List Char) : Option (String × List Char) := do
  let s ← after? ['"'] s
  (basicBody? false s).map fun (text, rest) => (String.ofList text, rest)

/-- The text up to the first three single quotation marks. -/
def literalBody? : List Char → Option (List Char × List Char)
  | [] => none
  | c :: s =>
    match after? ['\'', '\'', '\''] (c :: s) with
    | some rest => some (extraMarks '\'' rest)
    | none =>
      if isIllegal true c then none
      else (literalBody? s).map fun (text, rest) => (c :: text, rest)

/-- A text between single quotation marks on one line. -/
def literalLine? (s : List Char) : Option (String × List Char) := do
  let s ← after? ['\''] s
  let text := s.takeWhile (· != '\'')
  let rest ← after? ['\''] (s.dropWhile (· != '\''))
  if text.any (isIllegal false) then none else some (String.ofList text, rest)

/-- A text between single quotation marks, or between three of them on each side. -/
def literalText? (s : List Char) : Option (String × List Char) :=
  match after? ['\'', '\'', '\''] s with
  | some s => (literalBody? (dropBreak s)).map fun (text, rest) => (String.ofList text, rest)
  | none => literalLine? s

/-- Further digits of a number, each possibly after an underscore. -/
def moreDigits (value? : Char → Option Nat) : List Char → List Nat × List Char
  | [] => ([], [])
  | [c] =>
    match value? c with
    | some d => ([d], [])
    | none => ([], [c])
  | c :: d :: s =>
    match value? c with
    | some value =>
      let (digits, rest) := moreDigits value? (d :: s)
      (value :: digits, rest)
    | none =>
      match c, value? d with
      | '_', some value =>
        let (digits, rest) := moreDigits value? s
        (value :: digits, rest)
      | _, _ => ([], c :: d :: s)

/-- The digits of a number, of which there is at least one. -/
def digits? (value? : Char → Option Nat) : List Char → Option (List Nat × List Char)
  | [] => none
  | c :: s => do
    let value ← value? c
    let (digits, rest) := moreDigits value? s
    some (value :: digits, rest)

/-- The value of a digit in a base of at most sixteen. -/
def digitIn? (base : Nat) (c : Char) : Option Nat := (hexDigit? c).filter (· < base)

/-- A whole number in base sixteen, eight or two. -/
def basedNumber? : List Char → Option (Int × List Char)
  | '0' :: mark :: s => do
    let base ←
      match mark with
      | 'x' => some 16
      | 'o' => some 8
      | 'b' => some 2
      | _ => none
    let (digits, rest) ← digits? (digitIn? base) s
    some (numberIn base digits, rest)
  | _ => none

/-- A sign, if there is one: whether it is a minus, and what follows. -/
def sign : List Char → Bool × List Char
  | '-' :: s => (true, s)
  | '+' :: s => (false, s)
  | s => (false, s)

/-- The whole part of a decimal number, without needless zeros. -/
def wholePart? : List Char → Option (List Nat × List Char)
  | '0' :: s => some ([0], s)
  | s => digits? (digitIn? 10) s

/-- The digits after a decimal point. -/
def fraction? : List Char → Option (List Nat × List Char)
  | '.' :: s => digits? (digitIn? 10) s
  | _ => none

/-- The power of ten after the letter e. -/
def exponent? : List Char → Option (Int × List Char)
  | c :: s =>
    if c = 'e' ∨ c = 'E' then do
      let (isNegative, s) := sign s
      let (digits, rest) ← digits? (digitIn? 10) s
      let n : Int := numberIn 10 digits
      some (if isNegative then -n else n, rest)
    else none
  | [] => none

/-- A number in base ten. It is whole unless it has a fraction or a power of ten. A whole number may
not have too many digits. -/
def decimalNumber? (s : List Char) : Option (Except Flaw (Value × List Char)) := do
  let (isNegative, s) := sign s
  let (whole, s) ← wholePart? s
  let fraction := fraction? s
  let (places, s) := fraction.getD ([], s)
  let power := exponent? s
  let (exponent, s) := power.getD (0, s)
  if fraction.isSome ∨ power.isSome then
    let digits := numberIn 10 (whole ++ places)
    some (.ok (.decimal (.finite isNegative digits (exponent - places.length)), s))
  else if digitLimit < whole.length then some (.error (.longNumber whole.length))
  else
    let n : Int := numberIn 10 whole
    some (.ok (.integer (if isNegative then -n else n), s))

/-- A number. -/
def number? (s : List Char) : Option (Except Flaw (Value × List Char)) :=
  match basedNumber? s with
  | some (n, rest) => some (.ok (.integer n, rest))
  | none => decimalNumber? s

/-- The words for infinity and for what is no number, with or without a sign. -/
def special? (s : List Char) : Option (Except Flaw (Value × List Char)) :=
  let unsigned := (sign s).2
  match after? ['i', 'n', 'f'] unsigned with
  | some rest => some (.ok (.decimal .infinite, rest))
  | none => (after? ['n', 'a', 'n'] unsigned).map fun rest => .ok (.decimal .notNumber, rest)

/-- A number of exactly `n` digits. -/
def fixed? (n : Nat) (s : List Char) : Option (Nat × List Char) := do
  let digits ← (s.take n).mapM (digitIn? 10)
  if digits.length = n then some (numberIn 10 digits, s.drop n) else none

/-- A number of two digits within bounds. -/
def twoDigits? (lo hi : Nat) (s : List Char) : Option (Nat × List Char) := do
  let (n, rest) ← fixed? 2 s
  if lo ≤ n ∧ n ≤ hi then some (n, rest) else none

/-- What follows a time of day. -/
def time? (s : List Char) : Option (List Char) := do
  let (_, s) ← twoDigits? 0 23 s
  let s ← after? [':'] s
  let (_, s) ← twoDigits? 0 59 s
  let s ← after? [':'] s
  let (_, s) ← twoDigits? 0 59 s
  match s with
  | '.' :: c :: rest =>
    if c.isDigit then some (rest.dropWhile Char.isDigit) else some s
  | _ => some s

/-- What follows a distance from universal time, or the text itself if there is none. -/
def skipOffset (s : List Char) : List Char :=
  match s with
  | c :: rest =>
    if c = 'Z' ∨ c = 'z' then rest
    else if c = '+' ∨ c = '-' then
      (do
        let (_, rest) ← twoDigits? 0 23 rest
        let rest ← after? [':'] rest
        let (_, rest) ← twoDigits? 0 59 rest
        some rest).getD s
    else s
  | [] => s

/-- A year, a month and a day. -/
def date? (s : List Char) : Option ((Nat × Nat × Nat) × List Char) := do
  let (year, s) ← fixed? 4 s
  let s ← after? ['-'] s
  let (month, s) ← twoDigits? 1 12 s
  let s ← after? ['-'] s
  let (day, s) ← twoDigits? 1 31 s
  some ((year, month, day), s)

/-- A year with a leap day. -/
def isLeap (year : Nat) : Bool := year % 4 == 0 && (year % 100 != 0 || year % 400 == 0)

/-- The number of days of a month. -/
def monthDays (year month : Nat) : Nat :=
  if month = 2 then if isLeap year then 29 else 28
  else if month = 4 ∨ month = 6 ∨ month = 9 ∨ month = 11 then 30
  else 31

/-- What follows the time of day after a date, or the text itself if there is none. -/
def skipTime (s : List Char) : List Char :=
  match s with
  | c :: rest =>
    if c = 'T' ∨ c = 't' ∨ c = ' ' then ((time? rest).map skipOffset).getD s else s
  | [] => s

/-- A date, with or without a time of day, or a time of day. The date must exist. -/
def moment? (s : List Char) : Option (Except Flaw (Value × List Char)) :=
  match date? s with
  | some ((year, month, day), rest) =>
    if 1 ≤ year ∧ day ≤ monthDays year month then some (.ok (.moment, skipTime rest))
    else some (.error .malformed)
  | none => (time? s).map fun rest => .ok (.moment, rest)

end VeLens.Toml
