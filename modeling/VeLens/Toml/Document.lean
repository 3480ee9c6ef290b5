import VeLens.Toml.Scalar

/-!
# Configuration files

A configuration file is a row of statements, one on a line: a key with its value, the header of a
table, or the header of a further table in a list of tables. Keys may be dotted, and values may be
lists and tables that are written in one piece.

## Main definitions

* `value`: reads a value.
* `State`: the tables so far and what may no longer be added to them.
* `parse`: the table that a whole file stands for.

## Design notes

A table can be opened by one header only, and what is written in one piece is complete. The state
marks keys as `opened` or as `closed`. A closed key closes everything below it. Keys that are opened
by a dotted key stay open to others of the same table until the next header.

The readers of values call each other, at most twice for each character read, so twice the length
of the file bounds how deep the calls go. Apart from that there is only so much room for lists and
tables inside each other.

A file is read from left to right, and the first flaw is told.
-/

namespace VeLens.Toml

open Text

/-- The end of the line, unless the line has a character that no comment may have. -/
def endOfLine? (s : List Char) : Option (List Char) :=
  if (s.takeWhile (· != '\n')).any (isIllegal false) then none
  else some (s.dropWhile (· != '\n'))

/-- The end of a line is no longer than the text. -/
theorem length_le_of_endOfLine? {s rest : List Char} (h : endOfLine? s = some rest) :
    rest.length ≤ s.length := by
  unfold endOfLine? at h
  split at h
  · cases h
  · cases h
    exact (List.dropWhile_sublist _).length_le

/-- What follows a comment up to the end of its line. Without a comment it is the text itself. -/
def skipComment? (s : List Char) : Option (List Char) :=
  match s with
  | '#' :: s => endOfLine? s
  | s => some s

/-- What follows blanks, line feeds and comments. -/
def skipFiller? (s : List Char) : Option (List Char) :=
  match _shown : s.dropWhile isGapOrBreak with
  | '#' :: comment =>
    match _ended : endOfLine? comment with
    | none => none
    | some rest => skipFiller? rest
  | rest => some rest
termination_by s.length
decreasing_by
  have blank := (List.dropWhile_sublist isGapOrBreak (l := s)).length_le
  have short := length_le_of_endOfLine? _ended
  simp only [_shown, List.length_cons] at blank
  omega

/-- The characters of keys that are written without quotation marks. -/
def isKeyChar (c : Char) : Bool := c.isAlphanum || c == '-' || c == '_'

/-- One part of a key. -/
def keyPart? (s : List Char) : Option (String × List Char) :=
  match s with
  | '\'' :: _ => literalLine? s
  | '"' :: _ => basicLine? s
  | c :: _ =>
    if isKeyChar c then some (String.ofList (s.takeWhile isKeyChar), s.dropWhile isKeyChar)
    else none
  | [] => none

/-- A key of at most `n` parts with dots between them, and what follows it and the blanks after it.
-/
def key? : (n : Nat) → List Char → Option (List String × List Char)
  | 0, _ => none
  | n + 1, s => do
    let (part, s) ← keyPart? s
    match skipGap s with
    | '.' :: s =>
      let (parts, s) ← key? n (skipGap s)
      some (part :: parts, s)
    | s => some ([part], s)

/-- Changes the table at the end of a key, which is made if it does not exist. The last table of a
list of tables stands for the list if `throughLists` says so. -/
def Table.change (throughLists : Bool) (f : Table → Option Table) :
    (key : List String) → Table → Option Table
  | [], t => f t
  | k :: key, t =>
    match t.lookup k with
    | none => (Table.change throughLists f key []).map fun inner => t ++ [(k, .table inner)]
    | some (.table inner) =>
      (Table.change throughLists f key inner).map fun inner => Table.put k (.table inner) t
    | some (.list items) =>
      match throughLists, items.getLast? with
      | true, some (.table inner) =>
        (Table.change throughLists f key inner).map fun inner =>
          Table.put k (.list (items.dropLast ++ [.table inner])) t
      | _, _ => none
    | some _ => none

/-- Adds a key that the table does not have yet. -/
def Table.add (key : String) (value : Value) (t : Table) : Option Table :=
  if (t.lookup key).isSome then none else some (t ++ [(key, value)])

/-- The beginning of `key` is `start`. -/
def isBelow (start key : List String) : Bool := start.isPrefixOf key

/-- Adds a value to a table that is written in one piece, unless the key lies below a complete
value. -/
def addInline (closed : List (List String)) (key : List String) (value : Value) (t : Table) :
    Option Table :=
  if closed.any fun done => isBelow done key then none
  else Table.change false (Table.add (key.getLastD "") value) key.dropLast t

/-- Without a result the file does not follow the format. -/
def orMalformed {α : Type} : Option α → Except Flaw α
  | some a => .ok a
  | none => .error .malformed

/-- The room for lists and tables inside each other. -/
def fullRoom : Nat := 982

/-- The room that a list takes. -/
def listRoom : Nat := 2

/-- The room that a table takes. -/
def tableRoom : Nat := 3

/-- The room that is left when some of it is taken. -/
def takeRoom (room taken : Nat) : Except Flaw Nat :=
  if room < taken then .error .tooDeep else .ok (room - taken)

/-- A truth value, a date or time, or a number. -/
def word (s : List Char) : Except Flaw (Value × List Char) :=
  match after? ['t', 'r', 'u', 'e'] s, after? ['f', 'a', 'l', 's', 'e'] s with
  | some rest, _ => .ok (.boolean true, rest)
  | _, some rest => .ok (.boolean false, rest)
  | none, none =>
    ((moment? s).orElse fun _ => (number? s).orElse fun _ => special? s).getD (.error .malformed)

/-- A text between quotation marks as a value. -/
def quotedValue (read : Option (String × List Char)) : Except Flaw (Value × List Char) := do
  let (text, rest) ← orMalformed read
  return (.text text, rest)

mutual

/-- Reads a value, in at most `n` steps. -/
def value : (n room : Nat) → List Char → Except Flaw (Value × List Char)
  | 0, _, _ => .error .malformed
  | n + 1, room, s =>
    match s with
    | '"' :: _ => quotedValue (basicText? s)
    | '\'' :: _ => quotedValue (literalText? s)
    | '[' :: s => do
      let room ← takeRoom room listRoom
      match ← orMalformed (skipFiller? s) with
      | ']' :: rest => return (.list [], rest)
      | s =>
        let (list, rest) ← items n room s
        return (.list list, rest)
    | '\x7b' :: s => do
      let room ← takeRoom room tableRoom
      match skipGap s with
      | '\x7d' :: rest => return (.table [], rest)
      | s =>
        let (table, rest) ← fields n room [] [] s
        return (.table table, rest)
    | s => word s

/-- Reads the items of a list up to its closing bracket. -/
def items : (n room : Nat) → List Char → Except Flaw (List Value × List Char)
  | 0, _, _ => .error .malformed
  | n + 1, room, s => do
    let (item, s) ← value n room s
    match ← orMalformed (skipFiller? s) with
    | ']' :: rest => return ([item], rest)
    | ',' :: s =>
      match ← orMalformed (skipFiller? s) with
      | ']' :: rest => return ([item], rest)
      | s =>
        let (list, rest) ← items n room s
        return (item :: list, rest)
    | _ => .error .malformed

/-- Reads the fields of a table that is written in one piece, up to its closing brace. -/
def fields : (n room : Nat) → (closed : List (List String)) → Table → List Char →
    Except Flaw (Table × List Char)
  | 0, _, _, _, _ => .error .malformed
  | n + 1, room, closed, t, s => do
    let (key, s) ← orMalformed (key? n s)
    let s ← orMalformed (after? ['='] s)
    let (value, s) ← value n room (skipGap s)
    let t ← orMalformed (addInline closed key value t)
    match skipGap s with
    | '\x7d' :: rest => return (t, rest)
    | ',' :: s =>
      fields n room (if value.isContainer then key :: closed else closed) t (skipGap s)
    | _ => .error .malformed

end

/-- The tables so far, the key of the present table, the keys that no header may open again, those
that are about to become so, and the keys of complete values. -/
structure State where
  table : Table
  header : List String
  opened : List (List String)
  pending : List (List String)
  closed : List (List String)

namespace State

/-- Before the first statement. -/
def start : State := ⟨[], [], [], [], []⟩

/-- The key belongs to a complete value. -/
def isClosed (st : State) (key : List String) : Bool :=
  key ≠ [] && st.closed.any fun done => isBelow done key

/-- Adds a key with its value to the present table. -/
def add (st : State) (key : List String) (value : Value) : Option State := do
  let tables := (List.range (key.length - 1)).map fun i => st.header ++ key.take (i + 1)
  if tables.any fun table => st.opened.contains table then none
  else if st.isClosed (st.header ++ key.dropLast) then none
  else
    let whole := st.header ++ key
    let table ← Table.change true (Table.add (key.getLastD "") value) whole.dropLast st.table
    some { st with
      table := table
      pending := tables ++ st.pending
      closed := if value.isContainer then whole :: st.closed else st.closed }

/-- The keys that dotted keys have opened can no longer be opened by a header. -/
def settle (st : State) : State := { st with opened := st.pending ++ st.opened, pending := [] }

/-- Opens a table. -/
def openTable (st : State) (key : List String) : Option State :=
  if st.opened.contains key || st.isClosed key then none
  else do
    let table ← Table.change true some key st.table
    some { st with table := table, header := key, opened := key :: st.opened }

/-- Adds an empty table to a list of tables. -/
def pushTable (key : String) (t : Table) : Option Table :=
  match t.lookup key with
  | none => some (t ++ [(key, .list [.table []])])
  | some (.list items) => some (Table.put key (.list (items ++ [.table []])) t)
  | some _ => none

/-- Opens a further table of a list. The keys of the one before may be used again. -/
def openListed (st : State) (key : List String) : Option State :=
  if st.isClosed key then none
  else do
    let table ← Table.change true (pushTable (key.getLastD "")) key.dropLast st.table
    some { st with
      table := table
      header := key
      opened := key :: st.opened.filter fun other => !isBelow key other
      closed := st.closed.filter fun other => !isBelow key other }

end State

/-- Reads a key with its value from a text of at most `n` characters. -/
def assignment (n : Nat) (st : State) (s : List Char) : Except Flaw (State × List Char) := do
  let (key, s) ← orMalformed (key? n s)
  let s ← orMalformed (after? ['='] s)
  let (value, rest) ← value (2 * n) fullRoom (skipGap s)
  return (← orMalformed (st.add key value), rest)

/-- Reads a header, whose opening brackets are gone, from a text of at most `n` characters. -/
def header? (openIt : State → List String → Option State) (closing : List Char) (n : Nat)
    (st : State) (s : List Char) : Option (State × List Char) := do
  let (key, s) ← key? n (skipGap s)
  let st ← openIt st.settle key
  return (st, ← after? closing s)

/-- Reads the statement at the beginning of a text of at most `n` characters. -/
def statement (n : Nat) (st : State) (s : List Char) : Except Flaw (State × List Char) :=
  match s with
  | '[' :: '[' :: s => orMalformed (header? State.openListed [']', ']'] n st s)
  | '[' :: s => orMalformed (header? State.openTable [']'] n st s)
  | '#' :: _ => .ok (st, s)
  | s => assignment n st s

/-- Reads statements up to the end of a text of fewer than `n` characters. -/
def statements : (n : Nat) → State → List Char → Except Flaw State
  | 0, _, _ => .error .malformed
  | n + 1, st, s =>
    match skipGap s with
    | [] => .ok st
    | '\n' :: s => statements n st s
    | s => do
      let (st, s) ← statement (n + 1) st s
      match ← orMalformed (skipComment? (skipGap s)) with
      | [] => return st
      | '\n' :: s => statements n st s
      | _ => .error .malformed

/-- Line feeds in place of carriage returns that are followed by one. -/
def dropReturns : List Char → List Char
  | [] => []
  | '\r' :: '\n' :: s => '\n' :: dropReturns s
  | c :: s => c :: dropReturns s

/-- The table that a whole file stands for. -/
def parse (text : List Char) : Except Flaw Table := do
  let s := dropReturns text
  return (← statements (s.length + 1) .start s).table

end VeLens.Toml
