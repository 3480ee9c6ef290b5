import VeLens.Pattern.Bracket
import VeLens.Pattern.Marked

/-!
# Exclude patterns

A configuration excludes files by patterns. A pattern is compared with the whole path below the
workspace. A star stands for any text, slashes included, a question mark for any character, and
brackets for a character out of some members and ranges, or for any other character if the first
member is an exclamation mark. A bracket that is never closed stands for itself.

## Main definitions

* `Glob.expression`: the expression that a pattern stands for.
* `Glob.covers`: the pattern matches a path.

## Design notes

A range whose ends are in the wrong order holds nothing, and neither do its ends. Hyphens make
ranges from left to right: one that directly follows a range, or stands first or last, is a member.
-/

namespace VeLens.Pattern.Glob

/-- Splits members at the hyphens that make ranges. The first `skip` characters are not split off,
and after a hyphen the next two are passed over. -/
def chunksFrom (skip : Nat) (chunk : List Char) : List Char → List (List Char)
  | [] => [chunk]
  | c :: s =>
    match skip with
    | 0 => if c = '-' then chunk :: chunksFrom 2 [] s else chunksFrom 0 (chunk ++ [c]) s
    | skip + 1 => chunksFrom skip (chunk ++ [c]) s

/-- The chunks of the members between range hyphens. A hyphen at the very end belongs to the chunk
before it. -/
def chunks (members : List Char) : List (List Char) :=
  let all := chunksFrom (if members.head? = some '!' then 2 else 1) [] members
  match all.getLast?, all.dropLast.getLast? with
  | some [], some chunk => all.dropLast.dropLast ++ [chunk ++ ['-']]
  | _, _ => all

/-- Joins neighbouring chunks whose last and first characters would make a range in the wrong order,
without these two characters. -/
def mergeReversed : List (List Char) → List (List Char)
  | [] => []
  | chunk :: rest =>
    match mergeReversed rest with
    | [] => [chunk]
    | next :: others =>
      match chunk.getLast?, next.head? with
      | some hi, some lo =>
        if lo < hi then (chunk.dropLast ++ next.tail) :: others else chunk :: next :: others
      | _, _ => chunk :: next :: others

/-- A member in writing. Backslashes and what might be read as an operation on sets stand for
themselves, and so do hyphens, as those that make ranges are written between the chunks. -/
def memberMark (c : Char) : Mark :=
  if c ∈ ['\\', '-', '&', '~', '|'] then .plain c else .sign c

/-- The members in writing, with the hyphens that make ranges as signs. -/
def memberMarks (members : List Char) : List Mark :=
  if '-' ∈ members then
    ((mergeReversed (chunks members)).map fun chunk => chunk.map memberMark).intersperse
      [.sign '-'] |>.flatten
  else members.map memberMark

/-- The class that the members between brackets stand for. -/
def classOf (members : List Char) : CharClass :=
  match memberMarks members with
  | [] => .none
  | [.sign '!'] => .any
  | .sign '!' :: rest => ((class? (.sign '^' :: rest ++ [.sign ']'])).map Prod.fst).getD .none
  | .sign c :: rest =>
    let first : Mark := if c = '^' ∨ c = '[' then .plain c else .sign c
    ((class? (first :: rest ++ [.sign ']'])).map Prod.fst).getD .none
  | marks => ((class? (marks ++ [.sign ']'])).map Prod.fst).getD .none

/-- The expression that a pattern stands for. -/
def expression (s : List Char) : Expression :=
  match s with
  | [] => .empty
  | '*' :: s => .seq (.many .any) (expression s)
  | '?' :: s => .seq (.one .any) (expression s)
  | '[' :: s =>
    match _found : bracket? s with
    | some (members, rest) => .seq (.one (classOf members)) (expression rest)
    | none => .seq (.one (.single '[')) (expression s)
  | c :: s => .seq (.one (.single c)) (expression s)
termination_by s.length
decreasing_by
  all_goals simp only [List.length_cons]
  all_goals first
    | omega
    | (have short := length_lt_of_bracket? _found; omega)

/-- The pattern matches a path. -/
def covers (pattern path : String) : Bool :=
  (expression pattern.toList).matchesAll path.toList

end VeLens.Pattern.Glob
