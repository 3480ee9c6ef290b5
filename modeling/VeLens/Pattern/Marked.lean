import VeLens.Pattern.Expression

/-!
# Expressions in writing

An expression is written as a row of characters, of which some are signs and the others stand for
themselves. The signs are brackets around the members of a class, a hyphen for a range and a caret
for "none of these" inside the brackets, a point for any character but a line feed, a star for
repetition, parentheses and a bar for a choice, a question mark for what may be missing, and caret
and dollar for the two ends of the text.

## Main definitions

* `Mark`: a character in writing.
* `class?`: reads the members of a class up to its closing bracket.
* `expression?`: reads an expression.

## Design notes

A closing bracket right after the opening one, or after the caret there, is a member of the class.
Inside the brackets all other signs are members too.
-/

namespace VeLens.Pattern

/-- A character of a written expression: a sign, or one that stands for itself. -/
inductive Mark where
  | sign (c : Char)
  | plain (c : Char)
deriving DecidableEq

/-- The character of a mark. -/
def Mark.char : Mark → Char
  | sign c | plain c => c

/-- Reads the ranges of a class up to its closing bracket. -/
def ranges? : (isFirst : Bool) → List Mark → Option (List (Char × Char) × List Mark)
  | _, [] => none
  | isFirst, [m] => if m = .sign ']' ∧ ¬ isFirst then some ([], []) else none
  | isFirst, m :: n :: rest =>
    if m = .sign ']' ∧ ¬ isFirst then some ([], n :: rest)
    else if n = .sign '-' then
      match rest with
      | [] => none
      | .sign ']' :: rest => some ([(m.char, m.char), ('-', '-')], rest)
      | hi :: rest =>
        if m.char ≤ hi.char then
          (ranges? false rest).map fun (ranges, rest) => ((m.char, hi.char) :: ranges, rest)
        else none
    else (ranges? false (n :: rest)).map fun (ranges, rest) => ((m.char, m.char) :: ranges, rest)

/-- Reads a class from what follows its opening bracket. -/
def class? : List Mark → Option (CharClass × List Mark)
  | .sign '^' :: rest => (ranges? true rest).map fun (ranges, rest) => (⟨true, ranges⟩, rest)
  | rest => (ranges? true rest).map fun (ranges, rest) => (⟨false, ranges⟩, rest)

/-- A class or a run of it, as a star follows or not. -/
def repeated (k : CharClass) : List Mark → Expression × List Mark
  | .sign '*' :: rest => (.many k, rest)
  | .sign '?' :: rest => (.alt (.one k) .empty, rest)
  | rest => (.one k, rest)

/-- An expression that may be missing, as a question mark follows or not. -/
def optional (e : Expression) : List Mark → Expression × List Mark
  | .sign '?' :: rest => (.alt e .empty, rest)
  | rest => (e, rest)

/-- Reads a row of choices up to the end or to a closing parenthesis, in at most `n` steps. The
expression read so far in the present choice is `before`. -/
def choices? : (n : Nat) → (before : Expression) → List Mark → Option (Expression × List Mark)
  | 0, _, _ => none
  | _ + 1, before, [] => some (before, [])
  | n + 1, before, m :: rest =>
    match m with
    | .sign ')' => some (before, m :: rest)
    | .sign '|' => (choices? n .empty rest).map fun (e, rest) => (.alt before e, rest)
    | .sign '^' => choices? n (.seq before .start) rest
    | .sign '$' => choices? n (.seq before .stop) rest
    | .sign '(' =>
      match choices? n .empty rest with
      | some (e, .sign ')' :: rest) =>
        let (e, rest) := optional e rest
        choices? n (.seq before e) rest
      | _ => none
    | .sign '[' =>
      match class? rest with
      | some (k, rest) =>
        let (e, rest) := repeated k rest
        choices? n (.seq before e) rest
      | none => none
    | .sign '.' =>
      let (e, rest) := repeated (.butNot '\n') rest
      choices? n (.seq before e) rest
    | .sign '*' | .sign '?' => none
    | .sign c | .plain c =>
      let (e, rest) := repeated (.single c) rest
      choices? n (.seq before e) rest

/-- Reads an expression that takes up all marks. -/
def expression? (marks : List Mark) : Option Expression :=
  match choices? (marks.length + 1) .empty marks with
  | some (e, []) => some e
  | _ => none

end VeLens.Pattern
