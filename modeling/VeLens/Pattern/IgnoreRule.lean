import VeLens.Fault
import VeLens.Pattern.Bracket
import VeLens.Pattern.Marked
import VeLens.Text.Blank
import VeLens.Text.Cut

/-!
# Rules of ignore files

Each line of an ignore file is a rule that hides paths, or shows them again if it begins with an
exclamation mark. A star stands for any text without slashes, a question mark for any character but
a slash, two stars between slashes for any number of folders, and brackets for a character out of
some. A rule with a slash before its end is tied to the folder of the ignore file. Any other rule
applies at every depth.

## Main definitions

* `IgnoreRule.parse`: the rule on a line, if there is one.
* `IgnoreRule.hides`: what a list of rules says about a path.

## Design notes

A rule is turned into a written expression and read back. Slashes between brackets are left out, so
brackets that hold slashes only, or slashes after an exclamation mark, have no members of their own.
In the second case the class goes on until the next closing bracket of the written expression, or
the rule is broken if there is none. A broken rule is noticed when a path is compared with it, but a
rule that is too short to be read spoils the whole file.
-/

namespace VeLens.Pattern

open Text

/-- A rule: whether it shows paths again, and the expression for the paths that it applies to, which
is missing in a broken rule. -/
structure IgnoreRule where
  isNegated : Bool
  expression : Option Expression

namespace IgnoreRule

/-- A star. -/
def isStar (c : Char) : Bool := c == '*'

/-- Runs of two or more stars after a character that is no slash become single stars. -/
def collapseAfter : List Char → List Char
  | [] => []
  | c :: s =>
    if c ≠ '/' ∧ 2 ≤ (s.takeWhile isStar).length then
      c :: '*' :: collapseAfter (s.dropWhile isStar)
    else c :: collapseAfter s
termination_by s => s.length
decreasing_by
  all_goals have short := (List.dropWhile_sublist isStar (l := s)).length_le
  all_goals simp only [List.length_cons]
  all_goals omega

/-- Runs of two or more stars before a character that is no slash become single stars. A star may
itself be that character. -/
def collapseBefore : List Char → List Char
  | [] => []
  | c :: s =>
    let more := (s.takeWhile isStar).length
    if c = '*' ∧ 1 ≤ more then
      match _read : s.dropWhile isStar with
      | d :: rest =>
        if d ≠ '/' then '*' :: d :: collapseBefore rest
        else if 2 ≤ more then '*' :: '*' :: collapseBefore (d :: rest)
        else '*' :: collapseBefore s
      | [] => if 2 ≤ more then ['*', '*'] else '*' :: collapseBefore s
    else c :: collapseBefore s
termination_by s => s.length
decreasing_by
  all_goals have short := (List.dropWhile_sublist isStar (l := s)).length_le
  all_goals simp only [List.length_cons]
  all_goals first
    | omega
    | (rw [_read, List.length_cons] at short; omega)

/-- A text without its first character, which must exist, if that is a slash. -/
def dropSlash : List Char → Except Fault (List Char)
  | [] => .error .shortRule
  | '/' :: s => .ok s
  | s => .ok s

/-- A text without its last character, which must exist, if that is a slash. -/
def dropLastSlash (s : List Char) : Except Fault (List Char) :=
  match s.getLast? with
  | none => .error .shortRule
  | some c => .ok (if c = '/' then s.dropLast else s)

/-- A text without a backslash before a first character that would otherwise have a meaning. -/
def unescapeFirst : List Char → Except Fault (List Char)
  | [] => .error .shortRule
  | ['\\'] => .error .shortRule
  | '\\' :: c :: s => .ok (if c = '#' ∨ c = '!' then c :: s else '\\' :: c :: s)
  | s => .ok s

/-- Takes spaces off the end of a text that is given from its end. A space after a backslash stays,
and the spaces before it stay as well. The first two characters are never touched. -/
def unpad (isKept : Bool) : List Char → List Char
  | ' ' :: b :: c :: s =>
    if b = '\\' then ' ' :: unpad true (c :: s)
    else if isKept then ' ' :: unpad true (b :: c :: s)
    else unpad false (b :: c :: s)
  | s => s

/-- A character outside the slash, in writing. -/
def noSlash : List Mark := [.sign '[', .sign '^', .plain '/', .sign ']']

/-- A slash, in writing. -/
def slash : List Mark := [.sign '[', .plain '/', .sign ']']

/-- Any text, in writing. -/
def anyText : List Mark := [.sign '.', .sign '*']

/-- Any number of folders, in writing. -/
def anyFolders : List Mark := [.sign '('] ++ anyText ++ slash ++ [.sign ')', .sign '?']

/-- A member of a class, in writing. -/
def memberMark (c : Char) : Mark := if c = '\\' then .plain c else .sign c

/-- A class, in writing. Slashes are left out. -/
def classMarks (members : List Char) : Except Fault (List Mark) :=
  match members.filter (· != '/') with
  | [] => .error .shortRule
  | c :: rest =>
    let first : Mark :=
      if c = '!' then .sign '^' else if c = '^' then .plain '^' else memberMark c
    .ok (.sign '[' :: first :: rest.map memberMark ++ [.sign ']'])

/-- A pattern, in writing. -/
def bodyMarks (s : List Char) : Except Fault (List Mark) :=
  match s with
  | [] => .ok []
  | '*' :: '*' :: '/' :: s => do return anyFolders ++ (← bodyMarks s)
  | '*' :: '*' :: s => do return anyText ++ (← bodyMarks s)
  | '*' :: s => do return noSlash ++ [.sign '*'] ++ (← bodyMarks s)
  | '?' :: s => do return noSlash ++ (← bodyMarks s)
  | '/' :: s => do return slash ++ (← bodyMarks s)
  | '[' :: s =>
    match _found : bracket? s with
    | some (members, rest) => do return (← classMarks members) ++ (← bodyMarks rest)
    | none => do return .plain '[' :: (← bodyMarks s)
  | c :: s => do return .plain c :: (← bodyMarks s)
termination_by s.length
decreasing_by
  all_goals simp only [List.length_cons]
  all_goals first
    | omega
    | (have short := length_lt_of_bracket? _found; omega)

/-- Where a rule applies, in writing: from the folder of the file, or from any folder. -/
def startMarks (isAnchored : Bool) : List Mark :=
  if isAnchored then [.sign '^']
  else [.sign '(', .sign '^', .sign '|'] ++ slash ++ [.sign ')']

/-- What may follow a pattern, in writing. A pattern for folders also applies to what is below. -/
def stopMarks (isFolder isNegated : Bool) : List Mark :=
  if !isFolder then [.sign '$']
  else if isNegated then [.plain '/', .sign '$']
  else [.sign '(', .sign '$', .sign '|', .plain '/', .sign ')']

/-- Two stars at the beginning of a pattern free it from its folder. -/
def freed (isAnchored : Bool) : List Char → Except Fault (Bool × List Char)
  | [] => .error .shortRule
  | '*' :: '*' :: s => .ok (false, s)
  | s => .ok (isAnchored, s)

/-- The rule on a line. Blank lines and comments hold none, and neither does a lone slash. -/
def parse (line : List Char) : Except Fault (Option IgnoreRule) :=
  if allBlank line ∨ line.head? = some '#' then .ok none
  else
    let isNegated := line.head? = some '!'
    let s := collapseBefore (collapseAfter (if isNegated then line.tail else line))
    if trimRight s = ['/'] then .ok none
    else do
      let isFolder := s.getLast? = some '/'
      let (isAnchored, s) ← freed (s.dropLast.contains '/') (← dropSlash s)
      let s ← unescapeFirst (← dropLastSlash (← dropSlash s))
      let body ← bodyMarks (unpad false s.reverse).reverse
      let marks := startMarks isAnchored ++ body ++ stopMarks isFolder isNegated
      return some ⟨isNegated, expression? marks⟩

/-- The rule applies to a path. -/
def applies (rule : IgnoreRule) (path : List Char) : Except Fault Bool :=
  match rule.expression with
  | some e => .ok (e.occursIn path)
  | none => .error .brokenRule

/-- What the first rule that applies says about a path: whether it hides it. -/
def firstVerdict (path : List Char) : List IgnoreRule → Except Fault Bool
  | [] => .ok false
  | rule :: rules => do
    if ← rule.applies path then return !rule.isNegated else firstVerdict path rules

/-- What a list of rules says about a path. The last rule that applies decides. If no rule shows
paths again, the order does not matter and the first one is as good. -/
def hides (rules : List IgnoreRule) (path : List Char) : Except Fault Bool :=
  firstVerdict path (if rules.any isNegated then rules.reverse else rules)

/-- The rules on some lines. -/
def parseAll : (lines : List (List Char)) → Except Fault (List IgnoreRule)
  | [] => .ok []
  | line :: lines => do
    let rule ← parse line
    let rules ← parseAll lines
    return rule.toList ++ rules

end IgnoreRule

end VeLens.Pattern
