/-!
# Brackets in patterns

Between brackets a pattern lists the characters of a class. A closing bracket directly after the
opening one, or after an exclamation mark there, is a member and does not close.
-/

namespace VeLens.Pattern

/-- The character `c` split off a text that begins with it. -/
def splitMark (c : Char) : List Char → List Char × List Char
  | [] => ([], [])
  | d :: s => if d = c then ([d], s) else ([], d :: s)

/-- Splitting off a character leaves no more than there was. -/
theorem length_splitMark_le (c : Char) (s : List Char) :
    (splitMark c s).2.length ≤ s.length := by
  cases s with
  | nil => simp [splitMark]
  | cons d s => simp only [splitMark]; split <;> simp

/-- The members between brackets and what follows the closing one, read from what follows the
opening one. -/
def bracket? (s : List Char) : Option (List Char × List Char) :=
  let (negation, s) := splitMark '!' s
  let (member, s) := splitMark ']' s
  match s.dropWhile (· != ']') with
  | [] => none
  | _ :: rest => some (negation ++ member ++ s.takeWhile (· != ']'), rest)

/-- What follows the brackets is shorter than what follows the opening one. -/
theorem length_lt_of_bracket? {s members rest : List Char}
    (h : bracket? s = some (members, rest)) : rest.length < s.length := by
  simp only [bracket?] at h
  split at h
  · simp at h
  · rename_i read
    simp only [Option.some.injEq, Prod.mk.injEq] at h
    have dropped := (List.dropWhile_sublist (· != ']')
      (l := (splitMark ']' (splitMark '!' s).2).2)).length_le
    rw [read, h.2, List.length_cons] at dropped
    have inner := length_splitMark_le ']' (splitMark '!' s).2
    have outer := length_splitMark_le '!' s
    omega

end VeLens.Pattern
