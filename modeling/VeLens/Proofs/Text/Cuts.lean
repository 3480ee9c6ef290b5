import Mathlib.Data.List.Basic
import VeLens.Text.Cut

/-!
# Text cut into pieces

Cutting a text at separators and joining pieces by separators undo each other, and known beginnings
and endings are found exactly where they stand.

## Main results

* `after?_eq_some_iff`, `beforeEnd?_eq_some_iff`: what is found after a beginning and before an
  ending.
* `takeWhile_append_of_stop`, `dropWhile_append_of_stop`: reading up to a stop.
* `pieces_append_cons`: a separator cuts a text into two independent parts.
* `pieces_joined`, `joined_pieces`: cutting and joining undo each other.
-/

namespace VeLens.Text

/-- Exactly the text that begins with `word` has something after it. -/
theorem after?_eq_some_iff {word s rest : List Char} :
    after? word s = some rest ↔ s = word ++ rest := by
  induction word generalizing s with
  | nil => simp [after?]
  | cons w ws ih =>
    cases s with
    | nil => simp [after?]
    | cons c s =>
      by_cases hc : w = c
      · subst hc
        simp [after?, ih]
      · simp [after?, hc, Ne.symm hc]

@[simp]
theorem after?_append (word s : List Char) : after? word (word ++ s) = some s :=
  after?_eq_some_iff.mpr rfl

theorem startsWith_iff {word s : List Char} : startsWith word s = true ↔ word <+: s := by
  rw [startsWith, Option.isSome_iff_exists]
  refine exists_congr fun rest => ?_
  rw [after?_eq_some_iff, eq_comm]

theorem beforeEnd?_eq_some_iff {word s front : List Char} :
    beforeEnd? word s = some front ↔ s = front ++ word := by
  rw [beforeEnd?, Option.map_eq_some_iff]
  constructor
  · rintro ⟨rest, hrest, rfl⟩
    rw [after?_eq_some_iff, List.reverse_eq_iff] at hrest
    simpa using hrest
  · rintro rfl
    exact ⟨front.reverse, by simp, List.reverse_reverse front⟩

theorem endsWith_iff {word s : List Char} : endsWith word s = true ↔ word <:+ s := by
  rw [endsWith, Option.isSome_iff_exists]
  refine exists_congr fun front => ?_
  rw [beforeEnd?_eq_some_iff, eq_comm]

theorem beforeEnd?_singleton_eq_none_iff {c : Char} {s : List Char} :
    beforeEnd? [c] s = none ↔ s.getLast? ≠ some c := by
  rw [Option.eq_none_iff_forall_not_mem, Ne, List.getLast?_eq_some_iff, not_exists]
  exact forall_congr' fun front => not_congr beforeEnd?_eq_some_iff

/-- A text that does not hold a character does not end with it. -/
theorem beforeEnd?_singleton_eq_none {c : Char} {s : List Char} (hc : c ∉ s) :
    beforeEnd? [c] s = none :=
  beforeEnd?_singleton_eq_none_iff.mpr fun hlast => hc (List.mem_of_getLast? hlast)

section Stop

variable {p : Char → Bool} {s rest : List Char} (hs : ∀ c ∈ s, p c = true)
  (hrest : ∀ c ∈ rest.head?, p c = false)

include hs hrest

/-- A text is read up to the first character at which the reading stops. -/
theorem takeWhile_append_of_stop : (s ++ rest).takeWhile p = s := by
  rw [List.takeWhile_append_of_pos hs]
  cases rest with
  | nil => simp
  | cons c rest => simp [hrest c rfl]

theorem dropWhile_append_of_stop : (s ++ rest).dropWhile p = rest := by
  rw [List.dropWhile_append_of_pos hs]
  cases rest with
  | nil => rfl
  | cons c rest => simp [hrest c rfl]

end Stop

theorem pieces_cons (sep c : Char) (s : List Char) : pieces sep (c :: s) =
    if c = sep then [] :: pieces sep s else consFirst c (pieces sep s) := rfl

theorem pieces_eq_splitOn (sep : Char) (s : List Char) : pieces sep s = s.splitOn sep := by
  induction s with
  | nil => rfl
  | cons c s ih =>
    rw [pieces_cons, ih, List.splitOn_cons_eq_if_modifyHead]
    by_cases hc : c = sep
    · simp [hc]
    · rw [if_neg hc, if_neg (by simpa using hc)]
      cases hs : s.splitOn sep with
      | nil => exact absurd hs (List.splitOn_ne_nil sep s)
      | cons p ps => rfl

theorem pieces_ne_nil (sep : Char) (s : List Char) : pieces sep s ≠ [] := by
  rw [pieces_eq_splitOn]
  exact List.splitOn_ne_nil sep s

/-- There is one piece more than there are separators. -/
theorem length_pieces (sep : Char) (s : List Char) :
    (pieces sep s).length = s.count sep + 1 := by
  induction s with
  | nil => rfl
  | cons c s ih =>
    rw [pieces_cons]
    by_cases hc : c = sep
    · rw [if_pos hc, hc, List.length_cons, ih, List.count_cons_self]
    · rw [if_neg hc, List.count_cons_of_ne hc, ← ih]
      cases hs : pieces sep s with
      | nil => exact absurd hs (pieces_ne_nil sep s)
      | cons p ps => rfl

theorem joined_eq_intercalate (sep : List Char) (ps : List (List Char)) :
    joined sep ps = sep.intercalate ps := by
  fun_induction joined sep ps with
  | case1 => rfl
  | case2 p => simp
  | case3 p ps hne ih => rw [ih, List.intercalate_cons_of_ne_nil (by simpa using hne)]

/-- The pieces on either side of a separator do not depend on the other side. -/
theorem pieces_append_cons (sep : Char) (s r : List Char) :
    pieces sep (s ++ sep :: r) = pieces sep s ++ pieces sep r := by
  simp only [pieces_eq_splitOn, List.splitOn_append_cons_self]

/-- Pieces without separators are found again in the joined text. -/
theorem pieces_joined {sep : Char} {ps : List (List Char)} (hne : ps ≠ [])
    (hps : ∀ p ∈ ps, sep ∉ p) : pieces sep (joined [sep] ps) = ps := by
  rw [joined_eq_intercalate, pieces_eq_splitOn]
  exact List.splitOn_intercalate sep hps hne

theorem joined_pieces (sep : Char) (s : List Char) : joined [sep] (pieces sep s) = s := by
  rw [joined_eq_intercalate, pieces_eq_splitOn, List.intercalate_splitOn]

theorem not_mem_of_mem_pieces {sep : Char} {s p : List Char} (hp : p ∈ pieces sep s) : sep ∉ p := by
  induction s generalizing p with
  | nil => simp_all [pieces]
  | cons c s ih =>
    rw [pieces_cons] at hp
    by_cases hc : c = sep
    · rw [if_pos hc, List.mem_cons] at hp
      rcases hp with rfl | hp
      · exact List.not_mem_nil
      · exact ih hp
    · rw [if_neg hc] at hp
      cases hs : pieces sep s with
      | nil => simp_all [consFirst, Ne.symm hc]
      | cons q qs =>
        rw [hs, consFirst, List.mem_cons] at hp
        rw [hs] at ih
        rcases hp with rfl | hp
        · rw [List.mem_cons, not_or]
          exact ⟨Ne.symm hc, ih List.mem_cons_self⟩
        · exact ih (List.mem_cons_of_mem q hp)

theorem mem_joined {sep : List Char} {ps : List (List Char)} {p : List Char} {c : Char}
    (hp : p ∈ ps) (hc : c ∈ p) : c ∈ joined sep ps := by
  fun_induction joined sep ps with
  | case1 => simp at hp
  | case2 q => rwa [List.mem_singleton.mp hp] at hc
  | case3 q ps _ ih =>
    rcases List.mem_cons.mp hp with rfl | hp
    · simp [hc]
    · exact List.mem_append_right _ (ih hp)

theorem not_mem_joined {sep : List Char} {ps : List (List Char)} {c : Char} (hsep : c ∉ sep)
    (hps : ∀ p ∈ ps, c ∉ p) : c ∉ joined sep ps := by
  fun_induction joined sep ps with
  | case1 => simp
  | case2 q => exact hps q (List.mem_singleton_self q)
  | case3 q ps _ ih =>
    have hq := hps q List.mem_cons_self
    have hrest := ih fun p hp => hps p (List.mem_cons_of_mem q hp)
    simp [hq, hsep, hrest]

theorem joined_cons {sep p : List Char} {ps : List (List Char)} (hne : ps ≠ []) :
    joined sep (p :: ps) = p ++ sep ++ joined sep ps := by
  cases ps with
  | nil => exact absurd rfl hne
  | cons q qs => rfl

/-- Two joined texts in a row are one, in which the last piece of the first goes on with the first
piece of the second. -/
theorem joined_concat_append (sep p q : List Char) (ps qs : List (List Char)) :
    joined sep (ps ++ [p]) ++ joined sep (q :: qs) = joined sep (ps ++ (p ++ q) :: qs) := by
  induction ps with
  | nil =>
    by_cases hne : qs = []
    · subst hne
      rfl
    · rw [List.nil_append, List.nil_append, joined_cons hne, joined_cons hne]
      simp [joined]
  | cons r ps ih =>
    have hleft : joined sep (r :: (ps ++ [p])) = r ++ sep ++ joined sep (ps ++ [p]) :=
      joined_cons (by simp)
    have hright : joined sep (r :: (ps ++ (p ++ q) :: qs)) =
        r ++ sep ++ joined sep (ps ++ (p ++ q) :: qs) := joined_cons (by simp)
    rw [List.cons_append, List.cons_append, hleft, hright, ← ih, List.append_assoc]

/-- The end of a separator may as well be the beginning of the pieces behind it. -/
theorem joined_append_sep (sep b p : List Char) (ps : List (List Char)) :
    joined (sep ++ b) (p :: ps) = joined sep (p :: ps.map (b ++ ·)) := by
  induction ps generalizing p with
  | nil => rfl
  | cons q ps ih =>
    have hfirst := joined_concat_append sep b q [] (ps.map (b ++ ·))
    rw [joined_cons (List.cons_ne_nil q ps), ih, List.map_cons,
      joined_cons (List.cons_ne_nil (b ++ q) _)]
    simp only [List.nil_append, joined] at hfirst
    rw [← hfirst]
    simp only [List.append_assoc]

end VeLens.Text
