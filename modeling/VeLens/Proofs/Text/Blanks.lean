import Mathlib.Data.List.DropRight
import Mathlib.Data.List.TakeWhile
import VeLens.Text.Blank

/-!
# Trimmed text

Trimming takes a prefix and a suffix of blanks away and leaves the rest as it is. The lemmas below
say what it does to texts that are put together from blanks and other parts.

## Main results

* `trim_eq_self`: a text without blanks at its ends is left alone.
* `trim_append_blanks`: blanks around a text do not change what trimming gives.
* `drop_trimRight`: the two ends can be cut one after the other.
* `trimRight_take`: a cut among the blanks at the end takes away only blanks.
-/

namespace VeLens.Text

@[simp]
theorem trimRight_nil : trimRight [] = [] := rfl

theorem trimRight_eq_rdropWhile (s : List Char) : trimRight s = s.rdropWhile isBlank := rfl

theorem trimRight_trimRight (s : List Char) : trimRight (trimRight s) = trimRight s :=
  List.rdropWhile_idempotent _ s

theorem isSuffix_trimLeft (s : List Char) : trimLeft s <:+ s := List.dropWhile_suffix _

theorem isPrefix_trimRight (s : List Char) : trimRight s <+: s := List.rdropWhile_prefix _ _

theorem length_trim_le (s : List Char) : (trim s).length ≤ s.length :=
  (isPrefix_trimRight _).length_le.trans (isSuffix_trimLeft s).length_le

theorem allBlank_iff {s : List Char} : allBlank s = true ↔ ∀ c ∈ s, isBlank c = true :=
  List.all_eq_true

theorem not_mem_of_allBlank {c : Char} {b : List Char} (hc : isBlank c = false)
    (hb : allBlank b = true) : c ∉ b := by
  intro hmem
  rw [allBlank_iff.mp hb c hmem] at hc
  exact Bool.noConfusion hc

theorem trimLeft_eq_nil_iff {s : List Char} : trimLeft s = [] ↔ allBlank s = true := by
  rw [trimLeft, List.dropWhile_eq_nil_iff, allBlank_iff]

theorem trimRight_eq_nil_iff {s : List Char} : trimRight s = [] ↔ allBlank s = true := by
  rw [trimRight_eq_rdropWhile, List.rdropWhile_eq_nil_iff, allBlank_iff]

theorem trimLeft_cons_of_not_blank {c : Char} {s : List Char} (hc : isBlank c = false) :
    trimLeft (c :: s) = c :: s :=
  List.dropWhile_cons_of_neg (by simp [hc])

theorem trimRight_concat_of_not_blank {c : Char} {s : List Char} (hc : isBlank c = false) :
    trimRight (s ++ [c]) = s ++ [c] :=
  List.rdropWhile_concat_neg _ _ _ (by simp [hc])

theorem trimLeft_append_of_allBlank {b s : List Char} (hb : allBlank b = true) :
    trimLeft (b ++ s) = trimLeft s :=
  List.dropWhile_append_of_pos (allBlank_iff.mp hb)

theorem trimRight_append_of_allBlank {s b : List Char} (hb : allBlank b = true) :
    trimRight (s ++ b) = trimRight s := by
  have hr : ∀ c ∈ b.reverse, isBlank c = true := by
    intro c hc
    exact allBlank_iff.mp hb c (List.mem_reverse.mp hc)
  rw [trimRight, trimRight, List.reverse_append, List.dropWhile_append_of_pos hr]

/-- What stands in front of a text that is not blank is left alone at the end. -/
theorem trimRight_append {b s : List Char} (hs : allBlank s = false) :
    trimRight (b ++ s) = b ++ trimRight s := by
  have hne : ((s.reverse).dropWhile isBlank).isEmpty = false := by
    rw [List.isEmpty_eq_false_iff]
    intro hnil
    have hblank : allBlank s = true := by
      rw [← trimRight_eq_nil_iff, trimRight, hnil, List.reverse_nil]
    rw [hs] at hblank
    exact Bool.false_ne_true hblank
  rw [trimRight, trimRight, List.reverse_append, List.dropWhile_append, hne]
  simp

theorem trimRight_append_cons {c : Char} (hc : isBlank c = false) (p s : List Char) :
    trimRight (p ++ c :: s) = p ++ c :: trimRight s := by
  rw [List.append_cons p c s, List.append_cons p c (trimRight s)]
  by_cases hs : allBlank s = true
  · rw [trimRight_append_of_allBlank hs, trimRight_concat_of_not_blank hc,
      trimRight_eq_nil_iff.mpr hs, List.append_nil]
  · rw [trimRight_append (Bool.eq_false_iff.mpr hs)]

/-- The rest of a text after its first blanks is blank only if nothing is left. -/
theorem allBlank_trimLeft {s : List Char} (hs : trimLeft s ≠ []) :
    allBlank (trimLeft s) = false := by
  rw [Bool.eq_false_iff]
  intro hblank
  have hnil : trimLeft (trimLeft s) = [] := trimLeft_eq_nil_iff.mpr hblank
  rw [trimLeft, trimLeft, List.dropWhile_idempotent] at hnil
  exact hs hnil

/-- Cutting the end first and then as much of the beginning as trimming takes away gives the
trimmed text. -/
theorem drop_trimRight (s : List Char) :
    (trimRight s).drop (s.length - (trimLeft s).length) = trim s := by
  obtain ⟨b, hb⟩ := isSuffix_trimLeft s
  have hlen : s.length - (trimLeft s).length = b.length := by
    have := congrArg List.length hb
    rw [List.length_append] at this
    omega
  rw [hlen]
  by_cases hnil : trimLeft s = []
  · have hs : trimRight s = [] := trimRight_eq_nil_iff.mpr (trimLeft_eq_nil_iff.mp hnil)
    rw [trim, hs, hnil, trimRight_nil, List.drop_nil]
  · have hs : trimRight s = b ++ trimRight (trimLeft s) := by
      rw [← trimRight_append (allBlank_trimLeft hnil), hb]
    rw [hs, List.drop_left, trim]

theorem trimLeft_eq_self_of_trim {s : List Char} (h : trim s = s) : trimLeft s = s := by
  have hle := (isPrefix_trimRight (trimLeft s)).length_le
  rw [← trim, h] at hle
  exact (isSuffix_trimLeft s).eq_of_length_le hle

theorem trimRight_eq_self_of_trim {s : List Char} (h : trim s = s) : trimRight s = s := by
  rwa [trim, trimLeft_eq_self_of_trim h] at h

theorem allBlank_eq_false_of_trim {s : List Char} (h : trim s = s) (hne : s ≠ []) :
    allBlank s = false := by
  rw [Bool.eq_false_iff]
  intro hblank
  apply hne
  rw [← trimLeft_eq_self_of_trim h, trimLeft_eq_nil_iff.mpr hblank]

theorem not_isBlank_head_of_trim {s : List Char} (h : trim s = s) :
    ∀ c ∈ s.head?, isBlank c = false := by
  intro c hc
  have hhead := List.head?_dropWhile_not isBlank s
  rw [← trimLeft, trimLeft_eq_self_of_trim h, hc] at hhead
  exact hhead

theorem trimLeft_eq_self {s : List Char} (hfirst : ∀ c ∈ s.head?, isBlank c = false) :
    trimLeft s = s := by
  cases s with
  | nil => rfl
  | cons c s => exact trimLeft_cons_of_not_blank (hfirst c rfl)

/-- A text that begins and ends with other characters than blanks is trimmed. -/
theorem trim_eq_self {s : List Char} (hfirst : ∀ c ∈ s.head?, isBlank c = false)
    (hlast : ∀ c ∈ s.getLast?, isBlank c = false) : trim s = s := by
  rw [trim, trimLeft_eq_self hfirst]
  cases s using List.reverseRecOn with
  | nil => rfl
  | append_singleton s c => exact trimRight_concat_of_not_blank (hlast c (by simp))

/-- A line that begins with the first character of a word and ends with a mark. -/
theorem trim_concat {word middle : List Char} {mark : Char} (hne : word ≠ [])
    (hword : ∀ c ∈ word.head?, isBlank c = false) (hmark : isBlank mark = false) :
    trim (word ++ middle ++ [mark]) = word ++ middle ++ [mark] := by
  apply trim_eq_self
  · intro c hc
    rw [List.append_assoc, List.head?_append_of_ne_nil _ hne] at hc
    exact hword c hc
  · intro c hc
    rw [List.getLast?_concat, Option.mem_def, Option.some_inj] at hc
    rwa [← hc]

/-- What stands between two trimmed texts does not matter. -/
theorem trim_append_append {s t : List Char} (hs : trim s = s) (ht : trim t = t) (hne : s ≠ [])
    (hne' : t ≠ []) (m : List Char) : trim (s ++ (m ++ t)) = s ++ (m ++ t) := by
  have hleft : trimLeft (s ++ (m ++ t)) = s ++ (m ++ t) := by
    apply trimLeft_eq_self
    rw [List.head?_append_of_ne_nil _ hne]
    exact not_isBlank_head_of_trim hs
  rw [trim, hleft, ← List.append_assoc, trimRight_append (allBlank_eq_false_of_trim ht hne'),
    trimRight_eq_self_of_trim ht]

theorem trimLeft_append {s : List Char} (hs : trimLeft s ≠ []) (r : List Char) :
    trimLeft (s ++ r) = trimLeft s ++ r := by
  rw [trimLeft, List.dropWhile_append, if_neg (by simpa [trimLeft] using hs), ← trimLeft]

/-- Blanks around a text go away with those at its ends. -/
theorem trim_append_blanks {b s b' : List Char} (hb : allBlank b = true)
    (hb' : allBlank b' = true) : trim (b ++ s ++ b') = trim s := by
  rw [List.append_assoc, trim, trimLeft_append_of_allBlank hb]
  by_cases hs : allBlank s = true
  · have hnil : trimLeft s = [] := trimLeft_eq_nil_iff.mpr hs
    rw [trimLeft_append_of_allBlank hs, trim, hnil, trimRight_nil, trimRight_eq_nil_iff]
    exact allBlank_iff.mpr fun c hc => allBlank_iff.mp hb' c ((isSuffix_trimLeft b').subset hc)
  · have hne : trimLeft s ≠ [] := fun h => hs (trimLeft_eq_nil_iff.mp h)
    rw [trimLeft_append hne, trimRight_append_of_allBlank hb', trim]

theorem exists_eq_append_trimLeft (s : List Char) :
    ∃ b, allBlank b = true ∧ s = b ++ trimLeft s :=
  ⟨s.takeWhile isBlank, List.all_takeWhile, List.takeWhile_append_dropWhile.symm⟩

theorem exists_eq_trimRight_append (s : List Char) :
    ∃ b, allBlank b = true ∧ s = trimRight s ++ b := by
  refine ⟨(s.reverse.takeWhile isBlank).reverse, ?_, ?_⟩
  · rw [allBlank, List.all_reverse]
    exact List.all_takeWhile
  · rw [trimRight, ← List.reverse_append, List.takeWhile_append_dropWhile, List.reverse_reverse]

theorem exists_eq_append_trim_append (s : List Char) :
    ∃ b b', allBlank b = true ∧ allBlank b' = true ∧ s = b ++ trim s ++ b' := by
  obtain ⟨b, hb, hleft⟩ := exists_eq_append_trimLeft s
  obtain ⟨b', hb', hright⟩ := exists_eq_trimRight_append (trimLeft s)
  refine ⟨b, b', hb, hb', ?_⟩
  rw [trim, List.append_assoc, ← hright, ← hleft]

theorem trim_trim (s : List Char) : trim (trim s) = trim s := by
  obtain ⟨b, b', hb, hb', hs⟩ := exists_eq_append_trim_append s
  conv_rhs => rw [hs, trim_append_blanks hb hb']

/-- A text is cut among the blanks at its end: what is left ends in blanks as well. -/
theorem exists_take_eq_trimRight_append {s : List Char} {k : Nat} (hk : (trimRight s).length ≤ k) :
    ∃ b, allBlank b = true ∧ s.take k = trimRight s ++ b := by
  obtain ⟨b, hb, hsplit⟩ := exists_eq_trimRight_append s
  refine ⟨b.take (k - (trimRight s).length), ?_, ?_⟩
  · rw [allBlank_iff]
    intro c hc
    exact allBlank_iff.mp hb c (List.mem_of_mem_take hc)
  · conv_lhs => rw [hsplit]
    rw [List.take_append, List.take_of_length_le hk]

theorem trimRight_take {s : List Char} {k : Nat} (hk : (trimRight s).length ≤ k) :
    trimRight (s.take k) = trimRight s := by
  obtain ⟨b, hb, htake⟩ := exists_take_eq_trimRight_append hk
  rw [htake, trimRight_append_of_allBlank hb, trimRight_trimRight]

theorem trimLeft_trimRight_ne_nil {s : List Char} (hs : trim s ≠ []) :
    trimLeft (trimRight s) ≠ [] := by
  intro hnil
  have hblank : trimRight (trimRight s) = [] :=
    trimRight_eq_nil_iff.mpr (trimLeft_eq_nil_iff.mp hnil)
  rw [trimRight_trimRight, trimRight_eq_nil_iff, ← trimLeft_eq_nil_iff] at hblank
  rw [trim, hblank] at hs
  exact hs rfl

end VeLens.Text
