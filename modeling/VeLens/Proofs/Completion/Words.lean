import Mathlib.Data.List.TakeWhile
import VeLens.Proofs.Completion.Modes
import VeLens.Proofs.Text.Cuts

/-!
# The word at a column

The word at a column is the run of letters, digits and underscores that touches the column on either
side. It is cut out of the line at two places: none of these characters stands right before the
first place, and none at the second. Every column from the one place to the other has the same word.

## Main definitions

* `IsWordChar`: the characters that words are made of.
* `NoneBefore`, `NoneAt`: no such character is next to a place.
* `IsRun`: a part of a line that is made of such characters and cannot be made longer.
* `Around`: a line cut at a column and at the ends of the runs that meet there.

## Main results

* `Around.wordAt_eq`: the word at a column is what stands between the outer cuts.
* `wordAt_isRun`: the word at a column is the run around it.
-/

namespace VeLens.Completion

open Declaration Text

/-- A letter or digit of the basic Latin alphabet, or the underscore. -/
def IsWordChar (c : Char) : Prop :=
  'A' ≤ c ∧ c ≤ 'Z' ∨ 'a' ≤ c ∧ c ≤ 'z' ∨ '0' ≤ c ∧ c ≤ '9' ∨ c = '_'

/-- The character before a place, if there is one, is no word character. -/
def NoneBefore (text : Line) (place : Nat) : Prop :=
  0 < place → ∀ c ∈ text[place - 1]?, ¬ IsWordChar c

/-- The character at a place, if there is one, is no word character. -/
def NoneAt (text : Line) (place : Nat) : Prop := ∀ c ∈ text[place]?, ¬ IsWordChar c

/-- The word is the part of a line between two places. It is made of word characters, and none of
them is next to it. -/
structure IsRun (text : Line) (start stop : Nat) (word : List Char) : Prop where
  word_eq : word = (text.take stop).drop start
  word_chars : ∀ c ∈ word, IsWordChar c
  none_before : NoneBefore text start
  none_at : NoneAt text stop

theorem isNameChar_eq_true_iff {c : Char} : isNameChar c = true ↔ IsWordChar c := by
  change (((decide (c.val ≥ 'A'.val ∧ c.val ≤ 'Z'.val) ||
    (c.val ≥ 'a'.val && c.val ≤ 'z'.val)) || (c.val ≥ '0'.val && c.val ≤ '9'.val)) ||
      c == '_') = true ↔ _
  simp only [Bool.or_eq_true, Bool.and_eq_true, decide_eq_true_eq, beq_iff_eq, ge_iff_le,
    IsWordChar, Char.le_def, or_assoc]

theorem isNameChar_eq_false_iff {c : Char} : isNameChar c = false ↔ ¬ IsWordChar c := by
  rw [← isNameChar_eq_true_iff, Bool.not_eq_true]

theorem noneAt_iff {text : Line} {place : Nat} :
    NoneAt text place ↔ ∀ c ∈ (text.drop place).head?, isNameChar c = false := by
  simp only [NoneAt, List.head?_drop, isNameChar_eq_false_iff]

/-- The character before a place is the first one on the way back. -/
theorem noneBefore_iff {text : Line} {place : Nat} (hplace : place ≤ text.length) :
    NoneBefore text place ↔ ∀ c ∈ (text.take place).reverse.head?, isNameChar c = false := by
  rw [NoneBefore, List.head?_reverse, List.getLast?_take]
  by_cases hzero : place = 0
  · simp [hzero]
  · have hlast : place - 1 < text.length := by omega
    simp only [hzero, if_false, List.getElem?_eq_getElem hlast, Option.some_or,
      isNameChar_eq_false_iff]
    exact ⟨fun h => h (by omega), fun h _ => h⟩

/-- A run of word characters up to a stop is empty exactly if the stop comes at once. -/
theorem eq_nil_iff_of_stop {s rest : List Char} (hs : ∀ c ∈ s, isNameChar c = true)
    (hrest : ∀ c ∈ rest.head?, isNameChar c = false) :
    s = [] ↔ ∀ c ∈ (s ++ rest).head?, isNameChar c = false := by
  constructor
  · rintro rfl
    exact hrest
  · intro hstop
    cases s with
    | nil => rfl
    | cons c s =>
      have hc := hs c List.mem_cons_self
      rw [hstop c rfl] at hc
      exact Bool.noConfusion hc

/-! ### Cutting a line around a column -/

/-- A line cut at a column, with the runs of word characters that end and begin there. -/
structure Around (text : Line) (column : Nat) where
  front : List Char
  left : List Char
  right : List Char
  back : List Char
  column_le : column ≤ text.length
  take_eq : text.take column = front ++ left
  drop_eq : text.drop column = right ++ back
  left_chars : ∀ c ∈ left, isNameChar c = true
  right_chars : ∀ c ∈ right, isNameChar c = true
  front_stop : ∀ c ∈ front.reverse.head?, isNameChar c = false
  back_stop : ∀ c ∈ back.head?, isNameChar c = false

namespace Around

variable {text : Line} {column : Nat}

/-- The two runs together. -/
def word (cut : Around text column) : List Char := cut.left ++ cut.right

theorem front_length_le (cut : Around text column) : cut.front.length ≤ column := by
  have hlength := congrArg List.length cut.take_eq
  rw [List.length_take, List.length_append] at hlength
  omega

theorem take_front_length (cut : Around text column) :
    text.take cut.front.length = cut.front := by
  rw [← Nat.min_eq_left cut.front_length_le, ← List.take_take, cut.take_eq, List.take_left]

/-- Reading back and forth from a column finds the two runs that meet there. -/
theorem wordAt_eq (cut : Around text column) {n : Int} (hn : min n.toNat text.length = column) :
    wordAt text n = if cut.word = [] then none else some cut.word := by
  have hleft : ((text.take column).reverse.takeWhile isNameChar).reverse = cut.left := by
    have hrun : ∀ c ∈ cut.left.reverse, isNameChar c = true := by simpa using cut.left_chars
    rw [cut.take_eq, List.reverse_append, takeWhile_append_of_stop hrun cut.front_stop,
      List.reverse_reverse]
  have hright : (text.drop column).takeWhile isNameChar = cut.right := by
    rw [cut.drop_eq, takeWhile_append_of_stop cut.right_chars cut.back_stop]
  rw [wordAt, hn, hleft, hright]
  rfl

/-- Every line can be cut at every column. -/
theorem exists_cut (hcolumn : column ≤ text.length) : Nonempty (Around text column) := by
  have hstop (s : List Char) : ∀ c ∈ (s.dropWhile isNameChar).head?, isNameChar c = false := by
    intro c hc
    have hnot := List.head?_dropWhile_not isNameChar s
    rw [Option.mem_def.mp hc] at hnot
    simpa using hnot
  refine ⟨{
    front := ((text.take column).reverse.dropWhile isNameChar).reverse
    left := ((text.take column).reverse.takeWhile isNameChar).reverse
    right := (text.drop column).takeWhile isNameChar
    back := (text.drop column).dropWhile isNameChar
    column_le := hcolumn
    take_eq := ?_
    drop_eq := List.takeWhile_append_dropWhile.symm
    left_chars := fun c hc => List.mem_takeWhile_imp (List.mem_reverse.mp hc)
    right_chars := fun c hc => List.mem_takeWhile_imp hc
    front_stop := ?_
    back_stop := hstop _ }⟩
  · rw [← List.reverse_append, List.takeWhile_append_dropWhile, List.reverse_reverse]
  · rw [List.reverse_reverse]
    exact hstop _

/-- What stands between the outer cuts is a run. -/
theorem isRun (cut : Around text column) :
    IsRun text cut.front.length (column + cut.right.length) cut.word where
  word_eq := by
    have htake : text.take (column + cut.right.length) = cut.front ++ cut.word := by
      rw [List.take_add, cut.take_eq, cut.drop_eq, List.take_left, word, List.append_assoc]
    rw [htake, List.drop_left]
  word_chars := by
    intro c hc
    rw [← isNameChar_eq_true_iff]
    rcases List.mem_append.mp hc with hc | hc
    · exact cut.left_chars c hc
    · exact cut.right_chars c hc
  none_before := by
    rw [noneBefore_iff (Nat.le_trans cut.front_length_le cut.column_le), cut.take_front_length]
    exact cut.front_stop
  none_at := by
    rw [noneAt_iff, ← List.drop_drop, cut.drop_eq, List.drop_left]
    exact cut.back_stop

/-- A run that touches a column makes up the two runs that meet there. -/
theorem exists_of_isRun {start stop : Nat} {word : List Char} (hrun : IsRun text start stop word)
    (hcolumn : column ≤ text.length) (hstart : start ≤ column) (hstop : column ≤ stop) :
    ∃ cut : Around text column, cut.word = word := by
  obtain ⟨more, rfl⟩ := Nat.exists_eq_add_of_le hstop
  have hfront : (text.take column).take start = text.take start := by
    rw [List.take_take, Nat.min_eq_left hstart]
  have hword : (text.take column).drop start ++ (text.drop column).take more = word := by
    have hlength : start ≤ (text.take column).length := by
      rw [List.length_take]
      omega
    rw [hrun.word_eq, List.take_add, List.drop_append_of_le_length hlength]
  have hchars : ∀ c ∈ word, isNameChar c = true := fun c hc =>
    isNameChar_eq_true_iff.mpr (hrun.word_chars c hc)
  rw [← hword] at hchars
  refine ⟨{
    front := text.take start
    left := (text.take column).drop start
    right := (text.drop column).take more
    back := text.drop (column + more)
    column_le := hcolumn
    take_eq := ?_
    drop_eq := ?_
    left_chars := fun c hc => hchars c (List.mem_append_left _ hc)
    right_chars := fun c hc => hchars c (List.mem_append_right _ hc)
    front_stop := (noneBefore_iff (Nat.le_trans hstart hcolumn)).mp hrun.none_before
    back_stop := noneAt_iff.mp hrun.none_at }, hword⟩
  · rw [← hfront, List.take_append_drop]
  · rw [← List.drop_drop, List.take_append_drop]

/-- No run ends at a column exactly if no word character stands before it. -/
theorem left_eq_nil_iff (cut : Around text column) : cut.left = [] ↔ NoneBefore text column := by
  have hrun : ∀ c ∈ cut.left.reverse, isNameChar c = true := by simpa using cut.left_chars
  rw [noneBefore_iff cut.column_le, cut.take_eq, List.reverse_append,
    ← eq_nil_iff_of_stop hrun cut.front_stop, List.reverse_eq_nil_iff]

/-- No run begins at a column exactly if no word character stands at it. -/
theorem right_eq_nil_iff (cut : Around text column) : cut.right = [] ↔ NoneAt text column := by
  rw [noneAt_iff, cut.drop_eq, ← eq_nil_iff_of_stop cut.right_chars cut.back_stop]

end Around

/-! ### The word at a column -/

theorem toNat_clampColumn (text : Line) (column : Int) :
    (clampColumn text column).toNat = min column.toNat text.length := by
  rw [clampColumn]
  omega

/-- Every column that a run touches has the run as its word. -/
theorem IsRun.wordAt_eq {text : Line} {start stop : Nat} {word : List Char}
    (hrun : IsRun text start stop word) (hword : word ≠ []) {column : Int}
    (hstart : start ≤ (clampColumn text column).toNat)
    (hstop : (clampColumn text column).toNat ≤ stop) : wordAt text column = some word := by
  rw [toNat_clampColumn] at hstart hstop
  obtain ⟨cut, rfl⟩ := Around.exists_of_isRun hrun (Nat.min_le_right _ _) hstart hstop
  rw [cut.wordAt_eq rfl, if_neg hword]

/-- A run that is not empty begins before the end of its line. -/
theorem IsRun.start_lt {text : Line} {start stop : Nat} {word : List Char}
    (hrun : IsRun text start stop word) (hword : word ≠ []) : start < text.length := by
  by_contra hge
  apply hword
  rw [hrun.word_eq, List.drop_eq_nil_iff, List.length_take]
  omega

/-- **The word at a column.** With the column moved into the line, the word there is the run of word
characters around it that cannot be made longer on either side, and there is no word exactly if
neither neighbour of the column is a word character. So all columns from the beginning of a run to
its end have the same word. -/
theorem wordAt_isRun (text : Line) (column : Int) :
    let c := (clampColumn text column).toNat
    (∀ word, wordAt text column = some word ↔
      word ≠ [] ∧ ∃ start stop, start ≤ c ∧ c ≤ stop ∧ IsRun text start stop word) ∧
    (wordAt text column = none ↔ NoneBefore text c ∧ NoneAt text c) ∧
    ∀ word start stop, word ≠ [] → IsRun text start stop word →
      ∀ other : Int, start ≤ other → other ≤ stop → wordAt text other = some word := by
  intro c
  have hc : min column.toNat text.length = c := (toNat_clampColumn text column).symm
  have hle : c ≤ text.length := by omega
  obtain ⟨cut⟩ := Around.exists_cut hle
  refine ⟨fun word => ⟨fun hsome => ?_, ?_⟩, ?_, ?_⟩
  · rw [cut.wordAt_eq hc] at hsome
    by_cases hword : cut.word = []
    · simp [hword] at hsome
    · rw [if_neg hword, Option.some_inj] at hsome
      subst hsome
      exact ⟨hword, _, _, cut.front_length_le, Nat.le_add_right _ _, cut.isRun⟩
  · rintro ⟨hword, start, stop, hstart, hstop, hrun⟩
    exact hrun.wordAt_eq hword hstart hstop
  · rw [← cut.left_eq_nil_iff, ← cut.right_eq_nil_iff, ← List.append_eq_nil_iff,
      cut.wordAt_eq hc, Around.word]
    simp
  · intro word start stop hword hrun other hstart hstop
    have hlt := hrun.start_lt hword
    refine hrun.wordAt_eq hword ?_ ?_
    · rw [toNat_clampColumn]
      omega
    · rw [toNat_clampColumn]
      omega

/-- A letter of another script is no part of a word, and a word may reach the end of its line. -/
theorem wordAt_isRun_accent :
    let text := "é_a1".toList
    let word := "_a1".toList
    IsRun text 1 4 word ∧ wordAt text 9 = some word ∧ wordAt text (-3) = none ∧
      ∀ other : Int, 1 ≤ other → other ≤ 4 → wordAt text other = some word := by
  intro text word
  have hrun : IsRun text 1 4 word := by
    refine ⟨by decide +kernel, ?_, ?_, ?_⟩
    · have hall : word.all isNameChar = true := by decide +kernel
      simpa only [isNameChar_eq_true_iff] using List.all_eq_true.mp hall
    · rw [noneBefore_iff (by decide +kernel)]
      rintro c ⟨⟩
      decide +kernel
    · rw [noneAt_iff]
      rintro c ⟨⟩
  have hsame := (wordAt_isRun text 0).2.2 word 1 4 (by decide +kernel) hrun
  exact ⟨hrun, by decide +kernel, by decide +kernel, hsame⟩

end VeLens.Completion
