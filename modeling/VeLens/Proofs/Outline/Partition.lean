import Mathlib.Logic.Basic
import VeLens.Proofs.Outline.Symbols

/-!
# What the outline takes in

The outline loses no declaration and reports none twice. A line that declares something is either
the first line of one symbol, which is named after it, or it lies inside one symbol with a block.
Symbols stand one below the other, so no line belongs to two of them.

## Main definitions

* `Symbol.beginsOn`, `Symbol.runsOver`: the two ways in which a symbol can take in a line.

## Main results

* `symbols_pairwise`: each symbol ends above the next one.
* `ofText_partition`: the lines of a text that declare something are shared out among its symbols.
-/

namespace VeLens.Outline

open Declaration

def Symbol.beginsOn (i : Nat) (s : Symbol) : Bool := s.range.start.line == i

/-- The line lies below the first line of the symbol and not below its last one. -/
def Symbol.runsOver (i : Nat) (s : Symbol) : Bool :=
  s.range.start.line < i && i ≤ s.range.stop.line

/-- Only one member of a list has a property if the members of the list are related and those with
the property are not. -/
theorem filter_eq_singleton {α : Type} {r : α → α → Prop} {p : α → Bool} {xs : List α} {x : α}
    (hxs : xs.Pairwise r) (hx : x ∈ xs) (hp : p x = true)
    (hunrelated : ∀ y ∈ xs, p y = true → ¬r x y ∧ ¬r y x) : xs.filter p = [x] := by
  obtain ⟨as, bs, rfl⟩ := List.append_of_mem hx
  obtain ⟨-, hbs, hcross⟩ := List.pairwise_append.mp hxs
  have has : as.filter p = [] := by
    rw [List.filter_eq_nil_iff]
    intro a ha hpa
    exact (hunrelated a (by simp [ha]) hpa).2 (hcross a ha x (by simp))
  have hbs : bs.filter p = [] := by
    rw [List.filter_eq_nil_iff]
    intro b hb hpb
    exact (hunrelated b (by simp [hb]) hpb).1 ((List.pairwise_cons.mp hbs).1 b hb)
  rw [List.filter_append, List.filter_cons_of_pos hp, has, hbs, List.nil_append]

section Lines

variable {lines : List Line} {s : Symbol}

/-- Each symbol ends above the next one. -/
theorem symbols_pairwise (lines : List Line) :
    (symbols lines).Pairwise fun s s' => s.range.stop.line < s'.range.start.line := by
  have hread := reading_topLevelFrom 0 lines
  rw [symbols, List.pairwise_filterMap]
  refine hread.pairwise.imp_of_mem ?_
  intro t u ht _ hle s hs s' hs'
  obtain ⟨-, hopens⟩ := hread.opens_of_mem ht
  have hpos := hopens.length_pos
  rw [(TopLevel.shows_of_symbol? hs).stop_line hopens, (TopLevel.shows_of_symbol? hs').start,
    TopLevel.lastIndex]
  dsimp only
  omega

theorem start_le_stop (hs : s ∈ symbols lines) : s.range.start.line ≤ s.range.stop.line := by
  obtain ⟨t, hshows, hopens⟩ := exists_shows hs
  rw [hshows.stop_line hopens, hshows.start, TopLevel.lastIndex]
  dsimp only
  omega

/-- The line lies between the first and the last line of the symbol. -/
def Symbol.takesIn (i : Nat) (s : Symbol) : Bool :=
  s.range.start.line ≤ i && i ≤ s.range.stop.line

variable {i : Nat}

theorem takesIn_of_beginsOn (hs : s ∈ symbols lines) (h : s.beginsOn i = true) :
    s.takesIn i = true := by
  have hle := start_le_stop hs
  rw [Symbol.beginsOn, beq_iff_eq] at h
  rw [Symbol.takesIn, Bool.and_eq_true, decide_eq_true_eq, decide_eq_true_eq]
  omega

theorem takesIn_of_runsOver (h : s.runsOver i = true) : s.takesIn i = true := by
  rw [Symbol.runsOver, Bool.and_eq_true, decide_eq_true_eq, decide_eq_true_eq] at h
  rw [Symbol.takesIn, Bool.and_eq_true, decide_eq_true_eq, decide_eq_true_eq]
  omega

/-- No two symbols take in the same line. -/
theorem filter_takesIn (hs : s ∈ symbols lines) (h : s.takesIn i = true) :
    (symbols lines).filter (·.takesIn i) = [s] := by
  refine filter_eq_singleton (symbols_pairwise lines) hs h ?_
  intro y _ hy
  rw [Symbol.takesIn, Bool.and_eq_true, decide_eq_true_eq, decide_eq_true_eq] at h hy
  omega

/-- Of the symbols that take in a line in one way or another, there is only the one that takes it
in at all. -/
theorem filter_of_takesIn (hs : s ∈ symbols lines) (h : s.takesIn i = true) {p : Symbol → Bool}
    (hp : ∀ y ∈ symbols lines, p y = true → y.takesIn i = true) :
    (symbols lines).filter p = [s].filter p := by
  have hboth : (symbols lines).filter p = (symbols lines).filter fun y => p y && y.takesIn i := by
    refine List.filter_congr fun y hy => ?_
    cases hpy : p y with
    | true => rw [hp y hy hpy, Bool.and_self]
    | false => rfl
  rw [hboth, ← List.filter_filter, filter_takesIn hs h]

/-- A line that declares something is taken in by a symbol. Either the symbol begins there and is
named after the line, or it begins further up and has a block. -/
theorem exists_takesIn {line : Line} {head : Head} {kind : ItemKind} {name : String}
    (hline : lines[i]? = some line) (hhead : headOf line = some head)
    (hitem : itemOf head = some (kind, name)) :
    ∃ s ∈ symbols lines, (s.beginsOn i = true ∧ s.kind = kind ∧ s.name = name) ∨
      (s.runsOver i = true ∧
        s.kind ∈ [ItemKind.function, ItemKind.struct, ItemKind.enum]) := by
  obtain ⟨t, ht, hle, hlt⟩ := (reading_topLevelFrom 0 lines).covers hline hhead
  obtain ⟨-, hopens⟩ := (reading_topLevelFrom 0 lines).opens_of_mem ht
  rw [Nat.zero_add] at hle hlt
  by_cases hi : t.index = i
  · -- The line is the head's own line, so its head is the one that was read there.
    have hfirst := hopens.getElem?_index
    rw [hi, hline, Option.some_inj] at hfirst
    have hsame := hopens.headOf_line
    rw [← hfirst, hhead, Option.some_inj] at hsame
    rw [hsame] at hitem
    obtain ⟨s, hs, hshows, hnamed⟩ := TopLevel.exists_symbol hitem
    refine ⟨s, List.mem_filterMap.mpr ⟨t, ht, hs⟩, .inl ⟨?_, hnamed⟩⟩
    rw [Symbol.beginsOn, hshows.start, hi, beq_self_eq_true]
  · -- A declaration of more than one line has a block.
    have hblock : opensBlock t.head = true := by
      cases hopen : opensBlock t.head with
      | true => rfl
      | false =>
        rw [(hopens.single hopen).1, List.length_singleton] at hlt
        omega
    obtain ⟨s, hs, hshows, hkind⟩ := TopLevel.exists_symbol_of_opensBlock hblock
    refine ⟨s, List.mem_filterMap.mpr ⟨t, ht, hs⟩, .inr ⟨?_, hkind⟩⟩
    rw [Symbol.runsOver, hshows.start, hshows.stop_line hopens, TopLevel.lastIndex,
      Bool.and_eq_true, decide_eq_true_eq, decide_eq_true_eq]
    dsimp only
    omega

theorem not_runsOver_of_beginsOn (h : s.beginsOn i = true) : s.runsOver i = false := by
  rw [Symbol.beginsOn, beq_iff_eq] at h
  rw [Symbol.runsOver, h, Bool.and_eq_false_iff]
  exact .inl (by simp)

/-- If a symbol begins on a line, it is the only one that does, and none runs over the line. -/
theorem filter_of_beginsOn (hs : s ∈ symbols lines) (h : s.beginsOn i = true) :
    (symbols lines).filter (·.beginsOn i) = [s] ∧ (symbols lines).filter (·.runsOver i) = [] := by
  have htakes := takesIn_of_beginsOn hs h
  rw [filter_of_takesIn hs htakes fun y hy => takesIn_of_beginsOn hy,
    filter_of_takesIn hs htakes fun y _ => takesIn_of_runsOver]
  simp [h, not_runsOver_of_beginsOn h]

/-- If a symbol runs over a line, it is the only one that does, and none begins there. -/
theorem filter_of_runsOver (hs : s ∈ symbols lines) (h : s.runsOver i = true) :
    (symbols lines).filter (·.runsOver i) = [s] ∧ (symbols lines).filter (·.beginsOn i) = [] := by
  have htakes := takesIn_of_runsOver h
  have hnot : s.beginsOn i = false := by
    rw [Bool.eq_false_iff]
    intro hbegins
    rw [not_runsOver_of_beginsOn hbegins] at h
    exact Bool.noConfusion h
  rw [filter_of_takesIn hs htakes fun y hy => takesIn_of_beginsOn hy,
    filter_of_takesIn hs htakes fun y _ => takesIn_of_runsOver]
  simp [h, hnot]

end Lines

/-- **The outline loses no declaration and reports none twice.** Of a line that declares something,
exactly one of two things holds: one symbol begins on it, with its kind and name, or one symbol with
a block runs over it. Every symbol begins on such a line, and each ends above the next one. -/
theorem ofText_partition (text : String) :
    (∀ (i : Nat) (line : Line) (head : Head) (kind : ItemKind) (name : String),
      (Buffer.lines text.toList)[i]? = some line → headOf line = some head →
      itemOf head = some (kind, name) →
      Xor
        (∃ s, (ofText text).filter (·.beginsOn i) = [s] ∧ s.kind = kind ∧ s.name = name)
        (∃ s, (ofText text).filter (·.runsOver i) = [s] ∧
          s.kind ∈ [ItemKind.function, ItemKind.struct, ItemKind.enum])) ∧
    (∀ s ∈ ofText text, ∃ (i : Nat) (line : Line) (head : Head),
      (Buffer.lines text.toList)[i]? = some line ∧ headOf line = some head ∧
      itemOf head = some (s.kind, s.name) ∧ s.range.start.line = i) ∧
    (ofText text).Pairwise fun s s' => s.range.stop.line < s'.range.start.line := by
  refine ⟨?_, ?_, symbols_pairwise _⟩
  · -- Whichever way the line is taken in, the symbols that take it in the other way are none.
    intro i line head kind name hline hhead hitem
    obtain ⟨s, hs, ⟨hbegins, hnamed⟩ | ⟨hruns, hkind⟩⟩ := exists_takesIn hline hhead hitem
    · obtain ⟨hone, hnone⟩ := filter_of_beginsOn hs hbegins
      refine .inl ⟨⟨s, hone, hnamed⟩, ?_⟩
      rintro ⟨s', hs', -⟩
      exact absurd (hnone.symm.trans hs') (by simp)
    · obtain ⟨hone, hnone⟩ := filter_of_runsOver hs hruns
      refine .inr ⟨⟨s, hone, hkind⟩, ?_⟩
      rintro ⟨s', hs', -⟩
      exact absurd (hnone.symm.trans hs') (by simp)
  · intro s hs
    obtain ⟨t, hshows, hopens⟩ := exists_shows hs
    exact ⟨t.index, t.line, t.head, hopens.getElem?_index, hopens.headOf_line, hshows.item,
      by rw [hshows.start]⟩

/-- The variable `x` is declared in the body of a function that is never closed. -/
theorem ofText_partition_unclosed :
    let text := "fn f() \x7b\n  let x: i32;"
    let line := "  let x: i32;".toList
    (Buffer.lines text.toList)[1]? = some line ∧
      headOf line = some (.variable ⟨false, "x", some "i32", none⟩) ∧
      Xor
        (∃ s, (ofText text).filter (·.beginsOn 1) = [s] ∧ s.kind = .variable ∧ s.name = "x")
        (∃ s, (ofText text).filter (·.runsOver 1) = [s] ∧
          s.kind ∈ [ItemKind.function, ItemKind.struct, ItemKind.enum]) := by
  intro text line
  have hline : (Buffer.lines text.toList)[1]? = some line := by decide +kernel
  have hhead : headOf line = some (.variable ⟨false, "x", some "i32", none⟩) := by decide +kernel
  exact ⟨hline, hhead, (ofText_partition text).1 1 line _ .variable "x" hline hhead rfl⟩

end VeLens.Outline
