import VeLens.Proofs.Buffer.Braces
import VeLens.Proofs.Outline.Composition
import VeLens.Proofs.Scope.Tiers

/-!
# Edits inside a body

The lines between the first and the last line of a closed block may be replaced by others, as many
as they were and with the same braces on them. The block still ends at the same brace, so everything
above and below it is read as before, and nothing but the members of its own symbol can change.

## Main definitions

* `Symbol.body`: the lines of a buffer between the first and the last line of a symbol.
* `Symbol.BodyEdit`: two buffers differ on those lines only, and have the same braces there.
* `TopLevel.withBody`: a declaration with other lines between its first and its last one.

## Main results

* `Reading.split`: a pass that finds a declaration, in three parts.
* `TopLevel.withBody_opens`: a declaration is still found after its body was replaced.
* `symbols_bodyEdit`: what an edit inside a body leaves as it was.
-/

namespace VeLens.Outline

open Declaration

/-! ### Passes in parts -/

section Parts

variable {t : TopLevel} {index : Nat} {lines : List Line}

/-- A closed declaration can be read from its own lines. -/
theorem TopLevel.Opens.alone (h : t.Opens index lines)
    (hclosed : opensBlock t.head = true → ∃ p, Block.close? t.lines = some p) :
    t.Opens index t.lines := by
  refine { h with isPrefix := List.prefix_rfl, block := fun hopens => ?_ }
  obtain ⟨p, hp⟩ := hclosed hopens
  obtain ⟨rest, hrest⟩ := h.isPrefix
  have hlines : Block.close? lines = some p := by
    rw [← hrest]
    exact Block.closeFrom?_append_of_some hp rest
  rw [← h.block hopens, Block.extent_of_close? hp, Block.extent_of_close? hlines]

/-- A block that never closes leaves no line below it. -/
theorem TopLevel.Opens.exists_close? (h : t.Opens index lines)
    (hlt : t.lines.length < lines.length) (hopens : opensBlock t.head = true) :
    ∃ p, Block.close? t.lines = some p := by
  cases hclose : Block.close? lines with
  | some p => exact ⟨p, h.close?_lines hopens hclose⟩
  | none =>
    have hextent := h.block hopens
    rw [Block.extent, hclose, Option.getD_none, Block.lastPlace, Prod.mk.injEq] at hextent
    have hpos := h.length_pos
    omega

theorem Reading.lt_length {ts : List TopLevel} (h : Reading index lines ts) (ht : t ∈ ts) :
    t.index - index < lines.length := by
  obtain ⟨-, hopens⟩ := h.opens_of_mem ht
  obtain ⟨below, hbelow⟩ := hopens.exists_cons
  have hlength := congrArg List.length hbelow
  rw [List.length_drop, List.length_cons] at hlength
  omega

/-- **A pass that finds a declaration.** What it finds above can be found without the lines from
there on, since all blocks above are closed, and it goes on below the declaration. -/
theorem Reading.split {all ts us : List TopLevel} (h : Reading index lines all)
    (hall : all = ts ++ t :: us) :
    Reading index (lines.take (t.index - index)) ts ∧
      (∀ u ∈ ts, opensBlock u.head = true → ∃ p, Block.close? u.lines = some p) ∧
      Reading (t.index + t.lines.length) (lines.drop (t.index - index + t.lines.length)) us := by
  induction h generalizing ts with
  | done => simp at hall
  | @skip index line below all hline rest ih =>
    obtain ⟨habove, hclosed, hbelow⟩ := ih hall
    have hle := (rest.opens_of_mem (t := t) (by simp [hall])).1
    have hdown : t.index - index = t.index - (index + 1) + 1 := by omega
    refine ⟨?_, hclosed, ?_⟩
    · rw [hdown, List.take_succ_cons]
      exact .skip hline habove
    · rw [hdown, Nat.add_right_comm, List.drop_succ_cons]
      exact hbelow
  | @declare index lines u all hu rest ih =>
    cases ts with
    | nil =>
      obtain ⟨rfl, rfl⟩ := List.cons.inj hall
      rw [hu.index_eq, Nat.sub_self, Nat.zero_add]
      exact ⟨.done index, by simp, rest⟩
    | cons v ts =>
      obtain ⟨rfl, htail⟩ := List.cons.inj hall
      obtain ⟨habove, hclosed, hbelow⟩ := ih htail
      have ht : t ∈ all := by simp [htail]
      have hle := (rest.opens_of_mem ht).1
      have hlt := rest.lt_length ht
      rw [List.length_drop] at hlt
      -- The declaration `t` stands below `u`, so the block of `u` is closed.
      have hfirst := hu.exists_close? (by omega)
      have hdown : t.index - index = u.lines.length + (t.index - (index + u.lines.length)) := by
        omega
      refine ⟨?_, ?_, ?_⟩
      · have hlines : lines.take (t.index - index) = u.lines ++
            (lines.drop u.lines.length).take (t.index - (index + u.lines.length)) := by
          rw [hdown, List.take_add, ← hu.lines_eq_take]
        rw [hlines]
        refine .declare ((hu.alone hfirst).append hfirst _) ?_
        rw [List.drop_left]
        exact habove
      · intro w hw
        rcases List.mem_cons.mp hw with rfl | hw
        · exact hfirst
        · exact hclosed w hw
      · rw [hdown, Nat.add_assoc, ← List.drop_drop]
        exact hbelow

end Parts

/-! ### A declaration with another body -/

namespace TopLevel

variable {t : TopLevel} {body : List Line}

/-- The declaration with other lines between its first and its last one. -/
def withBody (t : TopLevel) (body : List Line) : TopLevel :=
  { t with lines := t.line :: (body ++ [t.lastLine]) }

theorem lines_eq_ends (hlen : 2 ≤ t.lines.length) :
    t.lines = t.line :: (t.lines.tail.dropLast ++ [t.lastLine]) := by
  have hne : t.lines ≠ [] := by
    rintro hnil
    simp [hnil] at hlen
  obtain ⟨first, rest, hrest⟩ := List.exists_cons_of_ne_nil hne
  have hrest' : rest ≠ [] := by
    rintro rfl
    simp [hrest] at hlen
  have hlast : t.lastLine = rest.getLast hrest' := by
    rw [lastLine, hrest, List.getLastD_eq_getLast?, List.getLast?_cons_of_ne_nil hrest',
      List.getLast?_eq_some_getLast hrest', Option.getD_some]
  rw [line, hlast, hrest, List.headD_cons, List.tail_cons, List.dropLast_append_getLast]

theorem withBody_lines : (t.withBody body).lines = (t.line :: body) ++ [t.lastLine] := rfl

theorem withBody_lastLine : (t.withBody body).lastLine = t.lastLine := by
  rw [lastLine, withBody_lines, List.getLastD_concat]

theorem withBody_length : (t.withBody body).lines.length = body.length + 2 := by
  simp [withBody]

theorem withBody_lastIndex (hlen : t.lines.length = body.length + 2) :
    (t.withBody body).lastIndex = t.lastIndex := by
  rw [lastIndex, lastIndex, withBody_length, hlen]
  rfl

/-- A closed declaration is still found if its body is replaced by as many lines with the same
braces. -/
theorem withBody_opens {index : Nat} {lines : List Line} (h : t.Opens index lines)
    (hopens : opensBlock t.head = true) (hclosed : ∃ p, Block.close? t.lines = some p)
    (hlen : t.lines.length = body.length + 2)
    (hbraces : Block.braces t.lines.tail.dropLast.flatten = Block.braces body.flatten)
    (below : List Line) :
    (t.withBody body).Opens index ((t.withBody body).lines ++ below) := by
  have hinner : t.lines.tail.dropLast.length = body.length := by
    rw [List.length_dropLast, List.length_tail]
    omega
  have hbrace : Block.close? t.lines = some (t.lines.length - 1, t.column) := by
    obtain ⟨p, hp⟩ := hclosed
    rw [hp, ← (h.alone fun _ => ⟨p, hp⟩).block hopens, Block.extent_of_close? hp]
  -- The head's line and the body have the same braces as before, and the last line is the same.
  have hsame : Block.closeFrom? 0 ((t.line :: body) ++ [t.lastLine]) =
      some ((t.line :: body).length, t.column) := by
    have hfront : Block.braces (t.line :: t.lines.tail.dropLast).flatten =
        Block.braces (t.line :: body).flatten := by
      rw [List.flatten_cons, List.flatten_cons, Block.braces_append, Block.braces_append, hbraces]
    apply Block.closeFrom?_concat_congr hfront
    rw [List.cons_append, ← lines_eq_ends (by omega), ← Block.close?, hbrace, List.length_cons,
      hinner, hlen]
    rfl
  refine ⟨h.index_eq, List.prefix_append _ _, by simp [withBody], h.headOf_line, fun _ => ?_, ?_⟩
  · rw [withBody_lines, Block.extent_of_close? (Block.closeFrom?_append_of_some hsame below)]
    simp [withBody]
  · intro hsingle
    have hsingle : opensBlock t.head = false := hsingle
    simp [hopens] at hsingle

theorem blockSymbol_withBody (hlen : t.lines.length = body.length + 2) (kind : ItemKind)
    (name detail : String) (child? : Line → Nat → Option Item) :
    (t.withBody body).blockSymbol kind name detail child? =
      { t.blockSymbol kind name detail child? with
        children := (t.withBody body).inside.filterMap fun p => child? p.1 p.2 } := by
  have hstop : (t.withBody body).blockEnd = t.blockEnd := by
    rw [blockEnd, blockEnd, withBody_lastIndex hlen, withBody_lastLine]
    rfl
  rw [blockSymbol, blockSymbol, hstop]
  rfl

/-- Only the members of a symbol are read from its body. -/
theorem symbol?_withBody {s : Symbol} (hlen : t.lines.length = body.length + 2)
    (hopens : opensBlock t.head = true) (hs : t.symbol? = some s) :
    ∃ children, (t.withBody body).symbol? = some { s with children := children } := by
  have hhead : (t.withBody body).head = t.head := rfl
  have hblock := blockSymbol_withBody hlen
  rw [symbol?] at hs
  rw [symbol?, hhead]
  cases ht : t.head with
  | function head | struct name | enum name =>
    rw [ht] at hs
    obtain rfl := Option.some_inj.mp hs
    exact ⟨_, congrArg some (hblock _ _ _ _)⟩
  | «variable» head | loop name | importing path =>
    rw [ht] at hopens
    exact absurd hopens (by simp [opensBlock])

end TopLevel

/-! ### Two buffers -/

namespace Symbol

/-- The lines strictly between the first and the last line of the symbol. -/
def body (s : Symbol) (lines : List Line) : List Line :=
  (lines.drop (s.range.start.line.toNat + 1)).take
    (s.range.stop.line - s.range.start.line - 1).toNat

/-- **An edit inside the body of a symbol.** Two buffers have the same number of lines, differ at
most on the lines strictly between the first and the last line of the symbol, and have the same
sequence of braces there. -/
structure BodyEdit (s : Symbol) (a b : List Line) : Prop where
  length_eq : a.length = b.length
  outside : ∀ i < a.length,
    (i : Int) ≤ s.range.start.line ∨ s.range.stop.line ≤ i → a[i]? = b[i]?
  braces : Block.braces (s.body a).flatten = Block.braces (s.body b).flatten

variable {s : Symbol} {a b : List Line} {k : Nat}

theorem BodyEdit.getElem?_eq (h : s.BodyEdit a b) {i : Nat}
    (hi : (i : Int) ≤ s.range.start.line ∨ s.range.stop.line ≤ i) : a[i]? = b[i]? := by
  by_cases hlt : i < a.length
  · exact h.outside i hlt hi
  · rw [List.getElem?_eq_none (Nat.le_of_not_lt hlt),
      List.getElem?_eq_none (h.length_eq ▸ Nat.le_of_not_lt hlt)]

theorem BodyEdit.take_eq (h : s.BodyEdit a b) (hk : (k : Int) ≤ s.range.start.line + 1) :
    a.take k = b.take k := by
  apply List.ext_getElem?
  intro i
  rw [List.getElem?_take, List.getElem?_take]
  split
  · exact h.getElem?_eq (.inl (by omega))
  · rfl

theorem BodyEdit.drop_eq (h : s.BodyEdit a b) (hk : s.range.stop.line ≤ k) :
    a.drop k = b.drop k := by
  apply List.ext_getElem?
  intro i
  rw [List.getElem?_drop, List.getElem?_drop]
  exact h.getElem?_eq (.inr (by omega))

end Symbol

/-- The body of a symbol, as lines of its declaration. -/
theorem TopLevel.Shows.body_eq {t : TopLevel} {s : Symbol} {lines : List Line} (hs : t.Shows s)
    (h : t.Opens t.index (lines.drop t.index)) : s.body lines = t.lines.tail.dropLast := by
  have hpos := h.length_pos
  have hcount : (s.range.stop.line - s.range.start.line - 1).toNat = t.lines.length - 1 - 1 := by
    rw [hs.stop_line h, hs.start, TopLevel.lastIndex]
    dsimp only
    omega
  have hstart : s.range.start.line.toNat = t.index := by
    rw [hs.start]
    rfl
  obtain ⟨rest, hrest⟩ := h.isPrefix
  have hbelow : lines.drop (t.index + 1) = t.lines.tail ++ rest := by
    rw [← List.tail_drop, ← hrest, List.tail_append_of_ne_nil h.ne_nil]
  rw [Symbol.body, hcount, hstart, hbelow, List.dropLast_eq_take, List.length_tail,
    List.take_append_of_le_length (by rw [List.length_tail]; omega)]

/-- After an edit inside its body a declaration has the new lines in it, and below it stand the same
lines as before. -/
theorem Symbol.BodyEdit.drop_index {t : TopLevel} {s : Symbol} {a b : List Line}
    (hedit : s.BodyEdit a b) (hs : t.Shows s) (h : t.Opens t.index (a.drop t.index))
    (hlen : 2 ≤ t.lines.length) :
    (s.body b).length = t.lines.length - 2 ∧
      b.drop t.index = (t.withBody (s.body b)).lines ++ a.drop (t.index + t.lines.length) := by
  have hstart : s.range.start.line = t.index := congrArg Position.line hs.start
  have hstop : s.range.stop.line = t.index + (t.lines.length - 1 : Nat) := by
    rw [hs.stop_line h, TopLevel.lastIndex, Int.natCast_add]
  have hcount : (s.range.stop.line - s.range.start.line - 1).toNat = t.lines.length - 2 := by omega
  have hfirst : b[t.index]? = some t.line := by
    rw [← hedit.getElem?_eq (.inl (by omega)), h.getElem?_index]
  have hlast : b[t.index + (t.lines.length - 1)]? = some t.lastLine := by
    rw [← hedit.getElem?_eq (.inr (by omega)), ← TopLevel.lastIndex, h.getElem?_lastIndex]
  have hbelow : a.drop (t.index + t.lines.length) = b.drop (t.index + t.lines.length) :=
    hedit.drop_eq (by omega)
  obtain ⟨hlt, -⟩ := List.getElem?_eq_some_iff.mp hlast
  have hbody : s.body b = (b.drop (t.index + 1)).take (t.lines.length - 2) := by
    rw [Symbol.body, hcount, hstart, Int.toNat_natCast]
  have hend : b.drop (t.index + (t.lines.length - 1)) =
      t.lastLine :: b.drop (t.index + t.lines.length) := by
    rw [List.drop_eq_getElem?_toList_append, hlast, Nat.add_assoc, Nat.sub_add_cancel (by omega)]
    rfl
  refine ⟨by rw [hbody, List.length_take, List.length_drop]; omega, ?_⟩
  calc b.drop t.index
      = t.line :: b.drop (t.index + 1) := by
        rw [List.drop_eq_getElem?_toList_append, hfirst]
        rfl
    _ = t.line :: (s.body b ++ b.drop (t.index + (t.lines.length - 1))) := by
        have hdown : t.index + (t.lines.length - 1) = t.index + 1 + (t.lines.length - 2) := by
          omega
        rw [hbody, hdown, ← List.drop_drop (j := t.index + 1), List.take_append_drop]
    _ = (t.withBody (s.body b)).lines ++ a.drop (t.index + t.lines.length) := by
        rw [hend, hbelow, TopLevel.withBody_lines, List.append_assoc]
        rfl

/-- The pass over the edited buffer finds the declaration with its new body in the place of the
declaration, and everything else as before. -/
theorem Symbol.BodyEdit.reading {t : TopLevel} {s : Symbol} {a b : List Line}
    {ts us : List TopLevel} (hedit : s.BodyEdit a b) (hs : t.Shows s)
    (hclosed : s.closes a = true) (hall : topLevel a = ts ++ t :: us)
    (hlen : 2 ≤ t.lines.length) :
    opensBlock t.head = true ∧ t.lines.length = (s.body b).length + 2 ∧
      topLevel b = ts ++ t.withBody (s.body b) :: us := by
  have hread := reading_topLevelFrom 0 a
  obtain ⟨-, h⟩ := hread.opens_of_mem (t := t) (by rw [← topLevel, hall]; simp)
  rw [Nat.sub_zero] at h
  have hopens : opensBlock t.head = true := by
    cases hopen : opensBlock t.head with
    | true => rfl
    | false =>
      rw [(h.single hopen).1, List.length_singleton] at hlen
      omega
  obtain ⟨p, hp⟩ := exists_close?_of_closes hs hclosed
  have hbrace := h.close?_lines hopens hp
  obtain ⟨hcount, hdrop⟩ := hedit.drop_index hs h hlen
  have hbody : t.lines.length = (s.body b).length + 2 := by omega
  obtain ⟨habove, haboveClosed, hbelow⟩ := hread.split hall
  rw [Nat.sub_zero] at habove hbelow
  have hbraces : Block.braces t.lines.tail.dropLast.flatten = Block.braces (s.body b).flatten := by
    rw [← hs.body_eq h, hedit.braces]
  have hnew := TopLevel.withBody_opens h hopens ⟨p, hbrace⟩ hbody hbraces
    (a.drop (t.index + t.lines.length))
  refine ⟨hopens, hbody, reading_iff.mp ?_⟩
  have hlines : a.take t.index ++ b.drop t.index = b := by
    have hstart : s.range.start.line = t.index := congrArg Position.line hs.start
    rw [hedit.take_eq (k := t.index) (by omega), List.take_append_drop]
  have hlength : (a.take t.index).length = t.index := by
    have hlt := hread.lt_length (t := t) (by rw [← topLevel, hall]; simp)
    rw [List.length_take]
    omega
  have hedited : Reading 0 (a.take t.index ++ b.drop t.index)
      (ts ++ t.withBody (s.body b) :: us) := by
    rw [hdrop]
    refine habove.append haboveClosed ?_
    rw [Nat.zero_add, hlength]
    refine .declare hnew ?_
    rw [List.drop_left, TopLevel.withBody_length, ← hbody]
    exact hbelow
  rwa [hlines] at hedited

/-- **Edits inside a body stay there.** Let a symbol in the outline of a buffer be closed, and let
the lines strictly between its first and its last one be replaced by as many others with the same
sequence of braces. Then the outline has the same symbols as before, one by one and in order, with
the same kinds, names, details, ranges and selections. Only the members of that one symbol may
differ, and the variables at the top level are the same. -/
theorem symbols_bodyEdit (a b : List Line) (s : Symbol) (hs : s ∈ symbols a)
    (hclosed : s.closes a = true) (hedit : s.BodyEdit a b) :
    (∃ above below children, symbols a = above ++ s :: below ∧
      symbols b = above ++ { s with children := children } :: below) ∧
    Scope.globals a = Scope.globals b := by
  obtain ⟨t, ht, hsymbol⟩ := List.mem_filterMap.mp hs
  obtain ⟨-, hopens⟩ := (reading_topLevelFrom 0 a).opens_of_mem ht
  have hshows := TopLevel.shows_of_symbol? hsymbol
  obtain ⟨ts, us, hall⟩ := List.append_of_mem ht
  have hbefore : symbols a =
      ts.filterMap TopLevel.symbol? ++ s :: us.filterMap TopLevel.symbol? := by
    rw [symbols, hall, List.filterMap_append, List.filterMap_cons_some hsymbol]
  by_cases hlen : 2 ≤ t.lines.length
  · obtain ⟨hblock, hbody, hafter⟩ := hedit.reading hshows hclosed hall hlen
    obtain ⟨children, hchildren⟩ := TopLevel.symbol?_withBody hbody hblock hsymbol
    refine ⟨⟨_, _, children, hbefore, ?_⟩, ?_⟩
    · rw [symbols, hafter, List.filterMap_append, List.filterMap_cons_some hchildren]
    · rw [Scope.globals_eq_filterMap, Scope.globals_eq_filterMap, hall, hafter,
        List.filterMap_append, List.filterMap_append, List.filterMap_cons, List.filterMap_cons]
      rfl
  · -- The symbol stands on one line, so there is nothing between and the buffers are the same.
    have hsame : a = b := by
      apply List.ext_getElem?
      intro i
      have hline : s.range.stop.line = s.range.start.line := by
        rw [hshows.stop_line hopens, hshows.start, TopLevel.lastIndex]
        dsimp only
        omega
      exact hedit.getElem?_eq (by omega)
    subst hsame
    exact ⟨⟨_, _, s.children, hbefore, hbefore⟩, rfl⟩

/-- The new body begins a struct and a function of its own, and its last brace stands in quotes. -/
theorem symbols_bodyEdit_newHeads :
    let a := Buffer.lines
      "let a;\nfn f() \x7b\n  let x: T = \x7b\x7d;\n  if c \x7b\n  \x7d\n\x7d;\nvar b;".toList
    let b := Buffer.lines
      "let a;\nfn f() \x7b\nstruct S \x7b\n\x7d fn g()\x7b\nlet y = \"\x7d\";\n\x7d;\nvar b;".toList
    let f : Symbol := ⟨⟨.function, "f", "Function", ⟨⟨1, 0⟩, ⟨5, 1⟩⟩, ⟨⟨1, 0⟩, ⟨1, 8⟩⟩⟩,
      [⟨.variable, "x", "Local variable", ⟨⟨2, 0⟩, ⟨2, 16⟩⟩, ⟨⟨2, 2⟩, ⟨2, 16⟩⟩⟩]⟩
    f ∈ symbols a ∧ f.closes a = true ∧ f.BodyEdit a b ∧
      (∃ above below children, symbols a = above ++ f :: below ∧
        symbols b = above ++ { f with children := children } :: below) ∧
      Scope.globals a = Scope.globals b := by
  intro a b f
  have hf : f ∈ symbols a := by decide +kernel
  have hclosed : f.closes a = true := by decide +kernel
  have hedit : f.BodyEdit a b :=
    ⟨by decide +kernel, by decide +kernel, by decide +kernel⟩
  exact ⟨hf, hclosed, hedit, symbols_bodyEdit a b f hf hclosed hedit⟩

end VeLens.Outline
