import VeLens.Proofs.Declaration.Heads

/-!
# What was read

If a reader finds something on a line, the line has the shape that the reader is made for. The first
two letters of a line already tell which reader can succeed on it, so no line has two heads, and the
order in which the readers are tried does not matter.

## Main definitions

* `Head.initials`: the letters that a line with such a head begins with.
* `readers`, `firstHead`: the six readers, and the head that they find in some order.
* `HasColon`: a line on which a colon follows the name of a variable.

## Main results

* `classify_eq_some_iff`: the head on a line is the only one that any reader finds there.
* `readers_exclusive`: at most one reader succeeds on a line, and any order gives the same head.
* `variableHead?_parts`: where the parts of a variable that was read stand.
* `isSome_writtenType_iff`: a variable has a written type exactly if a colon follows its name.
-/

namespace VeLens.Declaration

open Text

/-! ### Parts of a line -/

theorem exists_blanks_of_afterBlanks? {s rest : List Char} (h : afterBlanks? s = some rest) :
    ∃ b, b ≠ [] ∧ allBlank b = true ∧ s = b ++ rest := by
  cases s with
  | nil => simp [afterBlanks?] at h
  | cons c s =>
    rw [afterBlanks?] at h
    split at h
    · next hc =>
      refine ⟨c :: s.takeWhile isBlank, List.cons_ne_nil _ _, ?_, ?_⟩
      · rw [allBlank, List.all_cons, hc, Bool.true_and]
        exact List.all_takeWhile
      · rw [← Option.some_inj.mp h, List.cons_append, trimLeft, List.takeWhile_append_dropWhile]
    · exact absurd h (by simp)

theorem name?_eq_some_iff {s n rest : List Char} :
    name? s = some (n, rest) ↔ s = n ++ rest ∧ isName n = true ∧ EndsName rest := by
  constructor
  · intro h
    cases s with
    | nil => simp [name?] at h
    | cons c s =>
      rw [name?] at h
      split at h
      · next hc =>
        rw [Option.some_inj, Prod.mk.injEq] at h
        obtain ⟨rfl, rfl⟩ := h
        refine ⟨?_, ?_, ?_⟩
        · rw [List.cons_append, List.takeWhile_append_dropWhile]
        · exact isName_cons.mpr ⟨hc, fun d hd => List.mem_takeWhile_imp hd⟩
        · intro d hd
          have hhead := List.head?_dropWhile_not isNameChar s
          rw [hd] at hhead
          exact hhead
      · exact absurd h (by simp)
  · rintro ⟨rfl, hn, hrest⟩
    exact name?_append hn hrest

theorem isPrefix_of_named? {keyword s : List Char} {p : List Char × List Char}
    (h : named? keyword s = some p) : keyword <+: s := by
  simp only [named?, Option.bind_eq_bind, Option.bind_eq_some_iff] at h
  obtain ⟨rest, hrest, -⟩ := h
  exact ⟨rest, (after?_eq_some_iff.mp hrest).symm⟩

theorem isPrefix_of_braced? {keyword line : List Char} {name : String}
    (h : braced? keyword line = some name) : keyword <+: line := by
  simp only [braced?, Option.bind_eq_bind, Option.bind_eq_some_iff] at h
  obtain ⟨p, hp, -⟩ := h
  exact isPrefix_of_named? hp

theorem isPrefix_of_functionHead? {line : List Char} {head : Function}
    (h : functionHead? line = some head) :
    ['f', 'n'] <+: line ∨ ['e', 'x', 'p', 'o', 'r', 't'] <+: line := by
  simp only [functionHead?, Option.bind_eq_bind, Option.bind_eq_some_iff] at h
  obtain ⟨p, hp, -⟩ := h
  rw [exportMark] at hp
  split at hp
  · next rest hrest =>
    obtain ⟨s, hs, -⟩ := Option.bind_eq_some_iff.mp hrest
    exact .inr ⟨s, (after?_eq_some_iff.mp hs).symm⟩
  · exact .inl (isPrefix_of_named? hp)

theorem variableKeyword?_eq_some_iff {line s : List Char} {isForeign : Bool} :
    variableKeyword? line = some (isForeign, s) ↔ line = variableWord isForeign ++ s := by
  constructor
  · intro h
    rw [variableKeyword?] at h
    split at h
    · next rest hrest =>
      rw [Option.some_inj, Prod.mk.injEq] at h
      obtain ⟨rfl, rfl⟩ := h
      exact after?_eq_some_iff.mp hrest
    · obtain ⟨rest, hrest, hsame⟩ := Option.map_eq_some_iff.mp h
      obtain ⟨rfl, rfl⟩ := Prod.mk.inj hsame
      exact after?_eq_some_iff.mp hrest
  · rintro rfl
    exact variableKeyword?_variableWord isForeign s

/-! ### One head for each line -/

/-- The letters that a line with such a head begins with. -/
def Head.initials : Head → List (List Char)
  | .function _ => [['f', 'n'], ['e', 'x']]
  | .struct _ => [['s', 't']]
  | .enum _ => [['e', 'n']]
  | .variable _ => [['l', 'e'], ['v', 'a']]
  | .loop _ => [['f', 'o']]
  | .importing _ => [['i', 'm']]

theorem Head.ReadFrom.take_two {line : List Char} {head : Head} (h : head.ReadFrom line) :
    line.take 2 ∈ head.initials := by
  cases head with
  | function head =>
    rcases isPrefix_of_functionHead? h with ⟨s, rfl⟩ | ⟨s, rfl⟩ <;> simp [initials]
  | struct name | enum name =>
    obtain ⟨s, rfl⟩ := isPrefix_of_braced? h
    simp [initials]
  | «variable» head =>
    rw [ReadFrom] at h
    simp only [variableHead?, Option.bind_eq_bind, Option.bind_eq_some_iff] at h
    obtain ⟨⟨isForeign, s⟩, hs, -⟩ := h
    rw [variableKeyword?_eq_some_iff.mp hs]
    cases isForeign <;> simp [initials, variableWord]
  | loop name =>
    rw [ReadFrom] at h
    simp only [loopHead?, Option.bind_eq_bind, Option.bind_eq_some_iff] at h
    obtain ⟨p, hp, -⟩ := h
    obtain ⟨s, rfl⟩ := isPrefix_of_named? hp
    simp [initials]
  | importing path =>
    rw [ReadFrom] at h
    simp only [importHead?, Option.bind_eq_bind, Option.bind_eq_some_iff] at h
    obtain ⟨s, hs, -⟩ := h
    rw [after?_eq_some_iff.mp hs]
    simp [initials]

/-- Two readers do not succeed on the same line. -/
theorem Head.ReadFrom.unique {line : List Char} {head head' : Head} (h : head.ReadFrom line)
    (h' : head'.ReadFrom line) : head = head' := by
  have hinitials := h.take_two
  have hinitials' := h'.take_two
  -- The letters tell heads of different kinds apart, and one reader finds one head only.
  cases head <;> cases head' <;> grind [ReadFrom, initials]

theorem classify_eq_some_iff {line : List Char} {head : Head} :
    classify line = some head ↔ head.ReadFrom line := by
  constructor
  · exact readFrom_of_classify
  · intro h
    have hsome : classify line ≠ none := by
      cases head <;> rw [Head.ReadFrom] at h <;> simp [classify, h]
    obtain ⟨head', hhead'⟩ := Option.ne_none_iff_exists'.mp hsome
    rw [hhead', (readFrom_of_classify hhead').unique h]

/-! ### Readers in any order -/

/-- The readers of all kinds of heads, in the order in which a line is offered to them. -/
def readers : List (List Char → Option Head) := [
  fun line => (functionHead? line).map .function,
  fun line => (structHead? line).map .struct,
  fun line => (enumHead? line).map .enum,
  fun line => (variableHead? line).map .variable,
  fun line => (loopHead? line).map .loop,
  fun line => (importHead? line).map .importing]

/-- The head on a line that is offered to readers in some order. -/
def firstHead (order : List (List Char → Option Head)) (line : List Char) : Option Head :=
  order.findSome? fun read => read line

theorem exists_reader_iff {line : List Char} {head : Head} :
    (∃ read ∈ readers, read line = some head) ↔ head.ReadFrom line := by
  cases head <;> simp [readers, Head.ReadFrom]

/-- Different readers find heads of different kinds. -/
theorem readers_pairwise_ne :
    readers.Pairwise fun read read' =>
      ∀ line line' head, read line = some head → read' line' ≠ some head := by
  simp [readers]

/-- Of two readers at most one finds a head on a line: there is only one head to be found, and it is
of one kind. -/
theorem readers_pairwise_none (line : List Char) :
    readers.Pairwise fun read read' => read line = none ∨ read' line = none := by
  refine readers_pairwise_ne.imp_of_mem fun {read read'} hread hread' hne => ?_
  cases hhead : read line with
  | none => exact .inl rfl
  | some head =>
    refine .inr (Option.eq_none_iff_forall_ne_some.mpr fun head' hhead' => ?_)
    have hfrom := exists_reader_iff.mp ⟨read, hread, hhead⟩
    obtain rfl := hfrom.unique (exists_reader_iff.mp ⟨read', hread', hhead'⟩)
    exact hne line line head hhead hhead'

theorem firstHead_eq_some_iff {order : List (List Char → Option Head)} {line : List Char}
    {head : Head} (hperm : order.Perm readers) :
    firstHead order line = some head ↔ head.ReadFrom line := by
  constructor
  · intro h
    obtain ⟨read, hread, hhead⟩ := List.exists_of_findSome?_eq_some h
    exact exists_reader_iff.mp ⟨read, hperm.mem_iff.mp hread, hhead⟩
  · intro h
    obtain ⟨read, hread, hhead⟩ := exists_reader_iff.mpr h
    have hsome : (firstHead order line).isSome = true :=
      List.findSome?_isSome_iff.mpr ⟨read, hperm.mem_iff.mpr hread, by simp [hhead]⟩
    obtain ⟨head', hhead'⟩ := Option.isSome_iff_exists.mp hsome
    -- Whichever reader came first, it found the head that is asked for.
    obtain ⟨read', hread', hfound⟩ := List.exists_of_findSome?_eq_some hhead'
    have hfrom := exists_reader_iff.mp ⟨read', hperm.mem_iff.mp hread', hfound⟩
    rw [hhead', hfrom.unique h]

/-- **No line has two heads.** Of the six readers at most one succeeds on a line, whatever the line
is. So the readers may be tried in any order, and the head on a line is a function, or a variable,
exactly if the reader of that kind finds it. -/
theorem readers_exclusive (line : List Char) :
    (readers.Pairwise fun read read' => read line = none ∨ read' line = none) ∧
    (∀ order : List (List Char → Option Head), order.Perm readers →
      firstHead order line = classify line) ∧
    (∀ head, classify line = some (.variable head) ↔ variableHead? line = some head) ∧
    ∀ head, classify line = some (.function head) ↔ functionHead? line = some head := by
  refine ⟨readers_pairwise_none line, fun order hperm => ?_, fun head => ?_, fun head => ?_⟩
  · ext head
    exact (firstHead_eq_some_iff hperm).trans classify_eq_some_iff.symm
  · exact classify_eq_some_iff
  · exact classify_eq_some_iff

/-- The last reader first, on a line with the keywords of four kinds. -/
theorem readers_exclusive_keywords :
    readers.reverse.Perm readers ∧
      firstHead readers.reverse "let import: enum = fn f(".toList =
        some (.variable ⟨false, "import", some "enum", some "fn f("⟩) := by
  have hperm := List.reverse_perm readers
  obtain ⟨-, hany, hvariable, -⟩ := readers_exclusive "let import: enum = fn f(".toList
  exact ⟨hperm, (hany _ hperm).trans ((hvariable _).mpr (by decide +kernel))⟩

/-! ### Variables -/

/-- A line is divided into keyword, blanks, name and rest in one way only. -/
theorem rest_unique {f f' : Bool} {b b' n n' s s' : List Char} (hne : b ≠ []) (hne' : b' ≠ [])
    (hb : allBlank b = true) (hb' : allBlank b' = true) (hn : isName n = true)
    (hn' : isName n' = true) (hs : EndsName s) (hs' : EndsName s')
    (h : variableWord f ++ (b ++ (n ++ s)) = variableWord f' ++ (b' ++ (n' ++ s'))) : s = s' := by
  have hkeyword := variableKeyword?_variableWord f (b ++ (n ++ s))
  rw [h, variableKeyword?_variableWord, Option.some_inj, Prod.mk.injEq] at hkeyword
  have hblanks := afterBlanks?_append hne hb hn s
  rw [← hkeyword.2, afterBlanks?_append hne' hb' hn' s', Option.some_inj] at hblanks
  have hname := name?_append hn hs
  rw [← hblanks, name?_append hn' hs', Option.some_inj, Prod.mk.injEq] at hname
  exact hname.2.symm

/-- Keyword, blanks and name of a variable that was read. What follows the name holds its type and
its value. -/
theorem variableHead?_parts {line : List Char} {head : Variable}
    (h : variableHead? line = some head) :
    ∃ b n s, b ≠ [] ∧ allBlank b = true ∧ isName n = true ∧ EndsName s ∧
      line = variableWord head.isForeign ++ (b ++ (n ++ s)) ∧ head.name = String.ofList n ∧
      head.writtenType = (writtenType s).1.map String.ofList ∧
      ∀ v, head.initializer = some v →
        ∃ text, trimLeft (writtenType s).2 = '=' :: text ∧ value? text = some v.toList := by
  simp only [variableHead?, Option.bind_eq_bind, Option.bind_eq_some_iff] at h
  obtain ⟨⟨isForeign, s₁⟩, hkeyword, s₂, hblanks, ⟨n, s⟩, hname, h⟩ := h
  obtain ⟨b, hne, hb, rfl⟩ := exists_blanks_of_afterBlanks? hblanks
  obtain ⟨rfl, hn, hs⟩ := name?_eq_some_iff.mp hname
  have hparts : head.isForeign = isForeign ∧ head.name = String.ofList n ∧
      head.writtenType = (writtenType s).1.map String.ofList ∧
      ∀ v, head.initializer = some v →
        ∃ text, trimLeft (writtenType s).2 = '=' :: text ∧ value? text = some v.toList := by
    dsimp only at h
    split at h
    · next text htext =>
      obtain ⟨value, hvalue, h⟩ := Option.bind_eq_some_iff.mp h
      obtain rfl := Option.some_inj.mp h
      refine ⟨rfl, rfl, rfl, fun v hv => ⟨text, htext, ?_⟩⟩
      rw [← Option.some_inj.mp hv, String.toList_ofList, hvalue]
    · obtain ⟨closed, -, h⟩ := Option.bind_eq_some_iff.mp h
      split at h
      · obtain rfl := Option.some_inj.mp h
        exact ⟨rfl, rfl, rfl, fun v hv => by simp at hv⟩
      · exact absurd h (by simp)
  obtain ⟨rfl, hrest⟩ := hparts
  exact ⟨b, n, s, hne, hb, hn, hs, variableKeyword?_eq_some_iff.mp hkeyword, hrest⟩

/-- The name of the variable on the line is followed by a colon, after which its type is written or
about to be written. -/
def HasColon (line : List Char) : Prop :=
  ∃ isForeign b n b' rest, b ≠ [] ∧ allBlank b = true ∧ isName n = true ∧ allBlank b' = true ∧
    line = variableWord isForeign ++ (b ++ (n ++ (b' ++ ':' :: rest)))

theorem isSome_writtenType_iff_trimLeft {s : List Char} :
    (writtenType s).1.isSome = true ↔ ∃ rest, trimLeft s = ':' :: rest := by
  constructor
  · intro h
    rw [writtenType] at h
    split at h
    · next rest hrest => exact ⟨rest, hrest⟩
    · exact absurd h (by simp)
  · rintro ⟨rest, hrest⟩
    rw [writtenType_of_colon hrest]
    rfl

theorem endsName_blanks_append {b s : List Char} (hb : allBlank b = true) (hs : EndsName s) :
    EndsName (b ++ s) := by
  cases b with
  | nil => exact hs
  | cons c b =>
    intro d hd
    obtain rfl : c = d := by simpa using hd
    rw [Bool.eq_false_iff]
    intro hname
    have hblank := allBlank_iff.mp hb c List.mem_cons_self
    rw [not_isBlank_of_isNameChar hname] at hblank
    exact Bool.noConfusion hblank

/-- A variable that was read has a written type exactly if a colon follows its name. -/
theorem isSome_writtenType_iff {line : List Char} {head : Variable}
    (h : variableHead? line = some head) : head.writtenType.isSome = true ↔ HasColon line := by
  obtain ⟨b, n, s, hne, hb, hn, hs, hline, -, htype, -⟩ := variableHead?_parts h
  rw [htype, Option.isSome_map, isSome_writtenType_iff_trimLeft]
  constructor
  · rintro ⟨rest, hrest⟩
    obtain ⟨b', hb', hsplit⟩ := exists_eq_append_trimLeft s
    refine ⟨head.isForeign, b, n, b', rest, hne, hb, hn, hb', ?_⟩
    rw [hline, ← hrest, ← hsplit]
  · rintro ⟨isForeign, c, m, c', rest, hne', hc, hm, hc', hline'⟩
    have hends : EndsName (c' ++ ':' :: rest) :=
      endsName_blanks_append hc' (by simp [EndsName, isNameChar])
    refine ⟨rest, ?_⟩
    rw [rest_unique hne hne' hb hc hn hm hs hends (hline.symm.trans hline'),
      trimLeft_append_of_allBlank hc', trimLeft_cons_of_not_blank (by decide)]

end VeLens.Declaration
