import VeLens.Proofs.Declaration.Inversion
import VeLens.Proofs.Outline.Entries

/-!
# Variables on a line

A variable is written as `let name: type = value;`, with blanks between the parts as one likes. All
parts are read back from such a line, whatever they hold: a value may contain further equals signs
and semicolons. Conversely, a value that was read stands between the first equals sign and the
semicolon that ends the line. The one exception is a line with no value in that place, where the
semicolon itself is taken for the value.

## Main definitions

* `TypePart`, `WrittenVariable`: a variable with the blanks around its parts.
* `IsValueMissing`: a line with nothing between the equals sign and the semicolon.
* `StandsBeforeMark`: a text between an equals sign and the semicolon that ends the line.

## Main results

* `variableHead?_line`: a written variable is read back.
* `value?_cases`: where in a text its value stands.
* `initializer_stands_before_mark_iff`: the value that was read leaves the semicolon out, unless it
  is missing.
-/

namespace VeLens.Declaration

open Text Outline

/-! ### Written variables -/

/-- Blanks between two parts of a line. -/
abbrev Blanks := { b : List Char // allBlank b = true }

/-- What is written about the type of a variable: nothing, a colon alone, or a colon and a type. -/
inductive TypePart where
  | absent
  | unwritten
  | written (type : TypeText)

/-- The text of the type, if there is a colon. -/
def TypePart.text? : TypePart → Option (List Char)
  | absent => none
  | unwritten => some []
  | written type => some type.text

/-- A variable as it is written on a line. Without a semicolon at the end, the line must not end in
one that belongs to the value, and it must have a value or at least a colon. -/
structure WrittenVariable where
  isForeign : Bool
  afterKeyword : Blanks
  spaced : afterKeyword.1 ≠ []
  name : Name
  afterName : Blanks
  type : TypePart
  beforeType : Blanks
  afterType : Blanks
  value : Option ValueText
  beforeValue : Blanks
  afterValue : Blanks
  isClosed : Bool
  open_value : isClosed = false → ∀ v ∈ value, v.text.getLast? ≠ some ';'
  open_type : isClosed = false → value = none → type ≠ .absent

namespace WrittenVariable

variable (w : WrittenVariable)

def typePart : List Char :=
  match w.type.text? with
  | none => []
  | some type => ':' :: (w.beforeType.1 ++ type ++ w.afterType.1)

def valuePart : List Char :=
  match w.value with
  | none => endWord w.isClosed
  | some value =>
    '=' :: (w.beforeValue.1 ++ value.text ++ w.afterValue.1 ++ endWord w.isClosed)

/-- `let name: type = value;`, with blanks between the parts. -/
def line : List Char :=
  variableWord w.isForeign ++
    (w.afterKeyword.1 ++ (w.name.text ++ (w.afterName.1 ++ (w.typePart ++ w.valuePart))))

/-- What is declared by the line. -/
def head : Variable :=
  ⟨w.isForeign, String.ofList w.name.text, w.type.text?.map String.ofList,
    w.value.map fun value => String.ofList value.text⟩

end WrittenVariable

theorem TypePart.of_text? {part : TypePart} {type : List Char} (h : part.text? = some type) :
    trim type = type ∧ ∀ c ∈ type, isTypeChar c = true := by
  cases part with
  | absent => simp [text?] at h
  | unwritten =>
    obtain rfl := Option.some_inj.mp h
    exact ⟨rfl, by simp⟩
  | written t =>
    obtain rfl := Option.some_inj.mp h
    exact ⟨t.trimmed, t.isTypeChar_of_mem⟩

theorem TypePart.isSome_text? {part : TypePart} (h : part ≠ .absent) :
    part.text?.isSome = true := by
  cases part with
  | absent => exact absurd rfl h
  | unwritten => rfl
  | written t => rfl

/-! ### Reading the type -/

namespace WrittenVariable

variable (w : WrittenVariable)

theorem valuePart_mark : ∀ c ∈ w.valuePart.head?, isTypeChar c = false := by
  intro c hc
  rw [valuePart] at hc
  cases hvalue : w.value with
  | some value =>
    obtain rfl : '=' = c := by simpa [hvalue] using hc
    decide
  | none =>
    rw [hvalue] at hc
    cases hclosed : w.isClosed with
    | false => simp [hclosed, endWord] at hc
    | true =>
      obtain rfl : ';' = c := by simpa [hclosed, endWord] using hc
      decide

theorem writtenType_parts :
    writtenType (w.afterName.1 ++ (w.typePart ++ w.valuePart)) = (w.type.text?, w.valuePart) := by
  have hmark := w.valuePart_mark
  rw [writtenType_blanks_append w.afterName.2, typePart]
  cases htype : w.type.text? with
  | none =>
    rw [List.nil_append, writtenType_of_mark hmark]
  | some type =>
    obtain ⟨htrim, hchars⟩ := TypePart.of_text? htype
    have hread := writtenType_colon w.beforeType.1 type w.afterType.1 w.valuePart w.beforeType.2
      w.afterType.2 hchars hmark
    rwa [htrim] at hread

theorem endsName_parts : EndsName (w.afterName.1 ++ (w.typePart ++ w.valuePart)) := by
  apply endsName_blanks_append w.afterName.2
  intro c hc
  rw [typePart] at hc
  cases htype : w.type.text? with
  | none =>
    rw [htype, List.nil_append] at hc
    rcases mark_of_not_isTypeChar (w.valuePart_mark c hc) with rfl | rfl <;> decide
  | some type =>
    obtain rfl : ':' = c := by simpa [htype] using hc
    decide

end WrittenVariable

/-! ### Reading the value -/

/-- Without a semicolon at its end a value is read up to the blanks behind it. -/
theorem value?_open (b v b' : List Char) (hb : allBlank b = true) (hb' : allBlank b' = true)
    (hne : v ≠ []) (hv : trim v = v) (hline : '\n' ∉ v) (hlast : v.getLast? ≠ some ';') :
    value? (b ++ v ++ b') = some v := by
  have hblank : allBlank (b ++ v ++ b') = false := by
    rw [allBlank, List.all_append, List.all_append, ← allBlank, ← allBlank,
      allBlank_eq_false_of_trim hv hne, Bool.and_false, Bool.false_and]
  have hstatement : statement v = v := by
    rw [statement, beforeEnd?_singleton_eq_none_iff.mpr hlast]
  rw [value?, hblank, if_neg Bool.false_ne_true, trim_append_blanks hb hb', hv, hstatement]
  simp [hline]

theorem WrittenVariable.value?_parts (w : WrittenVariable) {value : ValueText}
    (hvalue : w.value = some value) :
    value? (w.beforeValue.1 ++ value.text ++ w.afterValue.1 ++ endWord w.isClosed) =
      some value.text := by
  cases hclosed : w.isClosed with
  | true =>
    exact value?_semicolon w.beforeValue.1 value.text w.afterValue.1 w.beforeValue.2
      w.afterValue.2 value.ne_nil value.trimmed value.oneLine
  | false =>
    have hread := value?_open w.beforeValue.1 value.text w.afterValue.1 w.beforeValue.2
      w.afterValue.2 value.ne_nil value.trimmed value.oneLine (w.open_value hclosed value hvalue)
    rwa [endWord, if_neg Bool.false_ne_true, List.append_nil]

/-- **A written variable is read back.** Keyword, name, type and value are found on the line as they
were written, whatever blanks stand between them. -/
theorem variableHead?_line (w : WrittenVariable) : variableHead? w.line = some w.head := by
  have htype := w.writtenType_parts
  have htrim := trimLeft_of_mark w.valuePart_mark
  rw [WrittenVariable.head]
  cases hvalue : w.value with
  | some value =>
    have hpart : w.valuePart = '=' ::
        (w.beforeValue.1 ++ value.text ++ w.afterValue.1 ++ endWord w.isClosed) := by
      rw [WrittenVariable.valuePart, hvalue]
    exact variableHead?_of_value w.isForeign w.spaced w.afterKeyword.2 w.name.isName
      w.endsName_parts htype (htrim.trans hpart) (w.value?_parts hvalue)
  | none =>
    have hpart : w.valuePart = endWord w.isClosed := by
      rw [WrittenVariable.valuePart, hvalue]
    refine variableHead?_of_mark w.isForeign w.spaced w.afterKeyword.2 w.name.isName
      w.endsName_parts htype w.isClosed (htrim.trans hpart) ?_
    by_cases hclosed : w.isClosed = true
    · exact .inl hclosed
    · exact .inr (TypePart.isSome_text? (w.open_type (Bool.eq_false_iff.mpr hclosed) hvalue))

/-- A value that holds every mark is told apart from the type before it and the semicolon behind. -/
theorem variableHead?_line_marks :
    variableHead? "var n : a:b =  = \"c;\": d; \t;".toList =
      some ⟨true, "n", some "a:b", some "= \"c;\": d;"⟩ := by
  have hread := variableHead?_line
    ⟨true, ⟨[' '], by decide⟩, by decide, ⟨['n'], by decide⟩, ⟨[' '], by decide⟩,
      .written ⟨⟨"a:b".toList, by decide, by decide, by decide⟩, by decide⟩,
      ⟨[' '], by decide⟩, ⟨[' '], by decide⟩,
      some ⟨"= \"c;\": d;".toList, by decide, by decide +kernel, by decide⟩,
      ⟨[' ', ' '], by decide⟩, ⟨[' ', '\t'], by decide⟩, true, by simp, by simp⟩
  exact hread

/-! ### Where a value stands -/

/-- There is nothing between the first equals sign of the line and the semicolon at its end. -/
def IsValueMissing (line : List Char) : Prop :=
  ∃ front b, '=' ∉ front ∧ allBlank b = true ∧ line = front ++ '=' :: (b ++ [';'])

/-- The text stands between the first equals sign of the line and the semicolon at its end, blanks
on both sides left out. -/
def StandsBeforeMark (line v : List Char) : Prop :=
  ∃ front b b', '=' ∉ front ∧ allBlank b = true ∧ allBlank b' = true ∧
    line = front ++ '=' :: (b ++ (v ++ (b' ++ [';'])))

theorem not_standsBeforeMark_of_isValueMissing {line v : List Char} (hne : v ≠ [])
    (hv : trim v = v) (hmissing : IsValueMissing line) : ¬ StandsBeforeMark line v := by
  rintro ⟨front, b, b', hfront, hb, hb', hline⟩
  obtain ⟨front', c, hfront', hc, rfl⟩ := hmissing
  have hmark : '=' ∉ c ++ [';'] := by
    simpa using not_mem_of_allBlank (by decide) hc
  obtain ⟨-, -, hrest⟩ := (List.append_cons_inj_of_notMem hfront' hmark).mp hline
  -- The text would be part of the blanks before the semicolon.
  have hblanks : c = b ++ (v ++ b') := by
    rw [← List.append_assoc v, ← List.append_assoc b] at hrest
    exact List.append_cancel_right hrest
  have hblank : allBlank v = true := by
    rw [allBlank_iff]
    intro d hd
    apply allBlank_iff.mp hc
    rw [hblanks]
    exact List.mem_append_right b (List.mem_append_left b' hd)
  rw [allBlank_eq_false_of_trim hv hne] at hblank
  exact Bool.noConfusion hblank

/-- What is left of a trimmed text without its last semicolon. -/
theorem statement_cases {t : List Char} (hne : t ≠ []) (ht : trim t = t) :
    statement t ≠ [] ∧ trim (statement t) = statement t ∧
      ((∃ b, allBlank b = true ∧ t = statement t ++ (b ++ [';'])) ∨
        statement t = t ∧ (t.getLast? = some ';' → t = [';'])) := by
  rw [statement]
  split
  · next body hbody =>
    have hclosed : t = body ++ [';'] := beforeEnd?_eq_some_iff.mp hbody
    split
    · next hblank =>
      refine ⟨hne, ht, .inr ⟨rfl, fun _ => ?_⟩⟩
      -- A trimmed text does not begin with blanks, so there are none before the semicolon.
      have hnil : trimLeft t = [';'] := by
        rw [hclosed, trimLeft_append_of_allBlank hblank]
        rfl
      rwa [trimLeft_eq_self_of_trim ht] at hnil
    · next hblank =>
      have hbody : trimRight body ≠ [] := mt trimRight_eq_nil_iff.mp hblank
      obtain ⟨b, hb, hsplit⟩ := exists_eq_trimRight_append body
      have hparts : t = trimRight body ++ (b ++ [';']) := by
        rw [← List.append_assoc, ← hsplit, hclosed]
      refine ⟨hbody, ?_, .inl ⟨b, hb, hparts⟩⟩
      have hleft : trimLeft (trimRight body) = trimRight body := by
        apply trimLeft_eq_self
        intro c hc
        apply not_isBlank_head_of_trim ht
        rwa [hparts, List.head?_append_of_ne_nil _ hbody]
      rw [trim, hleft, trimRight_trimRight]
  · next hnone =>
    have hlast := beforeEnd?_singleton_eq_none_iff.mp hnone
    exact ⟨hne, ht, .inr ⟨rfl, fun h => absurd h hlast⟩⟩

/-- The value in a text that does not end in blanks: it reaches up to the last semicolon or, without
one, to the end. Only a semicolon that stands alone is a value itself. -/
theorem value?_cases {text v : List Char} (htext : trimRight text = text)
    (h : value? text = some v) :
    v ≠ [] ∧ trim v = v ∧ ∃ b, allBlank b = true ∧
      ((∃ b', allBlank b' = true ∧ text = b ++ (v ++ (b' ++ [';']))) ∨
        text = b ++ v ∧ (v.getLast? = some ';' → v = [';'])) := by
  rw [value?] at h
  split at h
  · next hblank =>
    obtain rfl : text = [] := by rw [← htext, trimRight_eq_nil_iff.mpr hblank]
    simp at h
  · next hblank =>
    have hne : trimLeft text ≠ [] := mt trimLeft_eq_nil_iff.mp hblank
    obtain ⟨b, hb, hsplit⟩ := exists_eq_append_trimLeft text
    have hright : trimRight (trimLeft text) = trimLeft text := by
      rw [hsplit, trimRight_append (allBlank_trimLeft hne)] at htext
      exact List.append_cancel_left htext
    have hleft : trimLeft (trimLeft text) = trimLeft text := List.dropWhile_idempotent _ text
    have htrim : trim (trimLeft text) = trimLeft text := by rw [trim, hleft, hright]
    obtain ⟨hvalue, htrimmed, hcases⟩ := statement_cases hne htrim
    rw [trim, hright] at h
    dsimp only at h
    split at h
    · exact absurd h (by simp)
    · obtain rfl := Option.some_inj.mp h
      refine ⟨hvalue, htrimmed, b, hb, ?_⟩
      rcases hcases with ⟨b', hb', hclosed⟩ | ⟨hopen, hlast⟩
      · left
        exact ⟨b', hb', by rw [← hclosed, ← hsplit]⟩
      · right
        rw [hopen, ← hsplit]
        exact ⟨rfl, hlast⟩

/-- The type of a variable ends before the first equals sign. -/
theorem exists_eq_append_writtenType (s : List Char) :
    ∃ front, '=' ∉ front ∧ s = front ++ (writtenType s).2 := by
  obtain ⟨b, hb, hsplit⟩ := exists_eq_append_trimLeft s
  have hblank : '=' ∉ b := not_mem_of_allBlank (by decide) hb
  rw [writtenType]
  split
  · next rest hrest =>
    refine ⟨b ++ ':' :: rest.takeWhile isTypeChar, ?_, ?_⟩
    · have htype : '=' ∉ rest.takeWhile isTypeChar := fun hmem =>
        Bool.noConfusion (List.mem_takeWhile_imp hmem)
      simp [hblank, htype]
    · rw [List.append_assoc, List.cons_append, List.takeWhile_append_dropWhile, ← hrest, ← hsplit]
  · exact ⟨b, hblank, hsplit⟩

/-- The value of a variable is read from what follows the first equals sign of its line. -/
theorem exists_value_of_initializer {line : List Char} {head : Variable} {v : String}
    (h : variableHead? line = some head) (hv : head.initializer = some v) :
    ∃ front text, '=' ∉ front ∧ line = front ++ '=' :: text ∧ value? text = some v.toList := by
  obtain ⟨b, n, s, -, hb, hn, -, rfl, -, -, hinitializer⟩ := variableHead?_parts h
  obtain ⟨text, htext, hvalue⟩ := hinitializer v hv
  obtain ⟨type, htype, hsplit⟩ := exists_eq_append_writtenType s
  obtain ⟨b', hb', hrest⟩ := exists_eq_append_trimLeft (writtenType s).2
  refine ⟨variableWord head.isForeign ++ (b ++ (n ++ (type ++ b'))), text, ?_, ?_, hvalue⟩
  · have hword : '=' ∉ variableWord head.isForeign := by cases head.isForeign <;> decide
    have hname : '=' ∉ n := not_mem_of_isName hn (by decide)
    have hblank : '=' ∉ b ∧ '=' ∉ b' :=
      ⟨not_mem_of_allBlank (by decide) hb, not_mem_of_allBlank (by decide) hb'⟩
    simp [hword, hname, htype, hblank]
  · rw [htext] at hrest
    rw [hsplit, hrest]
    simp only [List.append_assoc]

/-- **The semicolon at the end of a line does not belong to the value, unless it stands alone.** The
value of a variable is not empty and has no blanks at its ends. On a line that ends in a semicolon
it stands between the first equals sign and that semicolon. Where nothing stands there, and only
there, the semicolon itself is taken for the value. -/
theorem initializer_stands_before_mark_iff {line : List Char} {head : Variable} {v : String}
    (hline : trim line = line) (h : variableHead? line = some head)
    (hv : head.initializer = some v) :
    v.toList ≠ [] ∧ trim v.toList = v.toList ∧
      (line.getLast? = some ';' →
        (StandsBeforeMark line v.toList ↔ ¬ IsValueMissing line) ∧
          (IsValueMissing line → v = ";")) := by
  obtain ⟨front, text, hfront, rfl, hvalue⟩ := exists_value_of_initializer h hv
  have htext : trimRight text = text := by
    have hright := trimRight_eq_self_of_trim hline
    rw [trimRight_append_cons (by decide)] at hright
    exact (List.cons.inj (List.append_cancel_left hright)).2
  obtain ⟨hne, htrim, b, hb, hcases⟩ := value?_cases htext hvalue
  refine ⟨hne, htrim, fun hend => ?_⟩
  have hexclusive : IsValueMissing (front ++ '=' :: text) →
      ¬ StandsBeforeMark (front ++ '=' :: text) v.toList :=
    not_standsBeforeMark_of_isValueMissing hne htrim
  rcases hcases with ⟨b', hb', rfl⟩ | ⟨rfl, hlast⟩
  · have hstands : StandsBeforeMark _ v.toList := ⟨front, b, b', hfront, hb, hb', rfl⟩
    exact ⟨⟨fun _ hmissing => hexclusive hmissing hstands, fun _ => hstands⟩,
      fun hmissing => absurd hstands (hexclusive hmissing)⟩
  · have hmark : v.toList = [';'] := by
      apply hlast
      rwa [List.getLast?_append_of_ne_nil _ (List.cons_ne_nil _ _), ← List.cons_append,
        List.getLast?_append_of_ne_nil _ hne] at hend
    have hmissing : IsValueMissing (front ++ '=' :: (b ++ v.toList)) :=
      ⟨front, b, hfront, hb, by rw [hmark]⟩
    refine ⟨⟨fun hstands => absurd hstands (hexclusive hmissing), fun h => absurd hmissing h⟩,
      fun _ => ?_⟩
    rw [← String.ofList_toList (s := v), hmark]

theorem initializer_stands_before_mark_quoted :
    StandsBeforeMark "let s: text = \"a;b=\" ;".toList "\"a;b=\"".toList := by
  have hread : variableHead? "let s: text = \"a;b=\" ;".toList =
      some ⟨false, "s", some "text", some "\"a;b=\""⟩ := by decide +kernel
  obtain ⟨-, -, hends⟩ := initializer_stands_before_mark_iff (by decide +kernel) hread rfl
  obtain ⟨hstands, hmark⟩ := hends (by decide +kernel)
  exact hstands.mpr fun hmissing => absurd (hmark hmissing) (by decide)

/-- A semicolon directly behind the equals sign is taken for the value. -/
theorem semicolon_alone_is_value :
    trim "let x =;".toList = "let x =;".toList ∧
      variableHead? "let x =;".toList = some ⟨false, "x", none, some ";"⟩ ∧
      ¬ StandsBeforeMark "let x =;".toList ";".toList := by
  refine ⟨by decide +kernel, by decide +kernel, ?_⟩
  apply not_standsBeforeMark_of_isValueMissing (by decide) (by decide)
  exact ⟨"let x ".toList, [], by decide, rfl, by decide⟩

end VeLens.Declaration
