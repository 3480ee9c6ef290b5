import VeLens.Proofs.Outline.Entries

/-!
# Lines of printed entries

Every line on which an entry is printed has no blanks at its ends and no line feed inside. The
first line is read as the head that it was printed from, it opens one brace if it has a block, and
each line of a block of fields or variants is read as its member.

## Main results

* `headOf_variableLine`, `headOf_structLine`, `headOf_enumLine`, `headOf_functionLine`: the heads
  that are read from the first lines.
* `bracedLine_braces`, `functionLine_braces`: the braces of the first lines.
* `fieldItem?_fieldLine`, `variantItem?_variant`: the members that are read from the other lines.
* `Entry.oneLine`: no line of an entry holds a line feed.
-/

namespace VeLens.Outline

open Declaration Text

/-! ### Blanks -/

theorem trim_variableLine (isForeign : Bool) (name : Name) (type : Option TypeText)
    (value : Option ValueText) :
    trim (variableLine isForeign name type value) = variableLine isForeign name type value := by
  have hlast : variableLine isForeign name type value = variableWord isForeign ++
      ' ' :: (name.text ++ (typePart type ++ valuePart value)) ++ [';'] := by
    simp [variableLine]
  rw [hlast]
  apply trim_concat
  all_goals cases isForeign <;> simp [variableWord, isBlank]

theorem trim_bracedLine (keyword : List Char) (hne : keyword ≠ [])
    (hkeyword : ∀ c ∈ keyword.head?, isBlank c = false) (name : Name) :
    trim (bracedLine keyword name) = bracedLine keyword name := by
  have hlast : bracedLine keyword name = keyword ++ ' ' :: (name.text ++ [' ']) ++ ['{'] := by
    simp [bracedLine]
  rw [hlast]
  exact trim_concat hne hkeyword (by decide)

theorem trim_structLine (name : Name) :
    trim (bracedLine structWord name) = bracedLine structWord name :=
  trim_bracedLine structWord (by decide) (by simp [structWord, isBlank]) name

theorem trim_enumLine (name : Name) :
    trim (bracedLine enumWord name) = bracedLine enumWord name :=
  trim_bracedLine enumWord (by decide) (by simp [enumWord, isBlank]) name

theorem trim_functionLine (isExported : Bool) (name : Name) (parameters : ParameterText) :
    trim (functionLine isExported name parameters) = functionLine isExported name parameters := by
  have hlast : functionLine isExported name parameters = (exportWord isExported ++ ['f']) ++
      'n' :: ' ' :: (name.text ++ '(' :: (parameters.text ++ [')', ' '])) ++ ['{'] := by
    simp [functionLine]
  rw [hlast]
  apply trim_concat
  all_goals cases isExported <;> simp [exportWord, isBlank]

theorem trim_fieldLine (field : Name × Name) : trim (fieldLine field) = fieldLine field := by
  obtain ⟨name, type⟩ := field
  exact trim_append_append (trim_name name) (trim_name type) (name_ne_nil name) (name_ne_nil type)
    [':', ' ']

/-! ### Heads -/

/-- The type of a variable is read up to the mark that follows it. -/
theorem writtenType_typePart (type : Option TypeText) (b rest : List Char) (mark : Char)
    (hb : allBlank b = true) (hmark : isTypeChar mark = false) :
    ∃ r, writtenType (typePart type ++ (b ++ mark :: rest)) = (type.map (·.text), r) ∧
      trimLeft r = mark :: rest := by
  have hrest : ∀ c ∈ (mark :: rest).head?, isTypeChar c = false := by simpa using hmark
  refine ⟨mark :: rest, ?_, trimLeft_of_mark hrest⟩
  cases type with
  | none =>
    rw [typePart, List.nil_append, writtenType_blanks_append hb, writtenType_of_mark hrest]
    rfl
  | some type =>
    have hread := writtenType_colon [' '] type.text b (mark :: rest) rfl hb
      type.isTypeChar_of_mem hrest
    rw [type.trimmed] at hread
    simpa [typePart] using hread

theorem variableHead?_variableLine (isForeign : Bool) (name : Name) (type : Option TypeText)
    (value : Option ValueText) :
    variableHead? (variableLine isForeign name type value) =
      some ⟨isForeign, String.ofList name.text, (type.map (·.text)).map String.ofList,
        (value.map (·.text)).map String.ofList⟩ := by
  -- Whatever is printed behind the name, it is not read as a part of it.
  have hends : ∀ mark rest, isNameChar mark = false →
      EndsName (typePart type ++ mark :: rest) := by
    intro mark rest hmark c hc
    cases type <;> simp [typePart] at hc <;> subst hc
    · exact hmark
    · decide
  cases value with
  | none =>
    obtain ⟨r, htype, hr⟩ := writtenType_typePart type [] [] ';' rfl rfl
    exact variableHead?_of_mark isForeign (List.cons_ne_nil ' ' []) rfl name.isName
      (hends ';' [] rfl) htype true hr (.inl rfl)
  | some value =>
    obtain ⟨r, htype, hr⟩ :=
      writtenType_typePart type [' '] (' ' :: (value.text ++ [';'])) '=' rfl rfl
    have hvalue : value? (' ' :: (value.text ++ [';'])) = some value.text := by
      simpa using value?_semicolon [' '] value.text [] rfl rfl value.ne_nil value.trimmed
        value.oneLine
    exact variableHead?_of_value isForeign (List.cons_ne_nil ' ' []) rfl name.isName
      (hends ' ' _ rfl) htype hr hvalue

theorem headOf_variableLine (isForeign : Bool) (name : Name) (type : Option TypeText)
    (value : Option ValueText) :
    headOf (variableLine isForeign name type value) =
      some (.variable ⟨isForeign, String.ofList name.text, (type.map (·.text)).map String.ofList,
        (value.map (·.text)).map String.ofList⟩) := by
  -- The readers that are tried before the one for variables fail on the first character.
  have hfunction : functionHead? (variableLine isForeign name type value) = none := by
    cases isForeign <;> rfl
  have hstruct : structHead? (variableLine isForeign name type value) = none := by
    cases isForeign <;> rfl
  have henum : enumHead? (variableLine isForeign name type value) = none := by
    cases isForeign <;> rfl
  rw [headOf, trim_variableLine, classify, hfunction, hstruct, henum, variableHead?_variableLine]
  rfl

theorem headOf_structLine (name : Name) :
    headOf (bracedLine structWord name) = some (.struct (String.ofList name.text)) := by
  have hstruct : structHead? (bracedLine structWord name) = some (String.ofList name.text) :=
    braced?_written structWord name.isName []
  have hfunction : functionHead? (bracedLine structWord name) = none := rfl
  rw [headOf, trim_structLine, classify, hfunction, hstruct]
  rfl

theorem headOf_enumLine (name : Name) :
    headOf (bracedLine enumWord name) = some (.enum (String.ofList name.text)) := by
  have henum : enumHead? (bracedLine enumWord name) = some (String.ofList name.text) :=
    braced?_written enumWord name.isName []
  have hfunction : functionHead? (bracedLine enumWord name) = none := rfl
  have hstruct : structHead? (bracedLine enumWord name) = none := rfl
  rw [headOf, trim_enumLine, classify, hfunction, hstruct, henum]
  rfl

theorem headOf_functionLine (isExported : Bool) (name : Name) (parameters : ParameterText) :
    headOf (functionLine isExported name parameters) = some (.function
      ⟨String.ofList name.text, String.ofList (trim parameters.text), isExported⟩) := by
  have hfunction := functionHead?_written isExported name.isName parameters.unclosed [' ', '{']
  rw [headOf, trim_functionLine, classify, functionLine, hfunction]
  rfl

/-! ### Braces -/

theorem name_not_mem_braces (name : Name) : '{' ∉ name.text ∧ '}' ∉ name.text :=
  ⟨not_mem_of_isName name.isName rfl, not_mem_of_isName name.isName rfl⟩

/-- The first line of a struct or an enum opens one brace. -/
theorem bracedLine_braces (keyword : List Char) (hopen : '{' ∉ keyword) (hclose : '}' ∉ keyword)
    (name : Name) :
    '}' ∉ bracedLine keyword name ∧ Block.turns (bracedLine keyword name) = 1 := by
  obtain ⟨hn, hn'⟩ := name_not_mem_braces name
  refine ⟨by simp [bracedLine, hclose, hn'], ?_⟩
  rw [bracedLine, Block.turns_append, Block.turns_cons, Block.turns_append,
    Block.turns_eq_zero hopen hclose, Block.turns_eq_zero hn hn']
  rfl

theorem functionLine_braces (isExported : Bool) (name : Name) (parameters : ParameterText) :
    '}' ∉ functionLine isExported name parameters ∧
      Block.turns (functionLine isExported name parameters) = 1 := by
  obtain ⟨hn, hn'⟩ := name_not_mem_braces name
  obtain ⟨hp, hp'⟩ := parameters.unbraced
  have hword : Block.turns (exportWord isExported) = 0 ∧ '}' ∉ exportWord isExported := by
    cases isExported <;> exact ⟨rfl, by simp [exportWord]⟩
  refine ⟨by simp [functionLine, hword.2, hn', hp'], ?_⟩
  simp only [functionLine, Block.turns_append, Block.turns_cons, Block.turns_nil,
    Block.turns_eq_zero hn hn', Block.turns_eq_zero hp hp', hword.1]
  rfl

theorem fieldLines_balanced (fields : List (Name × Name)) :
    Block.Balanced (fields.map fieldLine) := by
  apply Block.balanced_of_not_mem
  intro line hline
  obtain ⟨⟨name, type⟩, -, rfl⟩ := List.mem_map.mp hline
  obtain ⟨hn, hn'⟩ := name_not_mem_braces name
  obtain ⟨ht, ht'⟩ := name_not_mem_braces type
  exact ⟨by simp [fieldLine, hn, ht], by simp [fieldLine, hn', ht']⟩

theorem variantLines_balanced (variants : List CapitalName) :
    Block.Balanced (variants.map (·.text)) := by
  apply Block.balanced_of_not_mem
  intro line hline
  obtain ⟨variant, -, rfl⟩ := List.mem_map.mp hline
  exact name_not_mem_braces variant.toName

/-! ### Items -/

theorem lineEnd_of_trim {line : Line} (h : trim line = line) (i : Nat) :
    lineEnd i line = ⟨i, line.length⟩ := by
  rw [lineEnd, trimRight_eq_self_of_trim h]

theorem selectionOf_of_trim {line : Line} (h : trim line = line) (i : Nat) :
    selectionOf i line = wholeLine i line := by
  rw [selectionOf, lineEnd_of_trim h, indentation, trimLeft_eq_self_of_trim h, Nat.sub_self,
    wholeLine]
  rfl

theorem lineItem_of_trim {line : Line} (h : trim line = line) (i : Nat) (kind : ItemKind)
    (name : Name) (detail : String) :
    lineItem i line kind (String.ofList name.text) detail = wholeItem i line kind name detail := by
  rw [lineItem, wholeItem, selectionOf_of_trim h, lineEnd_of_trim h, wholeLine]

theorem fieldItem?_fieldLine (field : Name × Name) (k : Nat) :
    fieldItem? (fieldLine field) k = some (wholeItem k (fieldLine field) .field field.1
      ("Field (" ++ String.ofList field.2.text ++ ")")) := by
  rw [fieldItem?, trim_fieldLine, fieldLine, field?_written field.1.isName field.2.isName,
    Option.map_some, ← fieldLine, lineItem_of_trim (trim_fieldLine field)]

theorem variantItem?_variant (variant : CapitalName) (k : Nat) :
    variantItem? variant.text k =
      some (wholeItem k variant.text .enumVariant variant.toName "Enum variant") := by
  obtain ⟨c, rest, htext, hupper⟩ := variant.isUpper
  have hread : variant? variant.text = some (String.ofList variant.text) := by
    rw [htext]
    refine variant?_written hupper fun d hd => isNameChar_of_mem variant.isName ?_
    rw [htext]
    exact List.mem_cons_of_mem c hd
  rw [variantItem?, trim_name, hread, Option.map_some, lineItem_of_trim (trim_name variant.toName)]

theorem localItem?_eq_typedVariable? : localItem? = typedVariable? := by
  funext line k
  cases h : variableHead? (trim line) with
  | none => simp [localItem?, typedVariable?, h]
  | some head =>
    obtain ⟨isForeign, name, type, value⟩ := head
    cases type with
    | none => simp [localItem?, typedVariable?, h]
    | some type =>
      have hle := (isSuffix_trimLeft line).length_le
      simp only [localItem?, typedVariable?, h, lineItem, selectionOf, lineEnd, indentation,
        Int.ofNat_sub hle]
      rfl

/-! ### Line feeds -/

theorem name_oneLine (name : Name) : '\n' ∉ name.text := not_mem_of_isName name.isName rfl

theorem variableLine_oneLine (isForeign : Bool) (name : Name) (type : Option TypeText)
    (value : Option ValueText) : '\n' ∉ variableLine isForeign name type value := by
  have hword : '\n' ∉ variableWord isForeign := by cases isForeign <;> simp [variableWord]
  have htype : '\n' ∉ typePart type := by
    cases type with
    | none => exact List.not_mem_nil
    | some type => simp [typePart, type.oneLine]
  have hvalue : '\n' ∉ valuePart value := by
    cases value with
    | none => exact List.not_mem_nil
    | some value => simp [valuePart, value.oneLine]
  simp [variableLine, hword, name_oneLine, htype, hvalue]

theorem functionLine_oneLine (isExported : Bool) (name : Name) (parameters : ParameterText) :
    '\n' ∉ functionLine isExported name parameters := by
  have hword : '\n' ∉ exportWord isExported := by cases isExported <;> simp [exportWord]
  simp [functionLine, hword, name_oneLine, parameters.oneLine]

theorem blockLines_oneLine {head : Line} {body : List Line} (hhead : '\n' ∉ head)
    (hbody : ∀ line ∈ body, '\n' ∉ line) : ∀ line ∈ blockLines head body, '\n' ∉ line := by
  intro line hline
  simp only [blockLines, List.mem_cons, List.mem_append, List.not_mem_nil, or_false] at hline
  obtain rfl | hline | rfl := hline
  · exact hhead
  · exact hbody line hline
  · simp

/-- No entry is printed with a line feed inside a line. -/
theorem Entry.oneLine (e : Entry) : ∀ line ∈ e.lines, '\n' ∉ line := by
  cases e with
  | «variable» isForeign name type value =>
    intro line hline
    rw [List.mem_singleton.mp hline]
    exact variableLine_oneLine isForeign name type value
  | struct name fields =>
    refine blockLines_oneLine (by simp [bracedLine, structWord, name_oneLine]) ?_
    intro line hline
    obtain ⟨field, -, rfl⟩ := List.mem_map.mp hline
    simp [fieldLine, name_oneLine]
  | enum name variants =>
    refine blockLines_oneLine (by simp [bracedLine, enumWord, name_oneLine]) ?_
    intro line hline
    obtain ⟨variant, -, rfl⟩ := List.mem_map.mp hline
    exact name_oneLine variant.toName
  | function isExported name parameters body =>
    exact blockLines_oneLine (functionLine_oneLine isExported name parameters) body.oneLine
  | filler plain =>
    intro line hline
    rw [List.mem_singleton.mp hline]
    exact plain.oneLine

end VeLens.Outline
