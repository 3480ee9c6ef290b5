import VeLens.Proofs.Scope.Enclosing
import VeLens.Proofs.Scope.Slots

/-!
# Parameters of a function

The text between the parentheses of a function is read by two readers. The signature takes the name
at the beginning of each piece between commas, the visible names take a name, a colon and a type.
Parameters that are written with their types are read back by both of them.

## Main definitions

* `Parameter`, `parameterList`: parameters with their types, and how they are written.
* `headLine`: the line that declares a function with such parameters.

## Main results

* `forall₂_pieces`: the pieces between the commas are the parameters.
* `resolve_singleton`: on the only line of a buffer the parameters are all that is visible.
* `parameters_headLine`: what the readers find on such a line.
-/

namespace VeLens.Scope

open Declaration Outline Text

/-! ### Written parameters -/

/-- A parameter with its type. The type may hold colons and opening parentheses, but nothing that
ends the parameter or all of them. -/
structure Parameter where
  name : Name
  type : ValueText
  unseparated : ',' ∉ type.text
  unclosed : ')' ∉ type.text

namespace Parameter

/-- `name: type` -/
def text (p : Parameter) : List Char := p.name.text ++ ([':', ' '] ++ p.type.text)

def binding (p : Parameter) : Binding :=
  ⟨String.ofList p.name.text, String.ofList p.type.text, .parameter, none⟩

end Parameter

def parameterList (ps : List Parameter) : List Char := joined [',', ' '] (ps.map Parameter.text)

/-- `fn name(parameters)` and whatever follows, after `export` if the function is exported. -/
def headLine (isExported : Bool) (name : Name) (ps : List Parameter) (tail : List Char) : Line :=
  exportWord isExported ++
    ('f' :: 'n' :: ' ' :: (name.text ++ '(' :: (parameterList ps ++ ')' :: tail)))

namespace Parameter

variable (p : Parameter)

theorem text_ne_nil : p.text ≠ [] :=
  List.append_ne_nil_of_left_ne_nil (name_ne_nil p.name) _

theorem trim_text : trim p.text = p.text :=
  trim_append_append (trim_name p.name) p.type.trimmed (name_ne_nil p.name) p.type.ne_nil [':', ' ']

theorem not_mem_text {c : Char} (hname : isNameChar c = false) (hmark : c ∉ [':', ' '])
    (htype : c ∉ p.type.text) : c ∉ p.text := by
  rw [text, List.mem_append, List.mem_append, not_or, not_or]
  exact ⟨not_mem_of_isName p.name.isName hname, hmark, htype⟩

end Parameter

/-! ### The list of parameters -/

theorem parameterList_cons_cons (p q : Parameter) (ps : List Parameter) :
    parameterList (p :: q :: ps) = p.text ++ ([',', ' '] ++ parameterList (q :: ps)) := by
  rw [parameterList, List.map_cons, joined_cons (by simp), ← parameterList, List.append_assoc]

theorem parameterList_ne_nil (p : Parameter) (ps : List Parameter) :
    parameterList (p :: ps) ≠ [] := by
  cases ps with
  | nil => exact p.text_ne_nil
  | cons q ps =>
    rw [parameterList_cons_cons]
    exact List.append_ne_nil_of_left_ne_nil p.text_ne_nil _

theorem trim_parameterList (ps : List Parameter) :
    trim (parameterList ps) = parameterList ps := by
  induction ps with
  | nil => rfl
  | cons p ps ih =>
    cases ps with
    | nil => exact p.trim_text
    | cons q ps =>
      rw [parameterList_cons_cons]
      exact trim_append_append p.trim_text ih p.text_ne_nil (parameterList_ne_nil q ps) [',', ' ']

theorem not_mem_parameterList {c : Char} {ps : List Parameter} (hname : isNameChar c = false)
    (hmark : c ∉ [',', ' ', ':']) (htype : ∀ p ∈ ps, c ∉ p.type.text) :
    c ∉ parameterList ps := by
  simp only [List.mem_cons, List.not_mem_nil, or_false, not_or] at hmark
  apply not_mem_joined
  · simp [hmark]
  · intro text htext
    obtain ⟨p, hp, rfl⟩ := List.mem_map.mp htext
    exact p.not_mem_text hname (by simp [hmark]) (htype p hp)

/-- The piece between commas is the written parameter, up to blanks around it. -/
def IsPieceOf (piece : List Char) (p : Parameter) : Prop := trim piece = p.text

/-- The pieces between the commas are the parameters. -/
theorem forall₂_pieces (p : Parameter) (ps : List Parameter) :
    List.Forall₂ IsPieceOf (pieces ',' (parameterList (p :: ps))) (p :: ps) := by
  have hcomma (q : Parameter) : ',' ∉ q.text :=
    q.not_mem_text (by decide) (by decide) q.unseparated
  have hpieces : pieces ',' (parameterList (p :: ps)) =
      p.text :: ps.map fun q => [' '] ++ q.text := by
    have hsep := joined_append_sep [','] [' '] p.text (ps.map Parameter.text)
    rw [parameterList, List.map_cons, ← List.singleton_append, hsep, List.map_map, pieces_joined]
    · rfl
    · exact List.cons_ne_nil _ _
    · intro piece hpiece
      rcases List.mem_cons.mp hpiece with rfl | hpiece
      · exact hcomma p
      · obtain ⟨q, -, rfl⟩ := List.mem_map.mp hpiece
        simpa using hcomma q
  rw [hpieces]
  refine .cons p.trim_text ?_
  rw [List.forall₂_map_left_iff, List.forall₂_same]
  intro q _
  have hblank : trim ([' '] ++ q.text ++ []) = trim q.text := trim_append_blanks rfl rfl
  rw [List.append_nil] at hblank
  rw [IsPieceOf, hblank, q.trim_text]

/-! ### The readers -/

theorem IsPieceOf.declares {piece : List Char} {p : Parameter} (h : IsPieceOf piece p) :
    Declares piece p.binding := by
  obtain ⟨front, back, hfront, hback, hpiece⟩ := exists_eq_append_trim_append piece
  refine ⟨p.name, p.type, ⟨front, hfront⟩, ⟨[], rfl⟩, ⟨[' '], rfl⟩, ⟨back, hback⟩, ?_, rfl⟩
  rw [hpiece, h]
  rfl

/-- A parameter with a name is not named for its place, wherever the counting begins. -/
theorem map_parameterName {parts : List (List Char)} {ps : List Parameter}
    (h : List.Forall₂ IsPieceOf parts ps) (first : Nat) :
    ((parts.zipIdx first).map fun (piece, place) => Signature.parameterName piece place) =
      ps.map fun p => String.ofList p.name.text := by
  induction h generalizing first with
  | nil => rfl
  | cons hpiece _ ih =>
    have hread := parameterBinding?_of_declares hpiece.declares
    rw [List.zipIdx_cons, List.map_cons, List.map_cons, ih]
    dsimp only
    rw [parameterName_of_parameterBinding? hread]
    rfl

theorem filterMap_parameterBinding? {parts : List (List Char)} {ps : List Parameter}
    (h : List.Forall₂ IsPieceOf parts ps) :
    parts.filterMap parameterBinding? = ps.map Parameter.binding := by
  induction h with
  | nil => rfl
  | cons hpiece _ ih =>
    rw [List.filterMap_cons_some (parameterBinding?_of_declares hpiece.declares), ih, List.map_cons]

/-- The signature finds the names of written parameters. -/
theorem namesOf_parameterList (ps : List Parameter) :
    Signature.namesOf (parameterList ps) = ps.map fun p => String.ofList p.name.text := by
  cases ps with
  | nil => rfl
  | cons p ps =>
    have hblank : allBlank (parameterList (p :: ps)) = false :=
      allBlank_eq_false_of_trim (trim_parameterList _) (parameterList_ne_nil p ps)
    rw [Signature.namesOf, hblank, if_neg Bool.false_ne_true,
      map_parameterName (forall₂_pieces p ps)]

theorem parameters_parameterList (name : String) (isExported : Bool) (ps : List Parameter) :
    parameters ⟨name, String.ofList (parameterList ps), isExported⟩ = ps.map Parameter.binding := by
  rw [parameters, String.toList_ofList]
  cases ps with
  | nil => rfl
  | cons p ps => exact filterMap_parameterBinding? (forall₂_pieces p ps)

/-- On the only line of a buffer, if it declares a function, its parameters are all that is visible.
-/
theorem resolve_singleton {line : Line} {head : Function}
    (h : functionHead? (trim line) = some head) (cursor : Position) :
    resolve [line] cursor = parameters head := by
  have hclamp : clampLine [line] cursor.line = 0 := Nat.min_zero _
  have henclosing : enclosing? [line] 0 = some (0, head) := by
    rw [enclosing?_zero, functionOn?, List.getElem?_cons_zero, Option.bind_some, h]
    rfl
  have hglobals : globals [line] = [] := by
    have hhead : headOf line = some (.function head) := classify_eq_some_iff.mpr h
    rw [globals, hhead]
    simp [globals]
  rw [resolve, hclamp, functionBindings, henclosing, hglobals]
  simp [locals]

theorem functionHead?_headLine (isExported : Bool) (name : Name) (ps : List Parameter)
    (tail : List Char) : functionHead? (headLine isExported name ps tail) =
      some ⟨String.ofList name.text, String.ofList (parameterList ps), isExported⟩ := by
  have hclosed : ')' ∉ parameterList ps :=
    not_mem_parameterList (by decide) (by decide) fun p _ => p.unclosed
  rw [headLine, functionHead?_written isExported name.isName hclosed, trim_parameterList]

/-- Only what follows the parentheses can lose blanks. -/
theorem trim_headLine (isExported : Bool) (name : Name) (ps : List Parameter) (tail : List Char) :
    trim (headLine isExported name ps tail) = headLine isExported name ps (trimRight tail) := by
  have hleft : trimLeft (headLine isExported name ps tail) = headLine isExported name ps tail := by
    apply trimLeft_eq_self
    cases isExported <;> simp [headLine, exportWord, isBlank]
  have hsplit (s : List Char) : headLine isExported name ps s = (exportWord isExported ++
      ('f' :: 'n' :: ' ' :: (name.text ++ '(' :: parameterList ps))) ++ ')' :: s := by
    simp [headLine]
  rw [trim, hleft, hsplit, trimRight_append_cons (by decide), ← hsplit]

theorem headLine_oneLine (isExported : Bool) (name : Name) (ps : List Parameter)
    {tail : List Char} (htail : '\n' ∉ tail) : '\n' ∉ headLine isExported name ps tail := by
  have hname : '\n' ∉ name.text := not_mem_of_isName name.isName (by decide)
  have hlist : '\n' ∉ parameterList ps :=
    not_mem_parameterList (by decide) (by decide) fun p _ => p.type.oneLine
  have hword : '\n' ∉ exportWord isExported := by cases isExported <;> decide
  simp [headLine, hname, hlist, hword, htail]

/-- **Written parameters are read back.** On the line of a function, whatever follows the
parentheses, the head holds the parameters as they are written, the signature names them, and they
are visible on that line with their types, in the same order. -/
theorem parameters_headLine (isExported : Bool) (name : Name) (ps : List Parameter)
    (tail : List Char) (htail : '\n' ∉ tail) :
    let line := headLine isExported name ps tail
    functionHead? line =
        some ⟨String.ofList name.text, String.ofList (parameterList ps), isExported⟩ ∧
      Signature.namesOf (parameterList ps) = ps.map (fun p => String.ofList p.name.text) ∧
      ∀ cursor, resolve (Buffer.lines line) cursor = ps.map Parameter.binding := by
  intro line
  refine ⟨functionHead?_headLine isExported name ps tail, namesOf_parameterList ps, ?_⟩
  intro cursor
  have hread : functionHead? (trim (Buffer.dropReturn line)) =
      some ⟨String.ofList name.text, String.ofList (parameterList ps), isExported⟩ := by
    rw [Buffer.trim_dropReturn, trim_headLine, functionHead?_headLine]
  rw [Buffer.lines_of_not_mem (headLine_oneLine isExported name ps htail),
    resolve_singleton hread, parameters_parameterList]

/-- Types with a colon and an opening parenthesis, and a carriage return behind the line. -/
theorem parameters_headLine_marks :
    let line := "export fn f(a: x:[u8, b: fn (\" t) -> T \x7b\r".toList
    functionHead? line = some ⟨"f", "a: x:[u8, b: fn (\" t", true⟩ ∧
      Signature.namesOf "a: x:[u8, b: fn (\" t".toList = ["a", "b"] ∧
      ∀ cursor, resolve (Buffer.lines line) cursor =
        [⟨"a", "x:[u8", .parameter, none⟩, ⟨"b", "fn (\" t", .parameter, none⟩] :=
  parameters_headLine true ⟨['f'], by decide⟩
    [⟨⟨['a'], by decide⟩, ⟨"x:[u8".toList, by decide, by decide +kernel, by decide⟩,
        by decide, by decide⟩,
      ⟨⟨['b'], by decide⟩, ⟨"fn (\" t".toList, by decide, by decide +kernel, by decide⟩,
        by decide, by decide⟩]
    " -> T \x7b\r".toList (by decide)

end VeLens.Scope
