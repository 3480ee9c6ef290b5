import Mathlib.Data.List.Forall2
import VeLens.Proofs.Declaration.Variables
import VeLens.Proofs.Scope.Tiers
import VeLens.Signature

/-!
# Slots between commas

The text between the parentheses of a function is cut at its commas, and each slot is read twice.
The visible names take it if it is a name, a colon and a type. The signature takes whatever name it
begins with, and names the others for their place. A slot that both of them take has the same name
for both, however the rest of the text looks.

## Main definitions

* `Declares`: a slot that holds a parameter with its type.

## Main results

* `parameterBinding?_eq_some_iff`: exactly such slots make a name visible.
* `isName_parameterName`: the signature gives every slot a name.
* `sublistForall₂_zip_names`: the visible parameters, slot by slot.
* `parameters_sublist_namesOf`: the visible parameters are among those of the signature.
-/

namespace VeLens.Scope

open Declaration Outline Text

/-- The slot holds a parameter with its type: a name, a colon and a type on one line, with blanks
between them and around them as one likes. -/
def Declares (slot : List Char) (b : Binding) : Prop :=
  ∃ (name : Name) (type : ValueText) (front afterName beforeType back : Blanks),
    slot = front.1 ++ (name.text ++ (afterName.1 ++ ':' :: (beforeType.1 ++ type.text))) ++ back.1 ∧
      b = ⟨String.ofList name.text, String.ofList type.text, .parameter, none⟩

/-! ### The visible name of a slot -/

theorem declares_of_parameterBinding? {slot : List Char} {b : Binding}
    (h : parameterBinding? slot = some b) : Declares slot b := by
  obtain ⟨name, s, rest, hname, hrest, hne, hline, rfl⟩ := parameterBinding?_parts h
  obtain ⟨htrim, hisName, -⟩ := name?_eq_some_iff.mp hname
  obtain ⟨front, back, hfront, hback, hslot⟩ := exists_eq_append_trim_append slot
  obtain ⟨afterName, hafter, hs⟩ := exists_eq_append_trimLeft s
  obtain ⟨before, behind, hbefore, hbehind, htype⟩ := exists_eq_append_trim_append rest
  -- Blanks behind the type are part of the blanks at the end of the slot.
  have hend : allBlank (behind ++ back) = true := by
    rw [allBlank, List.all_append, ← allBlank, ← allBlank, hbehind, hback]
    rfl
  refine ⟨⟨name, hisName⟩, ⟨trim rest, hne, trim_trim rest, hline⟩, ⟨front, hfront⟩,
    ⟨afterName, hafter⟩, ⟨before, hbefore⟩, ⟨behind ++ back, hend⟩, ?_, rfl⟩
  calc slot = front ++ (name ++ (afterName ++ ':' :: rest)) ++ back := by
        rw [← hrest, ← hs, ← htrim, ← hslot]
    _ = front ++ (name ++ (afterName ++ ':' :: (before ++ trim rest ++ behind))) ++ back := by
        rw [← htype]
    _ = _ := by simp

theorem parameterBinding?_of_declares {slot : List Char} {b : Binding} (h : Declares slot b) :
    parameterBinding? slot = some b := by
  obtain ⟨name, type, front, afterName, before, back, rfl, rfl⟩ := h
  have htrim := trim_append_append (trim_name name) type.trimmed (name_ne_nil name) type.ne_nil
    (afterName.1 ++ ':' :: before.1)
  rw [List.append_assoc, List.cons_append] at htrim
  have hname := name?_append name.isName (endsName_blanks_append afterName.2
    (show EndsName (':' :: (before.1 ++ type.text)) by simp [EndsName, isNameChar]))
  have hcolon : trimLeft (afterName.1 ++ ':' :: (before.1 ++ type.text)) =
      ':' :: (before.1 ++ type.text) := by
    rw [trimLeft_append_of_allBlank afterName.2, trimLeft_cons_of_not_blank (by decide)]
  have htype : trim (before.1 ++ type.text) = type.text := by
    rw [trim, trimLeft_append_of_allBlank before.2, ← trim, type.trimmed]
  rw [parameterBinding?, trim_append_blanks front.2 back.2, htrim, hname]
  simp [hcolon, htype, type.ne_nil, type.oneLine]

theorem parameterBinding?_eq_some_iff {slot : List Char} {b : Binding} :
    parameterBinding? slot = some b ↔ Declares slot b :=
  ⟨declares_of_parameterBinding?, parameterBinding?_of_declares⟩

/-! ### The name that the signature gives -/

/-- On a slot with a type both readers find the same name, wherever the slot stands. -/
theorem parameterName_of_parameterBinding? {slot : List Char} {b : Binding}
    (h : parameterBinding? slot = some b) (place : Nat) :
    Signature.parameterName slot place = b.name := by
  obtain ⟨name, s, rest, hname, -, -, -, rfl⟩ := parameterBinding?_parts h
  rw [Signature.parameterName, hname]

theorem isNameChar_of_isDigit {c : Char} (h : c.isDigit = true) : isNameChar c = true := by
  rw [isNameChar, Char.isAlphanum, h, Bool.or_true, Bool.true_or]

/-- Every slot has a name, be it a name for its place. -/
theorem isName_parameterName (slot : List Char) (place : Nat) :
    isName (Signature.parameterName slot place).toList = true := by
  rw [Signature.parameterName]
  split
  · next name rest hname =>
    rw [String.toList_ofList]
    exact (name?_eq_some_iff.mp hname).2.1
  · have hdigits : (toString place).toList = Nat.toDigits 10 place := by
      rw [Nat.toString_eq_repr, Nat.repr_eq_ofList_toDigits, String.toList_ofList]
    have htext : ("param" ++ toString place).toList =
        'p' :: (['a', 'r', 'a', 'm'] ++ Nat.toDigits 10 place) := by
      rw [String.toList_append, hdigits]
      rfl
    have hparam : ['a', 'r', 'a', 'm'].all isNameChar = true := by decide
    rw [htext, isName_cons]
    refine ⟨by decide, fun c hc => ?_⟩
    rcases List.mem_append.mp hc with hc | hc
    · exact List.all_eq_true.mp hparam c hc
    · exact isNameChar_of_isDigit (Nat.isDigit_of_mem_toDigits (by decide) (by decide) hc)

/-! ### Slot by slot -/

theorem sublistForall₂_zip_names (slots : List (List Char)) (first : Nat) :
    List.SublistForall₂ (fun b (p : List Char × String) => Declares p.1 b ∧ b.name = p.2)
      (slots.filterMap parameterBinding?)
      (slots.zip ((slots.zipIdx first).map fun (slot, place) =>
        Signature.parameterName slot place)) := by
  induction slots generalizing first with
  | nil => exact .nil
  | cons slot slots ih =>
    rw [List.zipIdx_cons, List.map_cons, List.zip_cons_cons]
    cases h : parameterBinding? slot with
    | none =>
      rw [List.filterMap_cons_none h]
      exact .cons_right (ih (first + 1))
    | some b =>
      rw [List.filterMap_cons_some h]
      have hname := parameterName_of_parameterBinding? h first
      exact .cons ⟨declares_of_parameterBinding? h, hname.symm⟩ (ih (first + 1))

theorem mem_parameters_iff {head : Function} {b : Binding} :
    b ∈ parameters head ↔ ∃ slot ∈ pieces ',' head.parameters.toList, Declares slot b := by
  simp only [parameters, List.mem_filterMap, parameterBinding?_eq_some_iff]

/-- A slot that declares a parameter is not blank. -/
theorem Declares.not_allBlank {slot : List Char} {b : Binding} (h : Declares slot b) :
    ∃ c ∈ slot, isBlank c = false := by
  obtain ⟨name, type, front, afterName, before, back, rfl, -⟩ := h
  exact ⟨':', by simp, by decide⟩

/-- Where the signature has no names, nothing is visible. -/
theorem parameters_of_allBlank {head : Function} (h : allBlank head.parameters.toList = true) :
    parameters head = [] := by
  rw [List.eq_nil_iff_forall_not_mem]
  intro b hb
  obtain ⟨slot, hslot, hdeclares⟩ := mem_parameters_iff.mp hb
  obtain ⟨c, hc, hblank⟩ := hdeclares.not_allBlank
  have hmem : c ∈ head.parameters.toList := by
    rw [← joined_pieces ',' head.parameters.toList]
    exact mem_joined hslot hc
  rw [allBlank_iff.mp h c hmem] at hblank
  exact Bool.noConfusion hblank

theorem length_namesOf (text : List Char) :
    (Signature.namesOf text).length = if allBlank text then 0 else text.count ',' + 1 := by
  rw [Signature.namesOf]
  split
  · rfl
  · rw [List.length_map, List.length_zipIdx, length_pieces]

theorem isName_of_mem_namesOf {text : List Char} {name : String}
    (h : name ∈ Signature.namesOf text) : isName name.toList = true := by
  rw [Signature.namesOf] at h
  split at h
  · exact absurd h List.not_mem_nil
  · obtain ⟨⟨slot, place⟩, -, rfl⟩ := List.mem_map.mp h
    exact isName_parameterName slot place

/-- **Visible parameters and the signature do not disagree.** Whatever stands between the
parentheses of a function, each visible parameter is read from a slot between commas, in the order
of the slots, and has the name that the signature gives to that slot. The visible parameters are
those of the slots with a type. The signature has one name for every slot, and none if the text is
blank. -/
theorem parameters_sublist_namesOf (head : Function) :
    let text := head.parameters.toList
    let slots := pieces ',' text
    let names := Signature.namesOf text
    ((parameters head).map (·.name)).Sublist names ∧
      List.SublistForall₂ (fun b (p : List Char × String) => Declares p.1 b ∧ b.name = p.2)
        (parameters head) (slots.zip names) ∧
      (∀ b, b ∈ parameters head ↔ ∃ slot ∈ slots, Declares slot b) ∧
      names.length = (if allBlank text then 0 else text.count ',' + 1) ∧
      ∀ name ∈ names, isName name.toList = true := by
  intro text slots names
  have hslots : List.SublistForall₂
      (fun b (p : List Char × String) => Declares p.1 b ∧ b.name = p.2)
      (parameters head) (slots.zip names) := by
    cases hblank : allBlank text with
    | true =>
      rw [parameters_of_allBlank hblank]
      exact .nil
    | false =>
      simp only [names, Signature.namesOf, hblank]
      exact sublistForall₂_zip_names slots 1
  refine ⟨?_, hslots, fun b => mem_parameters_iff, length_namesOf text,
    fun name => isName_of_mem_namesOf⟩
  -- Of the pairs of a slot and its name only the names are kept.
  obtain ⟨taken, htaken, hsub⟩ := List.sublistForall₂_iff.mp hslots
  have hnames : (parameters head).map (·.name) = taken.map Prod.snd := by
    rw [← List.forall₂_eq_eq_eq, List.forall₂_map_left_iff, List.forall₂_map_right_iff]
    exact htaken.imp fun _ _ h => h.2
  have hlength : names.length ≤ slots.length := by
    rw [length_namesOf, length_pieces]
    split <;> omega
  rw [hnames, ← List.map_snd_zip hlength]
  exact hsub.map Prod.snd

-- A slot without a type is not visible, and a slot without a name is named for its place.
example : (parameters ⟨"f", "a: T, , b, 1: U", false⟩).map (·.name) = ["a"] ∧
    Signature.namesOf "a: T, , b, 1: U".toList = ["a", "param2", "b", "param4"] := by
  decide +kernel

end VeLens.Scope
