import VeLens.Proofs.Scope.Slots

/-!
# Templates of calls

The template of a call has a stop for each parameter, where the editor comes to rest and the name of
the parameter stands until it is replaced. Reading a template finds these stops and no others, in
the order of the parameters, and what stands before the parenthesis is the name of the function. So
two functions with the same template have the same name and the same parameters.

## Main definitions

* `Stop`, `stopAt?`, `stops`: the stops of a template, wherever they begin.
* `Signature.Named`: a signature in which all names are names.

## Main results

* `stops_snippet`: the stops of a template.
* `snippet_unambiguous`: a template tells the name and the parameters.
-/

namespace VeLens.Signature

open Declaration Text

/-- A place in a template where the editor comes to rest: its number, and the text that stands there
until it is replaced. -/
structure Stop where
  number : Nat
  shown : Option (List Char)
deriving DecidableEq

/-- The number that a text begins with. -/
def leadingNumber? (s : List Char) : Option Nat :=
  if s.takeWhile Char.isDigit = [] then none
  else some (Nat.ofDigitChars 10 (s.takeWhile Char.isDigit) 0)

/-- The stop that a text begins with: a dollar sign and a number, or between braces behind the
dollar sign a number, a colon and a text. -/
def stopAt? : List Char → Option Stop
  | '$' :: '{' :: s => do
    let number ← leadingNumber? s
    let s ← after? [':'] (s.dropWhile Char.isDigit)
    let _ ← after? ['}'] (s.dropWhile (· != '}'))
    return ⟨number, some (s.takeWhile (· != '}'))⟩
  | '$' :: s => do return ⟨← leadingNumber? s, none⟩
  | _ => none

/-- The stops of a template, at all places where one begins. -/
def stops : List Char → List Stop
  | [] => []
  | c :: s => (stopAt? (c :: s)).toList ++ stops s

/-! ### Reading stops -/

theorem leadingNumber?_append (n : Nat) {rest : List Char}
    (hrest : ∀ c ∈ rest.head?, c.isDigit = false) :
    leadingNumber? (Nat.toDigits 10 n ++ rest) = some n := by
  have hdigits : ∀ c ∈ Nat.toDigits 10 n, c.isDigit = true := fun c hc =>
    Nat.isDigit_of_mem_toDigits (by decide) (by decide) hc
  rw [leadingNumber?, takeWhile_append_of_stop hdigits hrest, if_neg Nat.toDigits_ne_nil,
    Nat.ofDigitChars_ten_toDigits]

theorem stopAt?_of_ne {c : Char} (hc : c ≠ '$') (s : List Char) : stopAt? (c :: s) = none := by
  unfold stopAt?
  split
  · simp_all
  · simp_all
  · rfl

/-- A text without a dollar sign holds no stops. -/
theorem stops_append_of_not_mem {s : List Char} (hs : '$' ∉ s) (rest : List Char) :
    stops (s ++ rest) = stops rest := by
  induction s with
  | nil => rfl
  | cons c s ih =>
    rw [List.mem_cons, not_or] at hs
    rw [List.cons_append, stops, stopAt?_of_ne (Ne.symm hs.1), ih hs.2]
    rfl

/-! ### Placeholders -/

theorem toList_placeholder (name : String) (place : Nat) :
    (placeholder name place).toList =
      '$' :: '{' :: (Nat.toDigits 10 place ++ ':' :: (name.toList ++ ['}'])) := by
  simp only [placeholder, String.toList_append, Nat.toString_eq_repr, Nat.toList_repr]
  simp

/-- A dollar sign is no part of a name or a number. -/
theorem dollar_not_mem_slot {name : List Char} (hname : isName name = true) (place : Nat) :
    '$' ∉ '{' :: (Nat.toDigits 10 place ++ ':' :: (name ++ ['}'])) := by
  have hdigits : '$' ∉ Nat.toDigits 10 place := by
    intro hmem
    have hdigit := Nat.isDigit_of_mem_toDigits (by decide) (by decide) hmem
    exact absurd hdigit (by decide)
  simp [hdigits, not_mem_of_isName hname (show isNameChar '$' = false by decide)]

/-- A placeholder is read as the stop of its number with its name. -/
theorem stopAt?_placeholder {name : List Char} (hname : isName name = true) (place : Nat)
    (rest : List Char) :
    stopAt? ('$' :: '{' :: (Nat.toDigits 10 place ++ ':' :: (name ++ '}' :: rest))) =
      some ⟨place, some name⟩ := by
  have hdigits : ∀ c ∈ Nat.toDigits 10 place, c.isDigit = true := fun c hc =>
    Nat.isDigit_of_mem_toDigits (by decide) (by decide) hc
  have hcolon : ∀ c ∈ (':' :: (name ++ '}' :: rest)).head?, c.isDigit = false := by simp
  have hinside : ∀ c ∈ name, (c != '}') = true := by
    intro c hc
    rw [bne_iff_ne]
    rintro rfl
    exact not_mem_of_isName hname (by decide) hc
  have hbrace : ∀ c ∈ ('}' :: rest).head?, (c != '}') = false := by simp
  have hopen : after? [':'] (':' :: (name ++ '}' :: rest)) = some (name ++ '}' :: rest) :=
    after?_append [':'] _
  have hclose : after? ['}'] ((name ++ '}' :: rest).dropWhile (· != '}')) = some rest := by
    rw [dropWhile_append_of_stop hinside hbrace]
    exact after?_append ['}'] rest
  simp only [stopAt?, leadingNumber?_append place hcolon, dropWhile_append_of_stop hdigits hcolon,
    hopen, hclose, takeWhile_append_of_stop hinside hbrace, Option.bind_eq_bind, Option.bind_some]
  rfl

theorem stops_placeholder {name : String} (hname : isName name.toList = true) (place : Nat)
    (rest : List Char) :
    stops ((placeholder name place).toList ++ rest) =
      ⟨place, some name.toList⟩ :: stops rest := by
  have hstop := stopAt?_placeholder hname place rest
  rw [toList_placeholder, List.cons_append, stops,
    stops_append_of_not_mem (dollar_not_mem_slot hname place)]
  simp only [List.cons_append, List.append_assoc, List.nil_append, hstop, Option.toList_some]

/-- The placeholders of a template are read one after the other. -/
theorem stops_placeholders {names : List String}
    (hnames : ∀ name ∈ names, isName name.toList = true) (first : Nat) (rest : List Char) :
    stops ((", ".intercalate ((names.zipIdx first).map fun (name, place) =>
        placeholder name place)).toList ++ rest) =
      ((names.zipIdx first).map fun (name, place) => ⟨place, some name.toList⟩) ++ stops rest := by
  induction names generalizing first with
  | nil => rfl
  | cons name names ih =>
    obtain ⟨hname, hnames⟩ := List.forall_mem_cons.mp hnames
    cases names with
    | nil =>
      rw [List.zipIdx_cons, List.zipIdx_nil, List.map_singleton, String.intercalate_singleton,
        stops_placeholder hname]
      rfl
    | cons next names =>
      have hcomma : '$' ∉ ", ".toList := by decide
      have hrest := ih hnames (first + 1)
      rw [List.zipIdx_cons, List.map_cons] at hrest
      rw [List.zipIdx_cons, List.zipIdx_cons, List.map_cons, List.map_cons,
        String.intercalate_cons_cons, String.toList_append, String.toList_append, List.append_assoc,
        List.append_assoc, stops_placeholder hname, stops_append_of_not_mem hcomma, hrest]
      rfl

/-! ### The template of a signature -/

/-- The function and its parameters have names. -/
structure Named (s : Signature) : Prop where
  name : isName s.name.toList = true
  parameters : ∀ name ∈ s.parameterNames, isName name.toList = true

theorem isName_of_functionHead? {line : List Char} {head : Function}
    (h : functionHead? line = some head) : isName head.name.toList = true := by
  simp only [functionHead?, named?, Option.bind_eq_bind, Option.bind_eq_some_iff] at h
  obtain ⟨⟨name, s⟩, ⟨_, -, _, -, hname⟩, h⟩ := h
  split at h
  · rw [← Option.some_inj.mp h, String.toList_ofList]
    exact (name?_eq_some_iff.mp hname).2.1
  · exact absurd h (by simp)

theorem named_of_mem_signatures {text : List Char} {s : Signature} (hs : s ∈ signatures text) :
    s.Named := by
  obtain ⟨head, hhead, rfl⟩ := List.mem_map.mp hs
  obtain ⟨line, -, hline⟩ := List.mem_filterMap.mp hhead
  exact ⟨isName_of_functionHead? hline, fun name => Scope.isName_of_mem_namesOf⟩

theorem toList_snippet_of_nil {s : Signature} (hnil : s.parameterNames = []) :
    s.snippet.toList = s.name.toList ++ '(' :: ['$', '0', ')'] := by
  rw [snippet, if_pos hnil, String.toList_append]
  rfl

theorem toList_snippet {s : Signature} (hne : s.parameterNames ≠ []) :
    s.snippet.toList = s.name.toList ++ '(' :: ((", ".intercalate ((s.parameterNames.zipIdx 1).map
      fun (name, place) => placeholder name place)).toList ++ [')']) := by
  rw [snippet, if_neg hne]
  simp only [String.toList_append, List.append_assoc]
  rfl

namespace Named

variable {s s' : Signature}

theorem stops_name_append (hs : s.Named) (rest : List Char) :
    stops (s.name.toList ++ '(' :: rest) = stops rest := by
  have hname : '$' ∉ s.name.toList := not_mem_of_isName hs.name (by decide)
  rw [stops_append_of_not_mem hname, stops, stopAt?_of_ne (by decide)]
  rfl

/-- Without parameters the only stop is the last one. -/
theorem stops_snippet_of_nil (hs : s.Named) (hnil : s.parameterNames = []) :
    stops s.snippet.toList = [⟨0, none⟩] := by
  rw [toList_snippet_of_nil hnil, hs.stops_name_append]
  decide

/-- With parameters there is one stop for each of them, by their numbers. -/
theorem stops_snippet (hs : s.Named) (hne : s.parameterNames ≠ []) :
    stops s.snippet.toList =
      (s.parameterNames.zipIdx 1).map fun (name, place) => ⟨place, some name.toList⟩ := by
  rw [toList_snippet hne, hs.stops_name_append, stops_placeholders hs.parameters]
  exact List.append_nil _

theorem map_number (hs : s.Named) (hne : s.parameterNames ≠ []) :
    (stops s.snippet.toList).map Stop.number = List.range' 1 s.parameterNames.length := by
  rw [hs.stops_snippet hne, List.map_map]
  exact List.zipIdx_map_snd 1 s.parameterNames

theorem map_shown (hs : s.Named) (hne : s.parameterNames ≠ []) :
    (stops s.snippet.toList).map Stop.shown =
      s.parameterNames.map fun name => some name.toList := by
  calc (stops s.snippet.toList).map Stop.shown
      = ((s.parameterNames.zipIdx 1).map Prod.fst).map fun name => some name.toList := by
        rw [hs.stops_snippet hne, List.map_map, List.map_map]
        rfl
    _ = s.parameterNames.map fun name => some name.toList := by rw [List.zipIdx_map_fst]

/-- The texts at the stops are the names of the parameters, also if there are none. -/
theorem filterMap_shown (hs : s.Named) :
    (stops s.snippet.toList).filterMap Stop.shown = s.parameterNames.map String.toList := by
  by_cases hnil : s.parameterNames = []
  · rw [hs.stops_snippet_of_nil hnil, hnil]
    rfl
  · calc (stops s.snippet.toList).filterMap Stop.shown
        = ((stops s.snippet.toList).map Stop.shown).filterMap id := by
          rw [List.filterMap_map]
          rfl
      _ = s.parameterNames.map String.toList := by
          rw [hs.map_shown hnil, List.filterMap_map, ← List.filterMap_eq_map]
          rfl

/-- What stands before the first parenthesis is the name of the function. -/
theorem takeWhile_snippet (hs : s.Named) :
    s.snippet.toList.takeWhile (· != '(') = s.name.toList := by
  have hname : ∀ c ∈ s.name.toList, (c != '(') = true := by
    intro c hc
    rw [bne_iff_ne]
    rintro rfl
    exact not_mem_of_isName hs.name (by decide) hc
  by_cases hnil : s.parameterNames = []
  · rw [toList_snippet_of_nil hnil]
    exact takeWhile_append_of_stop hname (by simp)
  · rw [toList_snippet hnil]
    exact takeWhile_append_of_stop hname (by simp)

/-- A template is made for one name and one list of parameters. -/
theorem snippet_inj (hs : s.Named) (hs' : s'.Named) :
    s.snippet = s'.snippet ↔ s.name = s'.name ∧ s.parameterNames = s'.parameterNames := by
  constructor
  · intro hequal
    have hname : s.name.toList = s'.name.toList := by
      rw [← hs.takeWhile_snippet, ← hs'.takeWhile_snippet, hequal]
    have hparameters :
        s.parameterNames.map String.toList = s'.parameterNames.map String.toList := by
      rw [← hs.filterMap_shown, ← hs'.filterMap_shown, hequal]
    refine ⟨String.toList_inj.mp hname, ?_⟩
    exact List.map_injective_iff.mpr (fun _ _ => String.toList_inj.mp) hparameters
  · rintro ⟨hname, hparameters⟩
    rw [snippet, snippet, hname, hparameters]

end Named

/-- **Templates are unambiguous.** Two functions, of whatever texts, have the same template exactly
if they have the same name and the same names of parameters. With parameters the stops of a template
are numbered from one on, without gaps, and show the parameters in their order. Without parameters
there is a single stop, where the cursor comes to rest. -/
theorem snippet_unambiguous {text text' : List Char} {s s' : Signature} (hs : s ∈ signatures text)
    (hs' : s' ∈ signatures text') :
    (s.snippet = s'.snippet ↔ s.name = s'.name ∧ s.parameterNames = s'.parameterNames) ∧
    (s.parameterNames ≠ [] →
      (stops s.snippet.toList).map Stop.number = List.range' 1 s.parameterNames.length ∧
      (stops s.snippet.toList).map Stop.shown =
        s.parameterNames.map fun name => some name.toList) ∧
    (s.parameterNames = [] → stops s.snippet.toList = [⟨0, none⟩]) := by
  have hnamed := named_of_mem_signatures hs
  exact ⟨hnamed.snippet_inj (named_of_mem_signatures hs'),
    fun hne => ⟨hnamed.map_number hne, hnamed.map_shown hne⟩, hnamed.stops_snippet_of_nil⟩

/-- A parameter without a name, and one that is called what the other is given for a name. The texts
between the parentheses differ and the templates do not. -/
theorem snippet_unambiguous_unnamed :
    let text := "fn f(a: T, *p) \x7b".toList
    let text' := "  export fn f (a, param2".toList
    let s : Signature := ⟨"f", "a: T, *p", ["a", "param2"]⟩
    let s' : Signature := ⟨"f", "a, param2", ["a", "param2"]⟩
    s ∈ signatures text ∧ s' ∈ signatures text' ∧ s.snippet = s'.snippet ∧
      (stops s.snippet.toList).map Stop.number = [1, 2] ∧
      (stops s.snippet.toList).map Stop.shown = [some "a".toList, some "param2".toList] := by
  intro text text' s s'
  have hs : s ∈ signatures text := by decide +kernel
  have hs' : s' ∈ signatures text' := by decide +kernel
  obtain ⟨hequal, hstops, -⟩ := snippet_unambiguous hs hs'
  obtain ⟨hnumbers, hshown⟩ := hstops (by simp [s])
  exact ⟨hs, hs', hequal.mpr ⟨rfl, rfl⟩, hnumbers, hshown⟩

end VeLens.Signature
