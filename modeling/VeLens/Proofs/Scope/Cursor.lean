import VeLens.Proofs.Scope.Enclosing

/-!
# The cursor and the tiers

The visible names come in three runs: the parameters of the enclosing function, what its body has
declared so far, and the variables at the top level. Of the cursor only its line counts. As it moves
down without coming to another function, the first and the last run stay as they are, and the run in
the middle grows at its end.

## Main definitions

* `Tier`, `Kind.tier`, `run`: the tiers, and the visible names of one tier.
* `IsNearestHead`: the nearest head of a function on a line or above.

## Main results

* `run_parameter_resolve`, `run_body_resolve`, `run_topLevel_resolve`: where each run comes from.
* `enclosing?_congr`: the nearest head decides which function encloses a line.
* `bodyNames_isPrefix`: further down more is declared.
* `resolve_tiers`: the three runs and the cursor.
-/

namespace VeLens.Scope

open Declaration Text

/-- The tiers of visible names, in the order in which they come. -/
inductive Tier where
  | parameter
  | body
  | topLevel
deriving DecidableEq

def Kind.tier : Kind → Tier
  | parameter => .parameter
  | localVariable | localForeign | loopVariable => .body
  | globalVariable | globalForeign => .topLevel

/-- The names of one tier. -/
def run (tier : Tier) (names : List Binding) : List Binding :=
  names.filter fun b => b.kind.tier == tier

/-- Line `i` is the nearest one, line `n` or above it, on which a function is declared. -/
def IsNearestHead (lines : List Line) (n i : Nat) : Prop :=
  i ≤ n ∧ (functionOn? lines i).isSome = true ∧ ∀ j, i < j → j ≤ n → functionOn? lines j = none

/-! ### Names of one tier -/

theorem run_append (tier : Tier) (xs ys : List Binding) :
    run tier (xs ++ ys) = run tier xs ++ run tier ys :=
  List.filter_append xs ys

section OneTier

variable {tier other : Tier} {names : List Binding} (h : ∀ b ∈ names, b.kind.tier = tier)

include h

theorem run_eq_self : run tier names = names := by
  rw [run, List.filter_eq_self]
  intro b hb
  rw [h b hb, beq_self_eq_true]

theorem run_eq_nil (hne : tier ≠ other) : run other names = [] := by
  rw [run, List.filter_eq_nil_iff]
  intro b hb
  rw [h b hb, beq_iff_eq]
  exact hne

end OneTier

/-! ### The three runs -/

/-- The parameters that are visible on a line. -/
def parametersOn (lines : List Line) (n : Nat) : List Binding :=
  ((enclosing? lines n).map fun p => parameters p.2).getD []

/-- What the body of the enclosing function has declared above a line. -/
def bodyNames (lines : List Line) (n : Nat) : List Binding :=
  ((enclosing? lines n).map fun p => locals lines p.1 (min n (blockEndLine lines p.1))).getD []

theorem functionBindings_eq_append (lines : List Line) (n : Nat) :
    functionBindings lines n = parametersOn lines n ++ bodyNames lines n := by
  rw [functionBindings, parametersOn, bodyNames]
  cases enclosing? lines n <;> rfl

theorem tier_of_mem_parametersOn {lines : List Line} {n : Nat} :
    ∀ b ∈ parametersOn lines n, b.kind.tier = .parameter := by
  intro b hb
  rw [parametersOn] at hb
  cases henclosing : enclosing? lines n with
  | none => simp [henclosing] at hb
  | some p =>
    rw [henclosing, Option.map_some, Option.getD_some] at hb
    rw [kind_of_mem_parameters hb]
    rfl

theorem tier_of_mem_bodyNames {lines : List Line} {n : Nat} :
    ∀ b ∈ bodyNames lines n, b.kind.tier = .body := by
  intro b hb
  rw [bodyNames] at hb
  cases henclosing : enclosing? lines n with
  | none => simp [henclosing] at hb
  | some p =>
    rw [henclosing, Option.map_some, Option.getD_some] at hb
    have hkind := kind_of_mem_locals hb
    simp only [List.mem_cons, List.not_mem_nil, or_false] at hkind
    rcases hkind with hkind | hkind | hkind <;> rw [hkind] <;> rfl

theorem tier_of_mem_globals {lines : List Line} : ∀ b ∈ globals lines, b.kind.tier = .topLevel := by
  intro b hb
  have hglobal := isGlobal_of_mem_globals hb
  cases hkind : b.kind with
  | globalVariable | globalForeign => rfl
  | parameter | localVariable | localForeign | loopVariable =>
    rw [hkind] at hglobal
    exact Bool.noConfusion hglobal

section Resolve

variable (lines : List Line) (cursor : Position)

theorem resolve_eq_append : resolve lines cursor =
    parametersOn lines (clampLine lines cursor.line) ++
      bodyNames lines (clampLine lines cursor.line) ++ globals lines := by
  rw [resolve, functionBindings_eq_append]

theorem run_parameter_resolve :
    run .parameter (resolve lines cursor) = parametersOn lines (clampLine lines cursor.line) := by
  rw [resolve_eq_append, run_append, run_append, run_eq_self tier_of_mem_parametersOn,
    run_eq_nil tier_of_mem_bodyNames (by decide), run_eq_nil tier_of_mem_globals (by decide),
    List.append_nil, List.append_nil]

theorem run_body_resolve :
    run .body (resolve lines cursor) = bodyNames lines (clampLine lines cursor.line) := by
  rw [resolve_eq_append, run_append, run_append, run_eq_self tier_of_mem_bodyNames,
    run_eq_nil tier_of_mem_parametersOn (by decide), run_eq_nil tier_of_mem_globals (by decide),
    List.nil_append, List.append_nil]

theorem run_topLevel_resolve : run .topLevel (resolve lines cursor) = globals lines := by
  rw [resolve_eq_append, run_append, run_append, run_eq_self tier_of_mem_globals,
    run_eq_nil tier_of_mem_parametersOn (by decide), run_eq_nil tier_of_mem_bodyNames (by decide),
    List.nil_append, List.nil_append]

end Resolve

/-! ### Moving the cursor -/

theorem clampLine_eq {lines : List Line} (hne : lines ≠ []) (line : Int) :
    (clampLine lines line : Int) = min (max line 0) (lines.length - 1) := by
  have hpos : 0 < lines.length := List.length_pos_iff.mpr hne
  rw [clampLine]
  omega

theorem clampLine_clampLine (lines : List Line) (line : Int) :
    clampLine lines (clampLine lines line) = clampLine lines line := by
  rw [clampLine, clampLine, Int.toNat_natCast, Nat.min_assoc, Nat.min_self]

theorem enclosing?_eq_some_iff_isNearestHead {lines : List Line} {n i : Nat} {head : Function} :
    enclosing? lines n = some (i, head) ↔
      IsNearestHead lines n i ∧ functionOn? lines i = some head := by
  rw [enclosing?_eq_some_iff, IsNearestHead]
  constructor
  · rintro ⟨hle, hhead, hnone⟩
    exact ⟨⟨hle, by rw [hhead]; rfl, hnone⟩, hhead⟩
  · rintro ⟨⟨hle, -, hnone⟩, hhead⟩
    exact ⟨hle, hhead, hnone⟩

/-- Lines below the same head are in the same function, and lines below no head are in none. -/
theorem enclosing?_congr {lines : List Line} {n m : Nat}
    (h : ∀ i, IsNearestHead lines n i ↔ IsNearestHead lines m i) :
    enclosing? lines n = enclosing? lines m := by
  ext ⟨i, head⟩
  rw [enclosing?_eq_some_iff_isNearestHead, enclosing?_eq_some_iff_isNearestHead, h i]

theorem locals_isPrefix (lines : List Line) (head : Nat) {stop stop' : Nat} (h : stop ≤ stop') :
    locals lines head stop <+: locals lines head stop' :=
  (List.take_prefix_take_left (Nat.sub_le_sub_right h _)).filterMap _

/-- Further down in the same function more is declared, up to the end of its block. -/
theorem bodyNames_isPrefix {lines : List Line} {n m : Nat} (hle : n ≤ m)
    (hsame : enclosing? lines n = enclosing? lines m) :
    bodyNames lines n <+: bodyNames lines m := by
  rw [bodyNames, bodyNames, hsame]
  cases enclosing? lines m with
  | none => exact List.prefix_refl []
  | some p => exact locals_isPrefix lines p.1 (by omega)

/-- **The tiers of visible names and the cursor.** What is visible depends on the line of the buffer
that is nearest to the cursor, and on nothing else of the cursor. The names are a run of parameters,
a run of names from the body and a run of variables at the top level. Of two lines with the same
nearest head, or with none, the lower one has the same parameters and the same variables at the top
level, and the names from the body on the upper line are the first of those on the lower one. -/
theorem resolve_tiers (text : String) (cursor : Position) :
    let lines := Buffer.lines text.toList
    let names := resolve lines cursor
    clampLine lines cursor.line = min (max cursor.line 0) ((lines.length : Int) - 1) ∧
      names = resolve lines ⟨clampLine lines cursor.line, 0⟩ ∧
      names = run .parameter names ++ run .body names ++ run .topLevel names ∧
      ∀ cursor' : Position,
        let names' := resolve lines cursor'
        clampLine lines cursor.line ≤ clampLine lines cursor'.line →
        (∀ i, IsNearestHead lines (clampLine lines cursor.line) i ↔
          IsNearestHead lines (clampLine lines cursor'.line) i) →
        run .parameter names = run .parameter names' ∧
          run .topLevel names = run .topLevel names' ∧ run .body names <+: run .body names' := by
  intro lines names
  refine ⟨clampLine_eq (Buffer.lines_ne_nil _) cursor.line, ?_, ?_, ?_⟩
  · simp only [names, resolve, clampLine_clampLine]
  · simp only [names]
    rw [run_parameter_resolve, run_body_resolve, run_topLevel_resolve, resolve_eq_append]
  · intro cursor' names' hle hheads
    have hsame := enclosing?_congr hheads
    simp only [names, names']
    rw [run_parameter_resolve, run_parameter_resolve, run_topLevel_resolve, run_topLevel_resolve,
      run_body_resolve, run_body_resolve, parametersOn, parametersOn, hsame]
    exact ⟨rfl, rfl, bodyNames_isPrefix hle hsame⟩

/-- The lower cursor stands below the buffer and below the block of the function. -/
theorem resolve_tiers_pastBlock :
    let lines := Buffer.lines
      "fn f(p: T) \x7b\n  let a: T;\n  for i in a \x7b\n  \x7d\n\x7d\nlet g = 1;".toList
    let upper := resolve lines ⟨2, 4⟩
    let lower := resolve lines ⟨9, -1⟩
    clampLine lines 2 ≤ clampLine lines 9 ∧
      (∀ i, IsNearestHead lines (clampLine lines 2) i ↔ IsNearestHead lines (clampLine lines 9) i) ∧
      (run .body upper).map (·.name) = ["a"] ∧ (run .body lower).map (·.name) = ["a", "i"] ∧
      run .parameter upper = run .parameter lower ∧ run .topLevel upper = run .topLevel lower ∧
      run .body upper <+: run .body lower := by
  intro lines upper lower
  have hle : clampLine lines 2 ≤ clampLine lines 9 := by decide +kernel
  have hlast : clampLine lines 9 = 5 := by decide +kernel
  have hnone : ∀ j < 6, 0 < j → functionOn? lines j = none := by decide +kernel
  have hfirst : (functionOn? lines 0).isSome = true := by decide +kernel
  -- The only head is on the first line.
  have hnearest (n : Nat) (hn : n ≤ 5) (i : Nat) : IsNearestHead lines n i ↔ i = 0 := by
    constructor
    · rintro ⟨hi, hsome, -⟩
      by_contra hne
      rw [hnone i (by omega) (by omega)] at hsome
      exact Bool.noConfusion hsome
    · rintro rfl
      exact ⟨Nat.zero_le n, hfirst, fun j hlo hhi => hnone j (by omega) hlo⟩
  have hheads (i : Nat) : IsNearestHead lines (clampLine lines 2) i ↔
      IsNearestHead lines (clampLine lines 9) i := by
    rw [hnearest _ (by omega), hnearest _ (by omega)]
  exact ⟨hle, hheads, by decide +kernel, by decide +kernel,
    (resolve_tiers _ ⟨2, 4⟩).2.2.2 ⟨9, -1⟩ hle hheads⟩

end VeLens.Scope
