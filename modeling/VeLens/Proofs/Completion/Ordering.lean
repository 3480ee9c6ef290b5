import Mathlib.Data.List.Basic
import VeLens.CommandLine.Run
import VeLens.Proofs.Completion.Modes

/-!
# The order of candidates

Candidates are sorted by their keys, and a key is a digit for the kind with the name behind it. For
texts of any kind this is the order by groups first and by names within a group: the keywords and
modules, then the functions, then the variables. Candidates with the same key stay as they were
found, so that the keyword with a skeleton comes before the same keyword without one.

## Main definitions

* `Candidate.subject`: the name that a candidate stands for.
* `Candidate.Keyed`: a candidate whose sort key is made of its kind and this name.
* `InTiers`: candidates in three groups, each by rising names.

## Main results

* `sortKey_le_iff`: sort keys compare as the digits do, and as the names do if the digits are equal.
* `keyed_of_contextAt`: every candidate is keyed, in every mode of completion.
* `filter_ordered`: sorting keeps candidates with the same key as they are.
* `complete_inTiers`: what the command for completion prints.
-/

namespace VeLens.Completion

open CommandLine

/-- The name that a candidate stands for: the name between the quotation marks if it is a module
that is offered with them, and the label otherwise. -/
def Candidate.subject (c : Candidate) : String :=
  if c.kind = .module ∧ c.isSnippet = true then String.ofList c.label.toList.tail.dropLast
  else c.label

/-- The sort key is made of the kind and the name. -/
def Candidate.Keyed (c : Candidate) : Prop := c.sortKey = c.kind.sortKey c.subject

/-- The candidates come in three groups: keywords and modules, then functions, then variables. In
each group the names do not fall. -/
def InTiers (candidates : List Candidate) : Prop :=
  ∃ first second third, candidates = first ++ (second ++ third) ∧
    (∀ c ∈ first, c.kind = .keyword ∨ c.kind = .module) ∧
    (∀ c ∈ second, c.kind = .function) ∧ (∀ c ∈ third, c.kind = .variable) ∧
    ∀ group ∈ [first, second, third], group.Pairwise fun a b => a.subject ≤ b.subject

/-! ### Sort keys -/

section Keys

variable {k k' : CandidateKind} {a b : String}

theorem toList_sortKey (k : CandidateKind) (a : String) :
    (k.sortKey a).toList = k.tier :: a.toList := by
  rw [CandidateKind.sortKey, String.toList_append, Char.toString_eq_singleton,
    String.toList_singleton]
  rfl

theorem sortKey_lt_iff :
    k.sortKey a < k'.sortKey b ↔ k.tier < k'.tier ∨ k.tier = k'.tier ∧ a < b := by
  rw [String.lt_iff, String.lt_iff, toList_sortKey, toList_sortKey, List.cons_lt_cons_iff]

/-- Sort keys compare as the digits for the kinds do, and as the names do where these are equal. -/
theorem sortKey_le_iff :
    k.sortKey a ≤ k'.sortKey b ↔ k.tier < k'.tier ∨ k.tier = k'.tier ∧ a ≤ b := by
  rw [← String.not_lt, sortKey_lt_iff, ← String.not_lt]
  by_cases htier : k.tier = k'.tier
  · simp [htier]
  · constructor
    · intro hnot
      rw [not_or] at hnot
      exact .inl (Std.lt_of_le_of_ne (Char.not_lt.mp hnot.1) htier)
    · rintro (hlt | ⟨heq, -⟩)
      · rintro (hgt | ⟨heq, -⟩)
        · exact Char.lt_asymm hlt hgt
        · exact htier heq.symm
      · exact absurd heq htier

theorem tier_eq_of_sortKey_eq (h : k.sortKey a = k'.sortKey b) : k.tier = k'.tier := by
  have hlists := congrArg String.toList h
  rw [toList_sortKey, toList_sortKey] at hlists
  exact (List.cons.inj hlists).1

/-- The digits tell the three groups apart. -/
theorem kind_of_tier (k : CandidateKind) :
    (k.tier ≤ '0' → (k = .keyword ∨ k = .module) ∧ k.tier = '0') ∧
      (¬ k.tier ≤ '0' → k.tier ≤ '1' → k = .function) ∧ (¬ k.tier ≤ '1' → k = .variable) := by
  cases k <;> decide

end Keys

/-! ### Keys of the families -/

section Families

variable {c : Candidate} {typed : Option String}

theorem keyed_of_label (hkind : c.kind ≠ .module ∨ c.isSnippet = false)
    (hkey : c.sortKey = c.kind.sortKey c.label) : c.Keyed := by
  rw [Candidate.Keyed, Candidate.subject, if_neg, hkey]
  rintro ⟨hmodule, hsnippet⟩
  rcases hkind with hkind | hkind
  · exact hkind hmodule
  · rw [hkind] at hsnippet
    exact Bool.noConfusion hsnippet

theorem keyed_of_mem_snippets (hc : c ∈ snippets typed) : c.Keyed := by
  obtain ⟨hmem, -⟩ := List.mem_filter.mp hc
  simp only [List.mem_cons, List.not_mem_nil, or_false] at hmem
  rcases hmem with rfl | rfl
  · exact keyed_of_label (.inl (by decide)) rfl
  · exact keyed_of_label (.inl (by decide)) rfl

theorem keyed_of_mem_functions {signatures : List Signature}
    (hc : c ∈ functions signatures typed) : c.Keyed ∧ c.kind = .function := by
  obtain ⟨s, -, rfl⟩ := List.mem_map.mp hc
  exact ⟨keyed_of_label (.inl (by simp)) rfl, rfl⟩

theorem keyed_of_mem_boundNames {bindings : List Scope.Binding}
    (hc : c ∈ boundNames bindings typed) : c.Keyed ∧ c.kind = .variable := by
  obtain ⟨b, -, rfl⟩ := List.mem_map.mp hc
  exact ⟨keyed_of_label (.inl (by simp)) rfl, rfl⟩

theorem keyed_of_mem_keywords (hc : c ∈ keywords) :
    c.Keyed ∧ c.kind = .keyword ∧ c.detail = "Keyword" := by
  obtain ⟨word, -, rfl⟩ := List.mem_map.mp hc
  exact ⟨keyed_of_label (.inl (by simp)) rfl, rfl, rfl⟩

theorem keyed_of_mem_importLines {modules : List Catalog.Module} {path : List Char} {range : Range}
    (hc : c ∈ importLines modules path range) : c.Keyed ∧ c.kind = .module := by
  obtain ⟨m, -, rfl⟩ := List.mem_map.mp hc
  exact ⟨keyed_of_label (.inr rfl) rfl, rfl⟩

/-- A module between quotation marks goes by its name without them. -/
theorem subject_of_quoted {name : String} (hkind : c.kind = .module) (hsnippet : c.isSnippet = true)
    (hlabel : c.label = "\"" ++ name ++ "\"") : c.subject = name := by
  have hquoted : c.label.toList = '"' :: (name.toList ++ ['"']) := by
    rw [hlabel, String.toList_append, String.toList_append]
    rfl
  rw [Candidate.subject, if_pos ⟨hkind, hsnippet⟩, hquoted, List.tail_cons, List.dropLast_concat,
    String.ofList_toList]

theorem keyed_of_mem_quotedModules {modules : List Catalog.Module}
    (hc : c ∈ quotedModules modules) : c.Keyed ∧ c.kind = .module := by
  obtain ⟨m, hm, rfl⟩ := List.mem_map.mp hc
  refine ⟨?_, rfl⟩
  rw [Candidate.Keyed, subject_of_quoted rfl rfl rfl]

end Families

/-! ### Keys in a context -/

section Context

variable {h : Host} {env : Environment} {text : List Char} {cursor : Position}
  {before? : Option (List Char)} {context : Context}

theorem candidates_of_nameContext {lines : List Line} {line : Line}
    (hok : (nameContext h env text lines line cursor).outcome = .ok context) :
    ∃ signatures bindings typed, context.candidates =
      snippets typed ++ functions signatures typed ++ boundNames bindings typed ++ keywords := by
  rw [nameContext, Report.outcome_bind_eq_ok_iff] at hok
  obtain ⟨signatures, -, hok⟩ := hok
  rw [Report.outcome_bind_eq_ok_iff] at hok
  obtain ⟨-, -, hok⟩ := hok
  rw [Report.outcome_pure, Except.ok.injEq] at hok
  rw [← hok]
  exact ⟨signatures, _, _, rfl⟩

/-- Where names are offered, the candidates are those of four families in a row. In the other modes
no candidate is a plain keyword. -/
theorem candidates_cases (hok : (contextAt h env text cursor before?).outcome = .ok context) :
    (∃ signatures bindings typed, context.candidates =
      snippets typed ++ functions signatures typed ++ boundNames bindings typed ++ keywords) ∨
    ∀ c ∈ context.candidates, c.Keyed ∧ c ∉ keywords := by
  rw [contextAt_eq] at hok
  split at hok
  · right
    obtain ⟨modules, -, rfl⟩ := importPathContext_eq_ok_iff.mp hok
    intro c hc
    have hmodule : c.Keyed ∧ c.kind = .module := by
      split at hc
      · exact keyed_of_mem_importLines hc
      · exact keyed_of_mem_quotedModules hc
    refine ⟨hmodule.1, fun hplain => ?_⟩
    have hkind := (keyed_of_mem_keywords hplain).2.1
    rw [hmodule.2] at hkind
    exact CandidateKind.noConfusion hkind
  split at hok
  · right
    obtain rfl := Except.ok.inj hok
    intro c hc
    obtain rfl := List.mem_singleton.mp hc
    exact ⟨keyed_of_label (.inl (by decide)) rfl, by decide +kernel⟩
  split at hok
  · right
    obtain rfl := Except.ok.inj hok
    intro c hc
    obtain rfl := List.mem_singleton.mp hc
    exact ⟨keyed_of_label (.inl (by decide)) rfl, by decide +kernel⟩
  · left
    exact candidates_of_nameContext hok

/-- In every mode the sort key of a candidate is made of its kind and its name. -/
theorem keyed_of_contextAt (hok : (contextAt h env text cursor before?).outcome = .ok context) :
    ∀ c ∈ context.candidates, c.Keyed := by
  obtain ⟨signatures, bindings, typed, hcandidates⟩ | hkeyed := candidates_cases hok
  · intro c hc
    rw [hcandidates] at hc
    simp only [List.mem_append] at hc
    rcases hc with ((hc | hc) | hc) | hc
    · exact keyed_of_mem_snippets hc
    · exact (keyed_of_mem_functions hc).1
    · exact (keyed_of_mem_boundNames hc).1
    · exact (keyed_of_mem_keywords hc).1
  · exact fun c hc => (hkeyed c hc).1

end Context

/-! ### Sorting -/

section Sorting

variable {candidates : List Candidate}

theorem sortsBefore_trans (a b c : Candidate) (hab : decide (a.sortKey ≤ b.sortKey) = true)
    (hbc : decide (b.sortKey ≤ c.sortKey) = true) : decide (a.sortKey ≤ c.sortKey) = true :=
  decide_eq_true (String.le_trans (of_decide_eq_true hab) (of_decide_eq_true hbc))

theorem sortsBefore_total (a b : Candidate) :
    (decide (a.sortKey ≤ b.sortKey) || decide (b.sortKey ≤ a.sortKey)) = true := by
  simpa using String.le_total a.sortKey b.sortKey

theorem ordered_perm (candidates : List Candidate) : (ordered candidates).Perm candidates :=
  List.mergeSort_perm _ _

theorem pairwise_ordered (candidates : List Candidate) :
    (ordered candidates).Pairwise fun a b => a.sortKey ≤ b.sortKey := by
  have hsorted := List.pairwise_mergeSort sortsBefore_trans sortsBefore_total candidates
  exact hsorted.imp fun hle => of_decide_eq_true hle

/-- **Sorting is stable.** The candidates with a given key are the same before and after, and in the
same order. -/
theorem filter_ordered (candidates : List Candidate) (key : String) :
    ((ordered candidates).filter fun c => c.sortKey = key) =
      candidates.filter fun c => c.sortKey = key := by
  have hequal : (candidates.filter fun c => c.sortKey = key).Pairwise
      fun a b => decide (a.sortKey ≤ b.sortKey) = true := by
    refine List.pairwise_of_forall_mem_list fun a ha b hb => ?_
    have ha : a.sortKey = key := by simpa using (List.mem_filter.mp ha).2
    have hb : b.sortKey = key := by simpa using (List.mem_filter.mp hb).2
    rw [ha, hb]
    exact decide_eq_true (String.le_refl key)
  -- Sorting keeps every part that is in order already, and this one has its full length.
  have hkept : (candidates.filter fun c => c.sortKey = key).Sublist (ordered candidates) :=
    List.sublist_mergeSort sortsBefore_trans sortsBefore_total hequal List.filter_sublist
  have hsub := hkept.filter fun c => decide (c.sortKey = key)
  rw [List.filter_filter] at hsub
  simp only [Bool.and_self] at hsub
  exact (hsub.eq_of_length ((ordered_perm candidates).filter _).length_eq.symm).symm

/-- A list in which a property is never lost on the way back is cut in two by it. -/
theorem eq_filter_append_filter {p : Candidate → Bool}
    (hp : candidates.Pairwise fun a b => p b = true → p a = true) :
    candidates = candidates.filter p ++ candidates.filter fun c => !p c := by
  induction candidates with
  | nil => rfl
  | cons a candidates ih =>
    obtain ⟨ha, hrest⟩ := List.pairwise_cons.mp hp
    by_cases hpa : p a = true
    · rw [List.filter_cons_of_pos hpa, List.filter_cons_of_neg (by simp [hpa]), List.cons_append,
        ← ih hrest]
    · have hnone : candidates.filter p = [] := by
        rw [List.filter_eq_nil_iff]
        exact fun b hb hpb => hpa (ha b hb hpb)
      have hall : (candidates.filter fun c => !p c) = candidates := by
        have hcut := ih hrest
        rw [hnone, List.nil_append] at hcut
        exact hcut.symm
      rw [List.filter_cons_of_neg hpa, List.filter_cons_of_pos (by simp [hpa]), hnone, hall,
        List.nil_append]

/-- Candidates by rising digits are cut in two at every digit. -/
theorem cut_at_tier (digit : Char)
    (hsorted : candidates.Pairwise fun a b => a.kind.tier ≤ b.kind.tier) :
    ∃ low high, candidates = low ++ high ∧ (∀ c ∈ low, c.kind.tier ≤ digit) ∧
      ∀ c ∈ high, c ∈ candidates ∧ ¬ c.kind.tier ≤ digit := by
  refine ⟨_, _, eq_filter_append_filter (p := fun c => c.kind.tier ≤ digit) ?_, ?_, ?_⟩
  · refine hsorted.imp fun hle hb => ?_
    exact decide_eq_true (Char.le_trans hle (of_decide_eq_true hb))
  · intro c hc
    exact of_decide_eq_true (List.mem_filter.mp hc).2
  · intro c hc
    obtain ⟨hmem, hhigh⟩ := List.mem_filter.mp hc
    exact ⟨hmem, by simpa using hhigh⟩

/-- Candidates by rising keys are in three groups, each by rising names. -/
theorem inTiers_of_keyed (hkeyed : ∀ c ∈ candidates, c.Keyed)
    (hsorted : candidates.Pairwise fun a b => a.sortKey ≤ b.sortKey) : InTiers candidates := by
  have hranks : candidates.Pairwise fun a b =>
      a.kind.tier < b.kind.tier ∨ a.kind.tier = b.kind.tier ∧ a.subject ≤ b.subject := by
    refine hsorted.imp_of_mem fun ha hb hle => ?_
    rw [hkeyed _ ha, hkeyed _ hb] at hle
    exact sortKey_le_iff.mp hle
  have htiers : candidates.Pairwise fun a b => a.kind.tier ≤ b.kind.tier := by
    refine hranks.imp fun hrank => ?_
    rcases hrank with hlt | ⟨heq, -⟩
    · exact Char.not_lt.mp (Char.lt_asymm hlt)
    · exact heq ▸ Char.le_refl _
  -- Within a group the digits are equal, so the names decide.
  have hgroup : ∀ (group : List Candidate) (digit : Char), group.Sublist candidates →
      (∀ c ∈ group, c.kind.tier = digit) → group.Pairwise fun a b => a.subject ≤ b.subject := by
    intro group digit hsub hdigit
    refine (hranks.sublist hsub).imp_of_mem fun ha hb hrank => ?_
    rcases hrank with hlt | ⟨-, hle⟩
    · rw [hdigit _ ha, hdigit _ hb] at hlt
      exact absurd hlt (Char.lt_irrefl _)
    · exact hle
  obtain ⟨first, rest, rfl, hfirst, hrest⟩ := cut_at_tier '0' htiers
  obtain ⟨second, third, rfl, hsecond, hthird⟩ :=
    cut_at_tier '1' (List.pairwise_append.mp htiers).2.1
  have hsecond : ∀ c ∈ second, c.kind = .function := fun c hc =>
    (kind_of_tier c.kind).2.1 (hrest c (List.mem_append_left _ hc)).2 (hsecond c hc)
  have hthird : ∀ c ∈ third, c.kind = .variable := fun c hc =>
    (kind_of_tier c.kind).2.2 (hthird c hc).2
  refine ⟨first, second, third, rfl, fun c hc => ((kind_of_tier c.kind).1 (hfirst c hc)).1, hsecond,
    hthird, ?_⟩
  intro group hmem
  simp only [List.mem_cons, List.not_mem_nil, or_false] at hmem
  rcases hmem with rfl | rfl | rfl
  · exact hgroup _ '0' (List.sublist_append_left _ _) fun c hc =>
      ((kind_of_tier c.kind).1 (hfirst c hc)).2
  · refine hgroup _ '1' ?_ fun c hc => by rw [hsecond c hc]; rfl
    exact (List.sublist_append_left _ _).trans (List.sublist_append_right _ _)
  · refine hgroup _ '2' ?_ fun c hc => by rw [hthird c hc]; rfl
    exact (List.sublist_append_right _ _).trans (List.sublist_append_right _ _)

end Sorting

/-! ### Keywords with and without a skeleton -/

section Snippets

variable {snippet plain : Candidate} {typed : Option String}

theorem filter_keywords : ∀ plain ∈ keywords,
    (keywords.filter fun c => c.sortKey = plain.sortKey) = [plain] := by
  decide +kernel

theorem filter_snippets (hsnippet : snippet ∈ snippets typed) :
    ((snippets typed).filter fun c => c.sortKey = snippet.sortKey) = [snippet] := by
  have hboth : ∀ c ∈ [importKeyword, functionKeyword],
      ([importKeyword, functionKeyword].filter fun d => d.sortKey = c.sortKey) = [c] := by
    decide
  obtain ⟨hmem, hgoesOn⟩ := List.mem_filter.mp hsnippet
  rw [snippets, List.filter_comm, hboth snippet hmem]
  exact List.filter_eq_self.mpr (by simpa using hgoesOn)

/-- A keyword with a skeleton has the key of the plain keyword with the same label. -/
theorem sortKey_of_label (hsnippet : snippet ∈ [importKeyword, functionKeyword])
    (hplain : plain ∈ keywords) (hlabel : snippet.label = plain.label) :
    snippet.sortKey = plain.sortKey := by
  obtain ⟨word, -, rfl⟩ := List.mem_map.mp hplain
  have hkey : ∀ c ∈ [importKeyword, functionKeyword],
      c.sortKey = CandidateKind.keyword.sortKey c.label := by
    decide
  rw [hkey snippet hsnippet, hlabel]

/-- Functions and variables never have the key of a keyword. -/
theorem filter_eq_nil_of_tier (candidates : List Candidate)
    (hcandidates : ∀ c ∈ candidates, c.Keyed ∧ c.kind.tier ≠ '0') (hplain : plain ∈ keywords) :
    (candidates.filter fun c => c.sortKey = plain.sortKey) = [] := by
  rw [List.filter_eq_nil_iff]
  intro c hc hsame
  obtain ⟨hkeyed, htier⟩ := hcandidates c hc
  obtain ⟨hplainKeyed, hkind, -⟩ := keyed_of_mem_keywords hplain
  have hequal : c.sortKey = plain.sortKey := of_decide_eq_true hsame
  rw [hkeyed, hplainKeyed] at hequal
  apply htier
  rw [tier_eq_of_sortKey_eq hequal, hkind]
  rfl

/-- Where both are offered, the keyword with a skeleton comes right before the plain one among the
candidates with their key, and there are no others. -/
theorem filter_of_snippet {signatures : List Signature} {bindings : List Scope.Binding}
    (hsnippet : snippet ∈ [importKeyword, functionKeyword]) (hplain : plain ∈ keywords)
    (hlabel : snippet.label = plain.label)
    (hmem : snippet ∈
      snippets typed ++ functions signatures typed ++ boundNames bindings typed ++ keywords) :
    ((snippets typed ++ functions signatures typed ++ boundNames bindings typed ++
      keywords).filter fun c => c.sortKey = plain.sortKey) = [snippet, plain] := by
  have hkey := sortKey_of_label hsnippet hplain hlabel
  have hself : ∀ c ∈ [importKeyword, functionKeyword],
      c.kind = .keyword ∧ c.detail ≠ "Keyword" := by
    decide
  obtain ⟨hkind, hdetail⟩ := hself snippet hsnippet
  have hoffered : snippet ∈ snippets typed := by
    simp only [List.mem_append] at hmem
    rcases hmem with ((hmem | hmem) | hmem) | hmem
    · exact hmem
    · rw [(keyed_of_mem_functions hmem).2] at hkind
      exact CandidateKind.noConfusion hkind
    · rw [(keyed_of_mem_boundNames hmem).2] at hkind
      exact CandidateKind.noConfusion hkind
    · exact absurd (keyed_of_mem_keywords hmem).2.2 hdetail
  have hsnippets : ((snippets typed).filter fun c => c.sortKey = plain.sortKey) = [snippet] := by
    rw [← hkey]
    exact filter_snippets hoffered
  have hfunctions :
      ((functions signatures typed).filter fun c => c.sortKey = plain.sortKey) = [] := by
    refine filter_eq_nil_of_tier _ (fun c hc => ?_) hplain
    obtain ⟨hkeyed, hfunction⟩ := keyed_of_mem_functions hc
    exact ⟨hkeyed, by rw [hfunction]; decide⟩
  have hbound : ((boundNames bindings typed).filter fun c => c.sortKey = plain.sortKey) = [] := by
    refine filter_eq_nil_of_tier _ (fun c hc => ?_) hplain
    obtain ⟨hkeyed, hvariable⟩ := keyed_of_mem_boundNames hc
    exact ⟨hkeyed, by rw [hvariable]; decide⟩
  rw [List.filter_append, List.filter_append, List.filter_append, hsnippets, hfunctions, hbound,
    filter_keywords plain hplain]
  rfl

end Snippets

/-! ### What is printed -/

section Command

variable {h : Host} {file : String} {line : Given Int} {column : Option (Given Int)}
  {root : Given String} {answer : Json}

/-- The context is the one at the cursor that a command for completion names, in the file and the
workspace that it names. -/
def IsContextOf (h : Host) (file : String) (line : Given Int) (column : Option (Given Int))
    (root : Given String) (context : Context) : Prop :=
  ∃ text place config openFile env cursor,
    readFile h file = .ok text ∧ rootOf h root = .ok place ∧ Config.load h place = .ok config ∧
    placeOf h file = .ok openFile ∧
    Query.environment h config place (some openFile.render) = .ok env ∧
    cursorAt text line column = .ok cursor ∧
    (classify h env text cursor none).outcome = .ok context

/-- The command for completion prints the context at its cursor, with the candidates sorted. -/
theorem run_complete_eq_ok_iff :
    ((Command.complete file line column root).run h).outcome = .ok answer ↔
      ∃ context, IsContextOf h file line column root context ∧
        answer = context.toJsonWith (ordered context.candidates) := by
  rw [Command.run, runComplete]
  constructor
  · intro hrun
    obtain ⟨text, htext, hrun⟩ := Report.outcome_bind_eq_ok_iff.mp hrun
    obtain ⟨place, hplace, hrun⟩ := Report.outcome_bind_eq_ok_iff.mp hrun
    obtain ⟨config, hconfig, hrun⟩ := Report.outcome_bind_eq_ok_iff.mp hrun
    obtain ⟨openFile, hopen, hrun⟩ := Report.outcome_bind_eq_ok_iff.mp hrun
    obtain ⟨env, henv, hrun⟩ := Report.outcome_bind_eq_ok_iff.mp hrun
    obtain ⟨cursor, hcursor, hrun⟩ := Report.outcome_bind_eq_ok_iff.mp hrun
    obtain ⟨context, hcontext, hrun⟩ := Report.outcome_bind_eq_ok_iff.mp hrun
    exact ⟨context, ⟨text, place, config, openFile, env, cursor, htext, hplace, hconfig, hopen,
      henv, hcursor, hcontext⟩, (Except.ok.inj hrun).symm⟩
  · rintro ⟨context, ⟨text, place, config, openFile, env, cursor, htext, hplace, hconfig, hopen,
      henv, hcursor, hcontext⟩, rfl⟩
    refine Report.outcome_bind_eq_ok_iff.mpr ⟨text, htext, ?_⟩
    refine Report.outcome_bind_eq_ok_iff.mpr ⟨place, hplace, ?_⟩
    refine Report.outcome_bind_eq_ok_iff.mpr ⟨config, hconfig, ?_⟩
    refine Report.outcome_bind_eq_ok_iff.mpr ⟨openFile, hopen, ?_⟩
    refine Report.outcome_bind_eq_ok_iff.mpr ⟨env, henv, ?_⟩
    refine Report.outcome_bind_eq_ok_iff.mpr ⟨cursor, hcursor, ?_⟩
    exact Report.outcome_bind_eq_ok_iff.mpr ⟨context, hcontext, rfl⟩

end Command

/-- **The order of candidates.** For every text, cursor and environment, sorting keeps the
candidates of the context and puts them into three groups, each by rising names: keywords and
modules, then functions, then variables. Candidates with the same key stay in the order in which
they were found, and a keyword with a skeleton comes before the plain keyword with the same label.
What the command for completion prints is the context at its cursor with the candidates sorted in
this manner. -/
theorem complete_inTiers :
    (∀ (h : Host) (env : Environment) (text : List Char) (cursor : Position)
        (before? : Option (List Char)) (context : Context),
      (classify h env text cursor before?).outcome = .ok context →
      let printed := ordered context.candidates
      printed.Perm context.candidates ∧ InTiers printed ∧
      (∀ key, (printed.filter fun c => c.sortKey = key) =
        context.candidates.filter fun c => c.sortKey = key) ∧
      ∀ snippet ∈ [importKeyword, functionKeyword], ∀ plain ∈ keywords,
        snippet.label = plain.label → snippet ∈ printed → plain ∈ printed →
          (printed.filter fun c => c.sortKey = plain.sortKey) = [snippet, plain]) ∧
    ∀ (h : Host) (file : String) (line : Given Int) (column : Option (Given Int))
        (root : Given String) (answer : Json),
      ((Command.complete file line column root).run h).outcome = .ok answer ↔
        ∃ context, IsContextOf h file line column root context ∧
          answer = context.toJsonWith (ordered context.candidates) := by
  refine ⟨fun h env text cursor before? context hok => ?_,
    fun _ _ _ _ _ _ => run_complete_eq_ok_iff⟩
  rw [outcome_classify] at hok
  have hperm := ordered_perm context.candidates
  have hkeyed : ∀ c ∈ ordered context.candidates, c.Keyed := fun c hc =>
    keyed_of_contextAt hok c (hperm.mem_iff.mp hc)
  refine ⟨hperm, inTiers_of_keyed hkeyed (pairwise_ordered _), filter_ordered _, ?_⟩
  intro snippet hsnippet plain hplain hlabel hmem hother
  rw [filter_ordered]
  rw [hperm.mem_iff] at hmem hother
  obtain ⟨signatures, bindings, typed, hcandidates⟩ | hnone := candidates_cases hok
  · rw [hcandidates] at hmem ⊢
    exact filter_of_snippet hsnippet hplain hlabel hmem
  · exact absurd hplain (hnone plain hother).2

/-- A function, a variable and both keywords `import`, all of which go on from what is typed. -/
theorem complete_inTiers_letter :
    let host : Host := ⟨.empty, [], "", []⟩
    let text := "fn io(a) \x7b\x7d\nlet iz = 1;\ni".toList
    let plain : Candidate :=
      { label := "import", kind := .keyword, insertion := "import", detail := "Keyword",
        sortKey := "0import" }
    ∃ context, (classify host {} text ⟨2, 1⟩ none).outcome = .ok context ∧
      (context.candidates.take 3).map (·.label) = ["import", "io", "iz"] ∧
      InTiers (ordered context.candidates) ∧
      ((ordered context.candidates).filter fun c => c.sortKey = "0import") =
        [importKeyword, plain] := by
  intro host text plain
  have hcontext : ((classify host {} text ⟨2, 1⟩ none).outcome.toOption.map fun context =>
      ((context.candidates.take 3).map (·.label), decide (importKeyword ∈ context.candidates),
        decide (plain ∈ context.candidates))) = some (["import", "io", "iz"], true, true) := by
    decide +kernel
  obtain ⟨context, hcontext, hvalues⟩ := Option.map_eq_some_iff.mp hcontext
  simp only [Prod.mk.injEq, decide_eq_true_eq] at hvalues
  obtain ⟨hlabels, hsnippet, hplain⟩ := hvalues
  have hok := Report.outcome_eq_ok hcontext
  obtain ⟨hperm, htiers, -, hfirst⟩ := complete_inTiers.1 host {} text ⟨2, 1⟩ none context hok
  refine ⟨context, hok, hlabels, htiers, ?_⟩
  exact hfirst importKeyword (by simp) plain (by decide +kernel) rfl (hperm.mem_iff.mpr hsnippet)
    (hperm.mem_iff.mpr hplain)

end VeLens.Completion
