import VeLens.Proofs.Declaration.Imports
import VeLens.Query

/-!
# Line ends

Everything that is said about a text is said about its lines. So it makes no difference whether the
lines end in line feeds alone or in carriage returns and line feeds.

## Main definitions

* `Buffer.withReturns`: the text with a carriage return before each line feed.

## Main results

* `Buffer.lines_withReturns`: the lines of a text with other line ends.
* `signatures_eq_filterMap`: the signatures of a text, from its lines.
* `Completion.classify_congr`: the context at a cursor depends on the lines of a text only.
* `Query.answers_withReturns`: all answers are the same for a text with other line ends.
-/

namespace VeLens

open Buffer Declaration Text

namespace Buffer

/-- The text with a carriage return before each line feed. -/
def withReturns (text : List Char) : List Char :=
  text.flatMap fun c => if c = '\n' then ['\r', '\n'] else [c]

theorem withReturns_append (a b : List Char) :
    withReturns (a ++ b) = withReturns a ++ withReturns b := List.flatMap_append

theorem withReturns_of_not_mem {text : List Char} (hfeed : '\n' ∉ text) :
    withReturns text = text := by
  have hsame : ∀ c ∈ text, (if c = '\n' then ['\r', '\n'] else [c]) = [c] := by
    intro c hc
    rw [if_neg]
    rintro rfl
    exact hfeed hc
  rw [withReturns, List.flatMap_congr hsame, List.flatMap_singleton']

theorem lines_concat_return {line : Line} (hfeed : '\n' ∉ line) :
    lines (line ++ ['\r']) = [line] := by
  have hpieces : pieces '\n' (joined ['\n'] [line ++ ['\r']]) = [line ++ ['\r']] :=
    pieces_joined (by simp) (by simpa using hfeed)
  have hdrop : beforeEnd? ['\r'] (line ++ ['\r']) = some line := beforeEnd?_eq_some_iff.mpr rfl
  rw [joined] at hpieces
  rw [lines, hpieces, List.map_singleton, dropReturn, hdrop, Option.getD_some]

/-- Lines that are joined by carriage returns and line feeds are found again. -/
theorem lines_withReturns_joined {ls : List Line} (hne : ls ≠ []) (hfeed : ∀ l ∈ ls, '\n' ∉ l)
    (hreturn : ∀ l ∈ ls, '\r' ∉ l) : lines (withReturns (joined ['\n'] ls)) = ls := by
  induction ls with
  | nil => exact absurd rfl hne
  | cons line ls ih =>
    obtain ⟨hline, hrest⟩ := List.forall_mem_cons.mp hfeed
    by_cases hlast : ls = []
    · subst hlast
      rw [joined, withReturns_of_not_mem hline]
      exact lines_joined hne hfeed hreturn
    · have hreturn' := (List.forall_mem_cons.mp hreturn).2
      have hends : withReturns ['\n'] = ['\r', '\n'] := rfl
      rw [joined_cons hlast, withReturns_append, withReturns_append, withReturns_of_not_mem hline,
        hends]
      calc lines (line ++ ['\r', '\n'] ++ withReturns (joined ['\n'] ls))
          = lines ((line ++ ['\r']) ++ '\n' :: withReturns (joined ['\n'] ls)) := by simp
        _ = [line] ++ ls := by
          rw [lines_append_newline, lines_concat_return hline, ih hlast hrest hreturn']

/-- A carriage return before each line feed leaves the lines of a text as they are. -/
theorem lines_withReturns {text : List Char} (hreturn : '\r' ∉ text) :
    lines (withReturns text) = lines text := by
  have hne := pieces_ne_nil '\n' text
  have hfeed : ∀ l ∈ pieces '\n' text, '\n' ∉ l := fun l hl => not_mem_of_mem_pieces hl
  have hfree : ∀ l ∈ pieces '\n' text, '\r' ∉ l := by
    intro l hl hmem
    apply hreturn
    rw [← joined_pieces '\n' text]
    exact mem_joined hl hmem
  have hsame := lines_withReturns_joined hne hfeed hfree
  have hplain := lines_joined hne hfeed hfree
  rw [joined_pieces] at hsame hplain
  rw [hsame, hplain]

end Buffer

/-! ### Answers from lines -/

variable {text text' : List Char}

theorem signatures_eq_filterMap (text : List Char) :
    signatures text =
      ((lines text).filterMap fun line => functionHead? (trim line)).map Signature.ofHead := by
  rw [signatures, lines, List.filterMap_map]
  congr 1
  refine List.filterMap_congr fun line _ => ?_
  show functionHead? (trim line) = functionHead? (trim (dropReturn line))
  rw [trim_dropReturn]

namespace Completion

variable {h : Host} {env : Environment} {cursor : Position} {before? : Option (List Char)}

/-- The context at a cursor depends on the lines of a text only. -/
theorem classify_congr (hlines : lines text = lines text') :
    classify h env text cursor before? = classify h env text' cursor before? := by
  have hvisible : visibleFunctions h env text = visibleFunctions h env text' := by
    simp only [visibleFunctions, imports_eq_filterMap, signatures_eq_filterMap, hlines]
  simp only [classify, contextAt, nameContext, hlines, hvisible]

end Completion

/-- **Line ends.** In a text without carriage returns let each line feed be preceded by one. Then
the outline, the entry points, the names visible at a cursor, the signatures, the imports and the
context at a cursor stay what they are, with all positions and ranges in them. -/
theorem Query.answers_withReturns (text : List Char) (hreturn : '\r' ∉ text) :
    outline (withReturns text) = outline text ∧
      Outline.entryPoints (Outline.ofText (String.ofList (withReturns text))) =
        Outline.entryPoints (Outline.ofText (String.ofList text)) ∧
      (∀ cursor, scope (withReturns text) cursor = scope text cursor) ∧
      signatures (withReturns text) = signatures text ∧
      imports (withReturns text) = imports text ∧
      ∀ h env cursor before?, Completion.classify h env (withReturns text) cursor before? =
        Completion.classify h env text cursor before? := by
  have hlines := lines_withReturns hreturn
  refine ⟨?_, ?_, fun cursor => ?_, ?_, ?_, fun h env cursor before? => ?_⟩
  · simp only [outline, hlines]
  · simp only [Outline.ofText, String.toList_ofList, hlines]
  · simp only [scope, hlines]
  · rw [signatures_eq_filterMap, signatures_eq_filterMap, hlines]
  · rw [imports_eq_filterMap, imports_eq_filterMap, hlines]
  · exact Completion.classify_congr hlines

/-- A function and an unfinished import. The range of its candidates ends with the line. -/
theorem Query.answers_withReturns_import :
    let text := "fn main() \x7b\n\x7d\nimport \"std/m\n".toList
    let host : Host := ⟨.folder .nil, [], "", []⟩
    let typed := Completion.classify host {} (withReturns text) ⟨2, 13⟩ none
    withReturns text = "fn main() \x7b\r\n\x7d\r\nimport \"std/m\r\n".toList ∧
      Outline.entryPoints (Outline.ofText (String.ofList (withReturns text))) = [0] ∧
      signatures (withReturns text) = [⟨"main", "", []⟩] ∧
      typed.outcome.toOption.map (fun context => context.candidates.map (·.replaced)) =
        some [some ⟨⟨2, 0⟩, ⟨2, 13⟩⟩] := by
  intro text host typed
  obtain ⟨-, hentries, -, hsignatures, -, hcontext⟩ :=
    Query.answers_withReturns text (by decide +kernel)
  refine ⟨by decide +kernel, hentries.trans (by decide +kernel),
    hsignatures.trans (by decide +kernel), ?_⟩
  simp only [typed, hcontext]
  decide +kernel

end VeLens
