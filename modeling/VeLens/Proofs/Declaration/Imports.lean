import VeLens.Proofs.Buffer.Lines
import VeLens.Proofs.Declaration.Heads
import VeLens.Signature

/-!
# Imports of a text

Imports are read line by line, whatever the lines end in. So the imports of a text are those of its
lines, one after the other, and a written import is read back with its path.

## Main definitions

* `importOn?`: the path that a line of a buffer imports.

## Main results

* `imports_eq_filterMap`, `imports_joined`: the imports of a text, from its lines.
* `importOn?_written`: a written import is read back.
-/

namespace VeLens

open Buffer Declaration Text

/-- The path that a line of a buffer imports. -/
def importOn? (line : Line) : Option String := importHead? (trim line)

theorem imports_eq_filterMap (text : List Char) :
    imports text = (lines text).filterMap importOn? := by
  rw [lines, List.filterMap_map]
  refine List.filterMap_congr fun line _ => ?_
  show importHead? (trim line) = importHead? (trim (dropReturn line))
  rw [trim_dropReturn]

/-- The imports of lines that are joined to a text. -/
theorem imports_joined {ls : List Line} (hfeed : ∀ l ∈ ls, '\n' ∉ l) :
    imports (joined ['\n'] ls) = ls.filterMap importOn? := by
  by_cases hne : ls = []
  · subst hne
    decide
  · rw [imports, pieces_joined hne hfeed]
    rfl

theorem importHead?_written {path : List Char} (hne : path ≠ []) (hquote : '"' ∉ path) :
    importHead? ("import".toList ++ ' ' :: '"' :: (path ++ ['"', ';'])) =
      some (String.ofList path) := by
  have hread : ∀ c ∈ path, (c != '"') = true := by
    intro c hc
    rw [bne_iff_ne]
    rintro rfl
    exact hquote hc
  have hpath : (path ++ ['"', ';']).takeWhile (· != '"') = path :=
    takeWhile_append_of_stop hread (by simp)
  have hrest : (path ++ ['"', ';']).dropWhile (· != '"') = ['"', ';'] :=
    dropWhile_append_of_stop hread (by simp)
  have hword : after? ['i', 'm', 'p', 'o', 'r', 't']
      ("import".toList ++ ' ' :: '"' :: (path ++ ['"', ';'])) =
        some (' ' :: '"' :: (path ++ ['"', ';'])) := after?_eq_some_iff.mpr rfl
  have hblank : afterBlanks? (' ' :: '"' :: (path ++ ['"', ';'])) =
      some ('"' :: (path ++ ['"', ';'])) := by
    rw [afterBlanks?, if_pos (by decide), trimLeft_cons_of_not_blank (by decide)]
  simp only [importHead?, hword, hblank, Option.bind_eq_bind, Option.bind_some, after?, if_true,
    hpath, hrest]
  exact if_pos ⟨hne, rfl⟩

/-- A line with a written import is read back with its path, which may hold anything but quotation
marks. -/
theorem importOn?_written {path : List Char} (hne : path ≠ []) (hquote : '"' ∉ path) :
    importOn? ("import \"".toList ++ path ++ "\";".toList) = some (String.ofList path) := by
  have htrim : trim ("import \"".toList ++ path ++ "\";".toList) =
      "import".toList ++ ' ' :: '"' :: (path ++ ['"', ';']) := by
    have hlast : "import \"".toList ++ path ++ "\";".toList =
        "import".toList ++ ' ' :: '"' :: (path ++ ['"']) ++ [';'] := by simp
    have hfirst : ∀ c ∈ "import".toList.head?, isBlank c = false := by
      intro c hc
      obtain rfl : 'i' = c := Option.some_inj.mp hc
      decide
    rw [hlast, trim_concat (by decide) hfirst (by decide)]
    simp
  rw [importOn?, htrim]
  exact importHead?_written hne hquote

end VeLens
