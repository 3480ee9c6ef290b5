import VeLens.Proofs.Catalog.StandardModules
import VeLens.Proofs.Text.Blanks
import VeLens.Proofs.Text.Portions

/-!
# Descriptions of standard modules

A standard module is described by a comment among the first five lines of its file. A mark with
nothing after it is no comment. A mark with a single character after it is passed over as well, so
a module that begins with it takes its description from the next comment, or has none of its own.

## Main definitions

* `IsComment`: a line is a comment of more than so many characters.
* `firstComment?`, `describedAs`: the first such comment of a file, and the description by it.

## Main results

* `description_of_text`: modules are described by comments of more than three characters.
* `describedAs_eq_iff`: when the comments of three characters make no difference.
* `standardModules_describedAs`: the same for each module of a library.
-/

namespace VeLens.Catalog

open Text

variable {n m : Nat} {line : List Char} {lines : List (List Char)}

/-- Without the blanks around it, the line begins with the mark of a comment and is longer than `n`
characters. -/
def IsComment (n : Nat) (line : List Char) : Prop :=
  ['/', '/'] <+: trim line ∧ n < (trim line).length

instance (n : Nat) : DecidablePred (IsComment n) := fun _ => inferInstanceAs (Decidable (_ ∧ _))

/-- What a comment says: the text after the mark, without blanks around it. -/
def remark (line : List Char) : List Char := trim ((trim line).drop 2)

/-- The first comment of more than `n` characters among the first five lines. -/
def firstComment? (n : Nat) (lines : List (List Char)) : Option (List Char) :=
  (lines.take 5).find? fun line => IsComment n line

/-- The description of a module by the first comment of more than `n` characters. A module without
such a comment is described by its name. -/
def describedAs (n : Nat) (stem : String) (lines : List (List Char)) : String :=
  match firstComment? n lines with
  | some line => String.ofList (remark line)
  | none => stem ++ " module"

/-! ### Descriptions that are read -/

theorem comment?_eq_guard (line : List Char) :
    comment? line = (Option.guard (fun line => IsComment 3 line) line).map remark := by
  rw [comment?]
  cases hrest : after? ['/', '/'] (trim line) with
  | none =>
    have hmark : ¬ ['/', '/'] <+: trim line := by
      rintro ⟨rest, htrim⟩
      rw [after?_eq_some_iff.mpr htrim.symm] at hrest
      exact Option.some_ne_none _ hrest
    simp [Option.guard, IsComment, hmark]
  | some rest =>
    have htrim := after?_eq_some_iff.mp hrest
    have hmark : ['/', '/'] <+: trim line := ⟨rest, htrim.symm⟩
    have hremark : remark line = trim rest := by
      rw [remark, htrim]
      rfl
    by_cases hlong : 3 < (trim line).length
    · simp [Option.guard, IsComment, hmark, hlong, hremark]
    · simp [Option.guard, IsComment, hlong]

theorem describe?_eq_map (lines : List (List Char)) :
    describe? lines = (firstComment? 3 lines).map remark := by
  have hcomment : comment? = Option.map remark ∘ Option.guard fun line => IsComment 3 line :=
    funext comment?_eq_guard
  rw [describe?, descriptionLines, hcomment, ← List.map_findSome?, List.findSome?_guard,
    firstComment?]

/-- A module whose file is a text is described by its first comment of more than three
characters. -/
theorem description_of_text {content : List UInt8} {s : List Char} (path : Path) (stem : String)
    (h : File.text content = .ok s) :
    description path stem content = pure (describedAs 3 stem (File.allLines s)) := by
  rw [description, File.lines_of_text h]
  dsimp only
  rw [describe?_eq_map, describedAs]
  cases firstComment? 3 (File.allLines s) <;> rfl

/-! ### Comments of different lengths -/

theorem IsComment.mono (hnm : n ≤ m) (h : IsComment m line) : IsComment n line :=
  ⟨h.1, Nat.lt_of_le_of_lt hnm h.2⟩

theorem isComment_of_firstComment? (h : firstComment? n lines = some line) : IsComment n line := by
  simpa using List.find?_some h

theorem firstComment?_eq_none_mono (hnm : n ≤ m) (h : firstComment? n lines = none) :
    firstComment? m lines = none := by
  rw [firstComment?, List.find?_eq_none] at h ⊢
  intro line hline hm
  exact h line hline (by simpa using (of_decide_eq_true hm).mono hnm)

/-- The first comment is still the first one if shorter comments do not count. -/
theorem firstComment?_mono (hnm : n ≤ m) (h : firstComment? n lines = some line)
    (hlong : m < (trim line).length) : firstComment? m lines = some line := by
  have hcomment := isComment_of_firstComment? h
  obtain ⟨-, before, after, hsplit, hbefore⟩ := List.find?_eq_some_iff_append.mp h
  refine List.find?_eq_some_iff_append.mpr
    ⟨decide_eq_true ⟨hcomment.1, hlong⟩, before, after, hsplit, fun other hother => ?_⟩
  have hnot : ¬ IsComment n other := by simpa using hbefore other hother
  simpa using mt (IsComment.mono hnm) hnot

theorem length_remark_le (line : List Char) : (remark line).length ≤ (trim line).length - 2 := by
  rw [remark, ← List.length_drop]
  exact length_trim_le _

/-- A description by name is longer than what a comment of three characters says. -/
theorem stem_ne_remark (stem : String) (hshort : (trim line).length = 3) :
    stem ++ " module" ≠ String.ofList (remark line) := by
  intro heq
  have hremark := length_remark_le line
  have hlength := congrArg String.length heq
  have hmodule : " module".length = 7 := by decide
  simp only [String.length_append, String.length_ofList, hmodule] at hlength
  omega

/-- Whether comments of three characters count makes a difference exactly if the first comment is
one of them and the first longer comment does not say the same. -/
theorem describedAs_eq_iff (stem : String) (lines : List (List Char)) :
    describedAs 3 stem lines = describedAs 2 stem lines ↔
      ∀ line ∈ firstComment? 2 lines, (trim line).length = 3 →
        ∃ longer ∈ firstComment? 3 lines, remark longer = remark line := by
  cases hfirst : firstComment? 2 lines with
  | none =>
    have hnone := firstComment?_eq_none_mono (Nat.le_succ 2) hfirst
    simp [describedAs, hfirst, hnone]
  | some line =>
    obtain ⟨-, hmark⟩ := isComment_of_firstComment? hfirst
    by_cases hshort : (trim line).length = 3
    · cases hlonger : firstComment? 3 lines with
      | none => simp [describedAs, hfirst, hlonger, hshort, stem_ne_remark stem hshort]
      | some longer => simp [describedAs, hfirst, hlonger, hshort, String.ofList_inj]
    · -- The first comment is long enough either way.
      have hlong : 3 < (trim line).length := by omega
      have hsame := firstComment?_mono (Nat.le_succ 2) hfirst hlong
      simp [describedAs, hfirst, hsame, hshort]

/-! ### Descriptions in a library -/

theorem standardModule_of_text {folder : Path} {suffix name : String} {content : List UInt8}
    {s : List Char} {m : Module} (h : File.text content = .ok s)
    (hok : (standardModule folder suffix name content).outcome = .ok m) :
    m.description = describedAs 3
      (String.ofList (ModuleName.dropEnd suffix.length name.toList)) (File.allLines s) := by
  obtain ⟨text, htext, hm⟩ := Report.outcome_bind_eq_ok_iff.mp hok
  rw [description_of_text _ _ h, Report.outcome_pure] at htext
  obtain rfl := Except.ok.inj htext
  obtain rfl := Except.ok.inj hm
  rfl

/-- **Descriptions by comments.** A library that can be read has a list of modules, one for each
source file. If the file is a text, the module is described by the first comment of more than three
characters among its first five lines, and by its name if there is none. The first comment that is
longer than its mark describes the module in the same way, unless it has three characters and the
first longer comment does not say the same. -/
theorem standardModules_describedAs (h : Host) (folder : Path) (suffix : String)
    (entries : Entries) (hread : IsReadableLibrary h folder entries) :
    ∃ modules, (standardModules h (some folder) suffix).outcome = .ok modules ∧
      List.Forall₂
        (fun name m => ∃ stem content,
          m.name = "std/" ++ stem ∧ (suffix ≠ "" → stem ++ suffix = name) ∧
          h.content (folder.below name) = .ok content ∧
          ∀ s, File.text content = .ok s →
            m.description = describedAs 3 stem (File.allLines s) ∧
            (m.description = describedAs 2 stem (File.allLines s) ↔
              ∀ line ∈ firstComment? 2 (File.allLines s), (trim line).length = 3 →
                ∃ longer ∈ firstComment? 3 (File.allLines s), remark longer = remark line))
        (sourceNames h folder suffix entries) modules := by
  obtain ⟨modules, hmodules, heach⟩ := exists_modules_of_isReadable hread suffix
  refine ⟨modules, hmodules, heach.imp ?_⟩
  rintro name m ⟨hends, content, hcontent, hmade⟩
  refine ⟨String.ofList (ModuleName.dropEnd suffix.length name.toList), content, ?_,
    fun hsuffix => ?_, hcontent, fun s hs => ?_⟩
  · rw [name_of_standardModule hmade, ← String.toList_inj, String.toList_append]
    simp [ModuleName.standardMark]
  · rw [← String.toList_inj, String.toList_append, String.toList_ofList, ← String.length_toList,
      ModuleName.dropEnd_append (mt String.toList_eq_nil_iff.mp hsuffix) hends]
  · have hdescription := standardModule_of_text hs hmade
    refine ⟨hdescription, ?_⟩
    rw [hdescription]
    exact describedAs_eq_iff _ _

/-- A short comment, a bare mark and a longer comment that says the same, on lines with ends of
three kinds. -/
theorem standardModules_describedAs_repeated :
    let content := "//x\r\n//\r\t//  x \n".toUTF8.toList
    let lines := ["//x".toList, "//".toList, "\t//  x ".toList]
    let library : Entries := .cons "a.ve" (.file content) .nil
    let host : Host := ⟨.folder (.cons "lib" (.folder library) .nil), [], "", []⟩
    IsReadableLibrary host ⟨.top, ["lib"]⟩ library ∧
      firstComment? 2 lines = some "//x".toList ∧
      firstComment? 3 lines = some "\t//  x ".toList ∧
      ∃ m, (standardModules host (some ⟨.top, ["lib"]⟩) ".ve").outcome = .ok [m] ∧
        m.description = describedAs 2 "a" lines := by
  intro content lines library host
  have hread : IsReadableLibrary host ⟨.top, ["lib"]⟩ library := by
    refine ⟨rfl, fun entry hentry => ⟨true, ?_⟩⟩
    obtain rfl := List.mem_singleton.mp hentry
    decide +kernel
  have hshort : firstComment? 2 lines = some "//x".toList := by decide +kernel
  have hlong : firstComment? 3 lines = some "\t//  x ".toList := by decide +kernel
  have hnames : sourceNames host ⟨.top, ["lib"]⟩ ".ve" library = ["a.ve"] := by decide +kernel
  refine ⟨hread, hshort, hlong, ?_⟩
  obtain ⟨modules, hmodules, heach⟩ := standardModules_describedAs host _ ".ve" library hread
  rw [hnames, List.forall₂_cons_left_iff] at heach
  obtain ⟨m, _, ⟨stem, content', -, hstem, hcontent, hdescribed⟩, hnone, rfl⟩ := heach
  obtain rfl := List.forall₂_nil_left_iff.mp hnone
  obtain rfl : stem = "a" := (String.append_left_inj ".ve").mp (hstem (by decide))
  obtain rfl : content = content' := Except.ok.inj (Eq.trans (by decide +kernel) hcontent)
  have htext : File.text content = .ok "//x\n//\n\t//  x \n".toList := by decide +kernel
  have hlines : File.allLines "//x\n//\n\t//  x \n".toList = lines := by decide +kernel
  obtain ⟨-, hagrees⟩ := hdescribed _ htext
  rw [hlines, hshort, hlong] at hagrees
  refine ⟨m, hmodules, hagrees.mpr fun line hline _ => ⟨_, rfl, ?_⟩⟩
  obtain rfl := Option.some_inj.mp hline
  decide +kernel

/-- A comment that is longer than its mark, by one character, and does not describe its module. -/
theorem describedAs_shortest_comment :
    let host : Host :=
      ⟨.folder (.cons "lib" (.folder (.cons "a.ve" (.file "//x".toUTF8.toList) .nil)) .nil), [], "",
        []⟩
    File.text "//x".toUTF8.toList = .ok "//x".toList ∧
      describedAs 2 "a" (File.allLines "//x".toList) = "x" ∧
      (standardModules host (some ⟨.top, ["lib"]⟩) ".ve").outcome =
        .ok [⟨"std/a", "a module"⟩] := by
  decide +kernel

end VeLens.Catalog
