import VeLens.Declaration.Head
import VeLens.Proofs.Text.Blanks
import VeLens.Proofs.Text.Cuts

/-!
# Reading written heads

What the readers of heads and members find on a line that is put together from keywords, blanks,
names and marks. Each reader has a lemma that gives its answer on the text it is made for, with
whatever may follow that text.

## Main results

* `readFrom_of_classify`: the head on a line was found by the reader of its kind.
* `name?_append`, `named?_append`: names are read up to their end.
* `functionHead?_written`, `braced?_written`: heads with a block.
* `variableHead?_of_value`, `variableHead?_of_mark`: variables with and without a value.
* `field?_written`, `variant?_written`: members.
-/

namespace VeLens.Declaration

open Text

/-- The reader of its kind finds the head on the line. -/
def Head.ReadFrom (line : List Char) : Head → Prop
  | .function head => functionHead? line = some head
  | .struct name => structHead? line = some name
  | .enum name => enumHead? line = some name
  | .variable head => variableHead? line = some head
  | .loop name => loopHead? line = some name
  | .importing path => importHead? line = some path

theorem readFrom_of_classify {line : List Char} {head : Head} (h : classify line = some head) :
    head.ReadFrom line := by
  simp only [classify, Option.orElse_eq_orElse, Option.orElse_eq_or, Option.or_eq_some_iff,
    Option.map_eq_some_iff] at h
  rcases h with ⟨f, hf, rfl⟩ | ⟨-, ⟨f, hf, rfl⟩ | ⟨-, ⟨f, hf, rfl⟩ | ⟨-, ⟨f, hf, rfl⟩ |
    ⟨-, ⟨f, hf, rfl⟩ | ⟨-, f, hf, rfl⟩⟩⟩⟩⟩
  all_goals exact hf

/-! ### Names -/

theorem isNameChar_of_isNameStart {c : Char} (h : isNameStart c = true) : isNameChar c = true := by
  rw [isNameStart, Bool.or_eq_true] at h
  rw [isNameChar, Char.isAlphanum, Bool.or_eq_true, Bool.or_eq_true]
  rcases h with h | h
  · exact .inl (.inl h)
  · exact .inr h

theorem toNat_of_isNameChar {c : Char} (h : isNameChar c = true) :
    48 ≤ c.toNat ∧ c.toNat ≤ 122 := by
  change (((decide (c.val ≥ 'A'.val ∧ c.val ≤ 'Z'.val) ||
    (c.val ≥ 'a'.val && c.val ≤ 'z'.val)) || (c.val ≥ '0'.val && c.val ≤ '9'.val)) ||
      c == '_') = true at h
  simp only [Bool.or_eq_true, Bool.and_eq_true, decide_eq_true_eq, beq_iff_eq, ge_iff_le,
    UInt32.le_iff_toNat_le] at h
  rcases h with ((⟨h, h'⟩ | ⟨h, h'⟩) | ⟨h, h'⟩) | rfl
  · exact ⟨Nat.le_trans (by decide) h, Nat.le_trans h' (by decide)⟩
  · exact ⟨Nat.le_trans (by decide) h, Nat.le_trans h' (by decide)⟩
  · exact ⟨Nat.le_trans (by decide) h, Nat.le_trans h' (by decide)⟩
  · decide

theorem not_isBlank_of_isNameChar {c : Char} (h : isNameChar c = true) : isBlank c = false := by
  obtain ⟨hlo, hhi⟩ := toNat_of_isNameChar h
  simp only [isBlank, Bool.or_eq_false_iff, Bool.and_eq_false_iff, decide_eq_false_iff_not,
    beq_eq_false_iff_ne, ne_eq]
  omega

theorem isName_cons {c : Char} {s : List Char} :
    isName (c :: s) = true ↔ isNameStart c = true ∧ ∀ d ∈ s, isNameChar d = true := by
  rw [isName, Bool.and_eq_true, List.all_eq_true]

theorem isNameChar_of_mem {n : List Char} (hn : isName n = true) {c : Char} (hc : c ∈ n) :
    isNameChar c = true := by
  cases n with
  | nil => simp at hc
  | cons d n =>
    obtain ⟨hd, hn⟩ := isName_cons.mp hn
    rcases List.mem_cons.mp hc with rfl | hc
    · exact isNameChar_of_isNameStart hd
    · exact hn c hc

/-- Names hold none of the characters that names are not made of. -/
theorem not_mem_of_isName {n : List Char} (hn : isName n = true) {c : Char}
    (hc : isNameChar c = false) : c ∉ n := by
  intro hmem
  rw [isNameChar_of_mem hn hmem] at hc
  exact Bool.noConfusion hc

theorem trimLeft_name_append {n : List Char} (hn : isName n = true) (s : List Char) :
    trimLeft (n ++ s) = n ++ s := by
  cases n with
  | nil => simp [isName] at hn
  | cons c n =>
    exact trimLeft_cons_of_not_blank
      (not_isBlank_of_isNameChar (isNameChar_of_mem hn List.mem_cons_self))

/-- A text in which a name cannot go on. -/
def EndsName (s : List Char) : Prop := ∀ c ∈ s.head?, isNameChar c = false

theorem name?_append {n s : List Char} (hn : isName n = true) (hs : EndsName s) :
    name? (n ++ s) = some (n, s) := by
  cases n with
  | nil => simp [isName] at hn
  | cons c n =>
    obtain ⟨hc, hn⟩ := isName_cons.mp hn
    rw [List.cons_append, name?, if_pos hc, takeWhile_append_of_stop hn hs,
      dropWhile_append_of_stop hn hs]

theorem trimLeft_space (s : List Char) : trimLeft (' ' :: s) = trimLeft s := rfl

theorem afterBlanks?_space (s : List Char) : afterBlanks? (' ' :: s) = some (trimLeft s) := rfl

theorem afterBlanks?_append {b n : List Char} (hne : b ≠ []) (hb : allBlank b = true)
    (hn : isName n = true) (s : List Char) : afterBlanks? (b ++ (n ++ s)) = some (n ++ s) := by
  cases b with
  | nil => exact absurd rfl hne
  | cons c b =>
    rw [allBlank, List.all_cons, Bool.and_eq_true, ← allBlank] at hb
    rw [List.cons_append, afterBlanks?, if_pos hb.1, trimLeft_append_of_allBlank hb.2,
      trimLeft_name_append hn]

/-- A keyword, a space and a name are read up to the end of the name. -/
theorem named?_append (keyword : List Char) {n s : List Char} (hn : isName n = true)
    (hs : EndsName s) : named? keyword (keyword ++ ' ' :: (n ++ s)) = some (n, s) := by
  simp [named?, afterBlanks?_space, trimLeft_name_append hn, name?_append hn hs]

/-! ### Heads with a block -/

/-- The word that marks a function as exported, if it is. -/
def exportWord (isExported : Bool) : List Char :=
  if isExported then ['e', 'x', 'p', 'o', 'r', 't', ' '] else []

theorem exportMark_exportWord (isExported : Bool) (s : List Char) :
    exportMark (exportWord isExported ++ ('f' :: s)) = (isExported, 'f' :: s) := by
  cases isExported <;> rfl

/-- The parameters of a function are the text up to the first closing parenthesis. -/
theorem functionHead?_written (isExported : Bool) {n p : List Char} (hn : isName n = true)
    (hp : ')' ∉ p) (s : List Char) :
    functionHead? (exportWord isExported ++ ('f' :: 'n' :: ' ' :: (n ++ '(' :: (p ++ ')' :: s)))) =
      some ⟨String.ofList n, String.ofList (trim p), isExported⟩ := by
  have hname := named?_append ['f', 'n'] hn
    (s := '(' :: (p ++ ')' :: s)) (by simp [EndsName, isNameChar])
  have hparams : (p ++ ')' :: s).takeWhile (· != ')') = p := by
    apply takeWhile_append_of_stop
    · intro c hc
      simpa using fun h : c = ')' => hp (h ▸ hc)
    · simp
  rw [functionHead?, exportMark_exportWord]
  dsimp only [List.cons_append, List.nil_append] at hname
  simp [hname, trimLeft, isBlank, hparams]

theorem braced?_written (keyword : List Char) {n : List Char} (hn : isName n = true)
    (s : List Char) : braced? keyword (keyword ++ ' ' :: (n ++ ' ' :: '{' :: s)) =
      some (String.ofList n) := by
  have hname := named?_append keyword hn (s := ' ' :: '{' :: s) (by simp [EndsName, isNameChar])
  simp [braced?, hname, trimLeft, isBlank]

/-! ### Variables -/

def variableWord (isForeign : Bool) : List Char :=
  if isForeign then ['v', 'a', 'r'] else ['l', 'e', 't']

theorem variableKeyword?_variableWord (isForeign : Bool) (s : List Char) :
    variableKeyword? (variableWord isForeign ++ s) = some (isForeign, s) := by
  cases isForeign <;> rfl

theorem isTypeChar_of_isBlank {c : Char} (hc : isBlank c = true) : isTypeChar c = true := by
  rw [isTypeChar, Bool.and_eq_true, bne_iff_ne, bne_iff_ne]
  constructor
  · rintro rfl
    exact absurd hc (by decide)
  · rintro rfl
    exact absurd hc (by decide)

theorem writtenType_of_colon {s rest : List Char} (h : trimLeft s = ':' :: rest) :
    writtenType s = (some (trim (rest.takeWhile isTypeChar)), rest.dropWhile isTypeChar) := by
  rw [writtenType, h]
  rfl

/-- A type stands between a colon and the first mark that no type holds, blanks left out. -/
theorem writtenType_colon (b a b' rest : List Char) (hb : allBlank b = true)
    (hb' : allBlank b' = true) (ha : ∀ c ∈ a, isTypeChar c = true)
    (hrest : ∀ c ∈ rest.head?, isTypeChar c = false) :
    writtenType (':' :: (b ++ a ++ b' ++ rest)) = (some (trim a), rest) := by
  have htype : ∀ c ∈ b ++ a ++ b', isTypeChar c = true := by
    intro c hc
    rcases List.mem_append.mp hc with hc | hc
    · rcases List.mem_append.mp hc with hc | hc
      · exact isTypeChar_of_isBlank (allBlank_iff.mp hb c hc)
      · exact ha c hc
    · exact isTypeChar_of_isBlank (allBlank_iff.mp hb' c hc)
  rw [writtenType_of_colon (trimLeft_cons_of_not_blank (by decide)),
    takeWhile_append_of_stop htype hrest, dropWhile_append_of_stop htype hrest,
    trim_append_blanks hb hb']

theorem writtenType_of_ne_colon {s : List Char} (hs : ∀ c ∈ (trimLeft s).head?, c ≠ ':') :
    writtenType s = (none, trimLeft s) := by
  rw [writtenType]
  split
  · next rest hrest =>
    rw [hrest] at hs
    exact absurd rfl (hs ':' rfl)
  · rfl

theorem writtenType_blanks_append {b : List Char} (hb : allBlank b = true) (s : List Char) :
    writtenType (b ++ s) = writtenType s := by
  rw [writtenType, writtenType, trimLeft_append_of_allBlank hb]

/-- The characters with which the rest behind a type begins. -/
theorem mark_of_not_isTypeChar {c : Char} (hc : isTypeChar c = false) : c = '=' ∨ c = ';' := by
  rw [isTypeChar, Bool.and_eq_false_iff, bne_eq_false_iff_eq, bne_eq_false_iff_eq] at hc
  exact hc

theorem trimLeft_of_mark {s : List Char} (hs : ∀ c ∈ s.head?, isTypeChar c = false) :
    trimLeft s = s := by
  apply trimLeft_eq_self
  intro c hc
  rcases mark_of_not_isTypeChar (hs c hc) with rfl | rfl <;> decide

theorem writtenType_of_mark {s : List Char} (hs : ∀ c ∈ s.head?, isTypeChar c = false) :
    writtenType s = (none, s) := by
  have htrim := trimLeft_of_mark hs
  rw [writtenType_of_ne_colon, htrim]
  -- Neither of the marks behind a type is a colon.
  rw [htrim]
  rintro c hc rfl
  exact Bool.noConfusion (hs ':' hc)

/-- A value without blanks at its ends is read up to the semicolon that ends the line. -/
theorem value?_semicolon (b v b' : List Char) (hb : allBlank b = true) (hb' : allBlank b' = true)
    (hne : v ≠ []) (hv : trim v = v) (hline : '\n' ∉ v) :
    value? (b ++ v ++ b' ++ [';']) = some v := by
  have hblank : allBlank (b ++ v ++ b' ++ [';']) = false := by simp [allBlank, isBlank]
  have hbody : allBlank (v ++ b') = false := by
    rw [allBlank, List.all_append, ← allBlank, allBlank_eq_false_of_trim hv hne, Bool.false_and]
  have htrim : trim (b ++ v ++ b' ++ [';']) = v ++ b' ++ [';'] := by
    have hsame : b ++ v ++ b' ++ [';'] = b ++ (v ++ b' ++ [';']) ++ [] := by simp
    rw [hsame, trim_append_blanks hb rfl]
    apply trim_eq_self
    · intro c hc
      rw [List.append_assoc, List.head?_append_of_ne_nil _ hne] at hc
      exact not_isBlank_head_of_trim hv c hc
    · intro c hc
      rw [List.getLast?_concat, Option.mem_def, Option.some_inj] at hc
      rw [← hc]
      decide
  have hstatement : statement (v ++ b' ++ [';']) = v := by
    rw [statement, beforeEnd?_eq_some_iff.mpr rfl]
    dsimp only
    rw [hbody, if_neg Bool.false_ne_true, trimRight_append_of_allBlank hb',
      trimRight_eq_self_of_trim hv]
  rw [value?, hblank, if_neg Bool.false_ne_true, htrim, hstatement]
  simp [hline]

/-- The semicolon at the end of a line, if there is one. -/
def endWord (isClosed : Bool) : List Char := if isClosed then [';'] else []

section

variable {b n s : List Char} {type : Option (List Char)} {rest : List Char}
  (isForeign : Bool) (hne : b ≠ []) (hb : allBlank b = true) (hn : isName n = true)
  (hs : EndsName s) (htype : writtenType s = (type, rest))

include hne hb hn hs htype

theorem variableHead?_of_value {text value : List Char} (hrest : trimLeft rest = '=' :: text)
    (hvalue : value? text = some value) :
    variableHead? (variableWord isForeign ++ (b ++ (n ++ s))) =
      some ⟨isForeign, String.ofList n, type.map String.ofList, some (String.ofList value)⟩ := by
  simp [variableHead?, variableKeyword?_variableWord, afterBlanks?_append hne hb hn,
    name?_append hn hs, htype, hrest, hvalue]

theorem variableHead?_of_mark (isClosed : Bool) (hrest : trimLeft rest = endWord isClosed)
    (hends : isClosed = true ∨ type.isSome = true) :
    variableHead? (variableWord isForeign ++ (b ++ (n ++ s))) =
      some ⟨isForeign, String.ofList n, type.map String.ofList, none⟩ := by
  cases isClosed with
  | true =>
    simp [variableHead?, variableKeyword?_variableWord, afterBlanks?_append hne hb hn,
      name?_append hn hs, htype, hrest, endWord, endMark?, allBlank]
  | false =>
    have hsome : type.isSome = true := hends.resolve_left Bool.false_ne_true
    simp [variableHead?, variableKeyword?_variableWord, afterBlanks?_append hne hb hn,
      name?_append hn hs, htype, hrest, endWord, endMark?, hsome]

end

/-! ### Members -/

theorem field?_written {n t : List Char} (hn : isName n = true) (ht : isName t = true) :
    field? (n ++ ':' :: ' ' :: t) = some ⟨String.ofList n, String.ofList t⟩ := by
  have hname : name? (n ++ ':' :: ' ' :: t) = some (n, ':' :: ' ' :: t) :=
    name?_append hn (by simp [EndsName, isNameChar])
  have htype : name? t = some (t, []) := by
    simpa using name?_append ht (s := []) (by simp [EndsName])
  have htrim : trimLeft (' ' :: t) = t := by
    simpa [trimLeft_space] using trimLeft_name_append ht []
  simp [field?, hname, htype, htrim,
    trimLeft_cons_of_not_blank (show isBlank ':' = false by decide)]

theorem variant?_written {c : Char} {n : List Char} (hc : c.isUpper = true)
    (hn : ∀ d ∈ n, isNameChar d = true) : variant? (c :: n) = some (String.ofList (c :: n)) := by
  rw [variant?, if_pos hc, ← List.append_nil n, takeWhile_append_of_stop hn (by simp),
    List.append_nil]

end VeLens.Declaration
