import VeLens.Proofs.Buffer.Blocks

/-!
# Asking for lines by number

What is found on a list of lines can also be found by asking for one line after the other by number.
A misplaced number may go unnoticed, since a negative one counts from the end. So the numbers are
recorded here, and a computation is shown to ask for lines of the buffer only and to come to what
the list of lines gives.

## Main definitions

* `Access`: a computation that asks for lines, with the numbers that it asks for.
* `Access.Yields`: it comes to a result and asks for lines of the buffer only.
* `Access.whileBelow`: a loop that has to move on.
* `Access.extentAt`: the end of a block, found by asking for lines.

## Main results

* `Access.Yields.bind`, `Access.Yields.each`, `Access.Yields.whileBelow_of_lt`: steps and loops.
* `Access.yields_extentAt`: the end of a block is found inside the buffer, at its head or below.
-/

namespace VeLens

/-- A computation that asks for lines of a buffer by number: the numbers in the order in which it
asks for them, and what it comes to. It comes to nothing if it asks for a line that does not exist
or if a loop does not move on. -/
structure Access (α : Type) where
  asked : List Int
  outcome : Option α

namespace Access

variable {α β : Type} {lines : List Line} {size : Nat}

instance : Monad Access where
  pure a := ⟨[], some a⟩
  bind x next :=
    match x.outcome with
    | none => ⟨x.asked, none⟩
    | some a => ⟨x.asked ++ (next a).asked, (next a).outcome⟩

/-- The line of the given number. A negative number counts from the end. -/
def line (lines : List Line) (k : Int) : Access Line :=
  ⟨[k], if 0 ≤ k then lines[k.toNat]? else lines.reverse[(-k - 1).toNat]?⟩

/-- The numbers from `first` on that are less than `stop`. -/
def upward (first stop : Int) : List Int :=
  (List.range (stop - first).toNat).map fun (n : Nat) => first + n

/-- The numbers from `first` down to zero. -/
def downward (first : Int) : List Int :=
  (List.range (first + 1).toNat).map fun (n : Nat) => first - n

/-- What is found at each of some numbers. -/
def each (ask : Int → Access (Option α)) : List Int → Access (List α)
  | [] => pure []
  | k :: ks => do
    let found ← ask k
    let rest ← each ask ks
    return found.toList ++ rest

/-- What is found at the first of some numbers at which there is something to be found. -/
def first (ask : Int → Access (Option α)) : List Int → Access (Option α)
  | [] => pure none
  | k :: ks => do
    match ← ask k with
    | some a => return some a
    | none => first ask ks

/-- What is found by going on from number to number while they are less than `size`. Each turn gives
the next number. A turn that does not move on ends the loop without a result. -/
def whileBelow (size : Int) (turn : Int → Access (Int × List α)) (k : Int) : Access (List α) :=
  if k < size then do
    let (next, found) ← turn k
    if k < next then
      let rest ← whileBelow size turn next
      return found ++ rest
    else ⟨[], none⟩
  else pure []
termination_by (size - k).toNat
decreasing_by omega

/-- The computation comes to `a`, and it asks only for lines of a buffer with `size` lines, counted
from the top. -/
structure Yields (size : Nat) (x : Access α) (a : α) : Prop where
  outcome_eq : x.outcome = some a
  inside : ∀ k ∈ x.asked, 0 ≤ k ∧ k < size

/-! ### Steps -/

namespace Yields

variable {x : Access α} {a : α}

theorem pure (a : α) : Yields size (Pure.pure a) a := ⟨rfl, fun _ hk => absurd hk List.not_mem_nil⟩

theorem bind {next : α → Access β} {b : β} (hx : Yields size x a)
    (hnext : Yields size (next a) b) : Yields size (x >>= next) b := by
  obtain ⟨asked, outcome⟩ := x
  obtain rfl : outcome = some a := hx.outcome_eq
  refine ⟨hnext.outcome_eq, fun k hk => ?_⟩
  rcases List.mem_append.mp hk with hk | hk
  · exact hx.inside k hk
  · exact hnext.inside k hk

theorem line {i : Nat} {text : Line} (h : lines[i]? = some text) :
    Yields lines.length (Access.line lines i) text := by
  obtain ⟨hi, -⟩ := List.getElem?_eq_some_iff.mp h
  refine ⟨?_, fun k hk => ?_⟩
  · rw [Access.line, if_pos (Int.natCast_nonneg i), Int.toNat_natCast, h]
  · obtain rfl := List.mem_singleton.mp hk
    omega

end Yields

/-! ### Loops -/

theorem upward_of_le {first stop : Int} (h : stop ≤ first) : upward first stop = [] := by
  rw [upward, Int.toNat_of_nonpos (by omega)]
  rfl

theorem upward_of_lt {first stop : Int} (h : first < stop) :
    upward first stop = first :: upward (first + 1) stop := by
  obtain ⟨n, hn⟩ : ∃ n, (stop - first).toNat = n + 1 := ⟨(stop - first).toNat - 1, by omega⟩
  have hrest : (stop - (first + 1)).toNat = n := by omega
  rw [upward, upward, hn, hrest, List.range_succ_eq_map, List.map_cons, List.map_map]
  congr 1
  · omega
  · refine List.map_congr_left fun k _ => ?_
    simp only [Function.comp_apply]
    omega

theorem downward_succ (n : Nat) :
    downward ((n + 1 : Nat) : Int) = ((n + 1 : Nat) : Int) :: downward n := by
  have hn : (((n + 1 : Nat) : Int) + 1).toNat = n + 1 + 1 := by omega
  have hrest : ((n : Int) + 1).toNat = n + 1 := by omega
  rw [downward, downward, hn, hrest, List.range_succ_eq_map (n := n + 1), List.map_cons,
    List.map_map]
  congr 1
  refine List.map_congr_left fun k _ => ?_
  simp only [Function.comp_apply]
  omega

theorem of_drop_eq_cons {i : Nat} {text : Line} {below : List Line}
    (h : lines.drop i = text :: below) : lines[i]? = some text ∧ lines.drop (i + 1) = below := by
  constructor
  · rw [← List.head?_drop, h, List.head?_cons]
  · rw [← List.tail_drop, h, List.tail_cons]

namespace Yields

/-- Lines in a row that are asked for one by one. -/
theorem each {ask : Int → Access (Option α)} {f : Line → Nat → Option α} {body : List Line}
    {i : Nat} {stop : Int} (hbody : body <+: lines.drop i) (hstop : (stop - i).toNat = body.length)
    (hask : ∀ {k : Nat} {text : Line}, lines[k]? = some text →
      Yields lines.length (ask k) (f text k)) :
    Yields lines.length (Access.each ask (upward i stop))
      ((body.zipIdx i).filterMap fun p => f p.1 p.2) := by
  induction body generalizing i with
  | nil =>
    rw [List.length_nil] at hstop
    rw [upward_of_le (by omega)]
    exact .pure []
  | cons text body ih =>
    obtain ⟨rest, hrest⟩ := hbody
    obtain ⟨htext, hbelow⟩ := of_drop_eq_cons hrest.symm
    rw [List.length_cons] at hstop
    have hrest := ih (i := i + 1) ⟨rest, hbelow.symm⟩ (by omega)
    rw [upward_of_lt (by omega), Access.each, List.zipIdx_cons, List.filterMap_cons]
    refine (hask htext).bind (hrest.bind ?_)
    dsimp only
    cases f text i with
    | none => exact .pure _
    | some a => exact .pure _

theorem first_cons {ask : Int → Access (Option α)} {k : Int} {ks : List Int}
    {found rest : Option α} (hask : Yields size (ask k) found)
    (hrest : Yields size (Access.first ask ks) rest) :
    Yields size (Access.first ask (k :: ks)) (found.or rest) := by
  refine hask.bind ?_
  cases found with
  | some a => exact .pure _
  | none => exact hrest

theorem whileBelow_of_lt {turn : Int → Access (Int × List α)} {k next : Int} {found rest : List α}
    (hk : k < size) (hmoves : k < next) (hturn : Yields size (turn k) (next, found))
    (hrest : Yields size (whileBelow size turn next) rest) :
    Yields size (whileBelow size turn k) (found ++ rest) := by
  rw [whileBelow, if_pos hk]
  refine hturn.bind ?_
  simp only [if_pos hmoves]
  exact hrest.bind (.pure _)

theorem whileBelow_of_le {turn : Int → Access (Int × List α)} {k : Int} (hk : size ≤ k) :
    Yields size (whileBelow size turn k) [] := by
  rw [whileBelow, if_neg (by omega)]
  exact .pure []

end Yields

/-! ### Blocks -/

/-- The closing brace of a block on lines of the given numbers that are reached at the given
depth. -/
def closeAmong (lines : List Line) : (depth : Int) → List Int → Access (Option Position)
  | _, [] => pure none
  | depth, k :: ks => do
    let text ← line lines k
    match Block.closeColumn? depth text with
    | some column => return some ⟨k, column⟩
    | none => closeAmong lines (depth + Block.turns text) ks

/-- The closing brace of the block whose head is on line `start`, or the start of that line. -/
def findEnd (lines : List Line) (start : Int) : Access Position := do
  let found ← closeAmong lines 0 (upward start lines.length)
  return found.getD ⟨start, 0⟩

/-- Where the block ends whose head is on line `start`. -/
def extentAt (lines : List Line) (start : Int) : Access Position := do
  let stop ← findEnd lines start
  if Block.isUnterminated stop start && !lines.isEmpty then
    let last ← line lines (lines.length - 1)
    return ⟨lines.length - 1, (last.length - 1 : Nat)⟩
  else return stop

theorem yields_closeAmong {i : Nat} {below : List Line} (hbelow : lines.drop i = below)
    (depth : Int) :
    Yields lines.length (closeAmong lines depth (upward i lines.length))
      ((Block.closeFrom? depth below).map (Block.placeBelow i)) := by
  induction below generalizing i depth with
  | nil =>
    have hi := List.drop_eq_nil_iff.mp hbelow
    rw [upward_of_le (by omega)]
    exact .pure none
  | cons text below ih =>
    obtain ⟨htext, hrest⟩ := of_drop_eq_cons hbelow
    obtain ⟨hi, -⟩ := List.getElem?_eq_some_iff.mp htext
    rw [upward_of_lt (by omega), closeAmong]
    refine (Yields.line htext).bind ?_
    cases hcolumn : Block.closeColumn? depth text with
    | some column =>
      have hplace : (⟨i, column⟩ : Position) = Block.placeBelow i (0, column) := by
        simp [Block.placeBelow]
      rw [Block.closeFrom?_cons_of_some hcolumn, Option.map_some, ← hplace]
      exact .pure _
    | none =>
      have hdown : Block.placeBelow (i + 1) =
          Block.placeBelow i ∘ fun p => (p.1 + 1, p.2) := by
        funext p
        simp only [Block.placeBelow, Function.comp_apply, Position.mk.injEq, and_true]
        omega
      rw [Block.closeFrom?_cons_of_none hcolumn, Option.map_map, ← hdown]
      exact ih hrest _

/-- The end of a block is found by asking for lines of the buffer only. -/
theorem yields_extentAt {i : Nat} (hi : i < lines.length) :
    Yields lines.length (extentAt lines i)
      (Block.placeBelow i (Block.extent (lines.drop i))) := by
  have hfound : Yields lines.length (findEnd lines i)
      (((Block.close? (lines.drop i)).map (Block.placeBelow i)).getD ⟨i, 0⟩) :=
    (yields_closeAmong rfl 0).bind (.pure _)
  refine hfound.bind ?_
  cases hclose : Block.close? (lines.drop i) with
  | some p =>
    rw [Block.extent_of_close? hclose, Option.map_some, Option.getD_some,
      Block.isUnterminated_of_close? hclose]
    exact .pure _
  | none =>
    have hopen : Block.isUnterminated ⟨i, 0⟩ i = true := by simp [Block.isUnterminated]
    have hlines : lines.isEmpty = false :=
      List.isEmpty_eq_false_iff.mpr (List.ne_nil_of_length_pos (Nat.zero_lt_of_lt hi))
    have hlast : lines[lines.length - 1]? = some (lines.getLastD []) := by
      rw [← List.getLast?_eq_getElem?, List.getLastD_eq_getLast?]
      cases hend : lines.getLast? with
      | none => simp [List.getLast?_eq_none_iff.mp hend] at hi
      | some last => rfl
    have hnumber : ((lines.length - 1 : Nat) : Int) = lines.length - 1 := by omega
    have hplace : Block.placeBelow i (Block.extent (lines.drop i)) =
        ⟨(lines.length : Int) - 1, ((lines.getLastD []).length - 1 : Nat)⟩ := by
      have hsame := Block.lastPlace_drop hi
      rw [Block.lastPlace, Prod.mk.injEq] at hsame
      rw [Block.extent, hclose, Option.getD_none, Block.placeBelow, ← hsame.2, Position.mk.injEq]
      exact ⟨by omega, rfl⟩
    rw [Option.map_none, Option.getD_none, hopen, hlines, hplace, ← hnumber]
    exact (Yields.line hlast).bind (.pure _)

end Access

end VeLens
