import VeLens.Event
import VeLens.Fault

/-!
# Reports

A report is the outcome of a question that may meet faults, together with the events on the way, in
order. Events that came before a fault are kept.
-/

namespace VeLens

/-- An outcome and the events that led to it. -/
structure Report (α : Type) where
  events : List Event
  outcome : Except Fault α

namespace Report

/-- An outcome without events. -/
def of {α : Type} (outcome : Except Fault α) : Report α := ⟨[], outcome⟩

/-- An event by itself. -/
def log (event : Event) : Report Unit := ⟨[event], .ok ()⟩

/-- Several events by themselves. -/
def logAll (events : List Event) : Report Unit := ⟨events, .ok ()⟩

/-- One question after another. A fault in the first leaves the second unasked. -/
def andThen {α β : Type} (r : Report α) (next : α → Report β) : Report β :=
  match r.outcome with
  | .ok a => ⟨r.events ++ (next a).events, (next a).outcome⟩
  | .error fault => ⟨r.events, .error fault⟩

instance : Monad Report where
  pure a := ⟨[], .ok a⟩
  bind := andThen

/-- The answer to each question in turn, up to the first fault. -/
def each {α β : Type} (ask : α → Report β) : List α → Report (List β)
  | [] => pure []
  | a :: rest => do
    let b ← ask a
    let bs ← each ask rest
    return b :: bs

theorem of_ok_bind {α β : Type} (a : α) (next : α → Report β) :
    (of (.ok a) >>= next) = next a := rfl

theorem outcome_pure {α : Type} (a : α) : (pure a : Report α).outcome = .ok a := rfl

/-- A question that is asked after another one has an answer exactly if both have one. -/
theorem outcome_bind_eq_ok_iff {α β : Type} {r : Report α} {next : α → Report β} {b : β} :
    (r >>= next).outcome = .ok b ↔ ∃ a, r.outcome = .ok a ∧ (next a).outcome = .ok b := by
  change (r.andThen next).outcome = .ok b ↔ _
  cases h : r.outcome with
  | ok a => simp [andThen, h]
  | error fault => simp [andThen, h]

theorem outcome_eq_ok {α : Type} {r : Report α} {a : α} (h : r.outcome.toOption = some a) :
    r.outcome = .ok a := by
  cases hr : r.outcome with
  | ok b => simpa [hr, Except.toOption] using h
  | error fault => simp [hr, Except.toOption] at h

end Report

end VeLens
