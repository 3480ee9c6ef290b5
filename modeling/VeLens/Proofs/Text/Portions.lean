import VeLens.Text.File

/-!
# Reading in portions

A file that is read line by line is decoded in portions, and each portion counts its places anew.
This changes what a fault says about its place, but not whether there is one, and without a fault
the characters are those of the whole text.

## Main definitions

* `Utf8.Decoder.Agrees`: two decodings that differ in nothing but places.

## Main results

* `File.lines_of_text`, `File.fault_of_text`: the lines of a file that is a text, and of one that is
  not.
-/

namespace VeLens.Text

namespace Utf8.Decoder

variable {d e : Decoder}

/-- Two decodings have read the same characters and stand in the same sequence, and both or none
have met a fault. -/
structure Agrees (d e : Decoder) : Prop where
  read : d.read = e.read
  pending : d.pending = e.pending
  fault : d.fault = none ↔ e.fault = none

theorem Agrees.refl (d : Decoder) : d.Agrees d := ⟨rfl, rfl, Iff.rfl⟩

theorem agrees_recount (d : Decoder) : d.recount.Agrees d := ⟨rfl, rfl, Iff.rfl⟩

theorem Agrees.trans {f : Decoder} (h : d.Agrees e) (h' : e.Agrees f) : d.Agrees f :=
  ⟨h.read.trans h'.read, h.pending.trans h'.pending, h.fault.trans h'.fault⟩

theorem Agrees.step (h : d.Agrees e) (b : UInt8) : (d.step b).Agrees (e.step b) := by
  obtain ⟨read, place, pending, fault⟩ := d
  obtain ⟨read', place', pending', fault'⟩ := e
  obtain ⟨rfl, rfl, hfault⟩ := h
  cases fault with
  | some fault =>
    cases fault' with
    | some fault' => exact ⟨rfl, rfl, hfault⟩
    | none => simp at hfault
  | none =>
    obtain rfl : fault' = none := hfault.mp rfl
    cases pending with
    | none =>
      simp only [Decoder.step, Option.isSome_none, Bool.false_eq_true, if_false]
      split
      · exact ⟨rfl, rfl, Iff.rfl⟩
      · cases lead? b with
        | some p => exact ⟨rfl, rfl, Iff.rfl⟩
        | none => exact ⟨rfl, rfl, by simp⟩
    | some p =>
      simp only [Decoder.step, Option.isSome_none, Bool.false_eq_true, if_false]
      split
      · split
        · exact ⟨rfl, rfl, Iff.rfl⟩
        · exact ⟨rfl, rfl, Iff.rfl⟩
      · exact ⟨rfl, rfl, by simp⟩

theorem Agrees.feed (h : d.Agrees e) (bytes : List UInt8) :
    (d.feed bytes).Agrees (e.feed bytes) := by
  induction bytes generalizing d e with
  | nil => exact h
  | cons b bytes ih => exact ih (h.step b)

theorem Agrees.finish (h : d.Agrees e) : d.finish.Agrees e.finish := by
  obtain ⟨read, place, pending, fault⟩ := d
  obtain ⟨read', place', pending', fault'⟩ := e
  obtain ⟨rfl, rfl, hfault⟩ := h
  cases fault with
  | some fault =>
    cases fault' with
    | some fault' => exact ⟨rfl, rfl, hfault⟩
    | none => simp at hfault
  | none =>
    obtain rfl : fault' = none := hfault.mp rfl
    cases pending with
    | none => exact ⟨rfl, rfl, Iff.rfl⟩
    | some p => exact ⟨rfl, rfl, by simp [Decoder.finish]⟩

theorem chars_finish (d : Decoder) : d.finish.chars = d.chars := by
  rw [finish]
  split <;> rfl

theorem feed_append (d : Decoder) (xs ys : List UInt8) : d.feed (xs ++ ys) = (d.feed xs).feed ys :=
  List.foldl_append

/-- After a fault nothing more is read. -/
theorem feed_of_fault (h : d.fault ≠ none) (bytes : List UInt8) : d.feed bytes = d := by
  induction bytes with
  | nil => rfl
  | cons b bytes ih =>
    have hstep : d.step b = d := by rw [step, if_pos (Option.isSome_iff_ne_none.mpr h)]
    rw [feed, List.foldl_cons, hstep]
    exact ih

theorem fault_finish (h : d.fault ≠ none) : d.finish.fault ≠ none := by
  obtain ⟨read, place, pending, fault⟩ := d
  cases fault with
  | none => exact absurd rfl h
  | some fault => exact h

end Utf8.Decoder

namespace File

open Utf8

/-- A fault in the first bytes is a fault in all of them. -/
theorem fault_of_first {d e : Decoder} (hagrees : d.Agrees e) (content : List UInt8)
    (hfault : (d.recount.feed (content.take portion)).fault ≠ none) :
    (e.feed content).finish.fault ≠ none := by
  have hfirst := ((Decoder.agrees_recount d).trans hagrees).feed (content.take portion)
  have hfault' := mt hfirst.fault.mpr hfault
  rw [← List.take_append_drop portion content, Decoder.feed_append, Decoder.feed_of_fault hfault']
  exact Decoder.fault_finish hfault'

/-- Reading in portions meets a fault exactly if reading at once does. Without one, the characters
are the same. -/
theorem portions_eq {d e : Decoder} (hagrees : d.Agrees e) (content : List UInt8) :
    ((e.feed content).finish.fault = none →
        portions d content = ((e.feed content).finish.chars, none)) ∧
      ((e.feed content).finish.fault ≠ none → (portions d content).2 ≠ none) := by
  -- Between two portions both decodings stand in the same place of the same sequence.
  fun_induction portions d content generalizing e with
  | case1 d =>
    have hend := ((Decoder.agrees_recount d).trans hagrees).finish
    have hchars : d.chars = e.finish.chars := by
      rw [Decoder.chars_finish, Decoder.chars, Decoder.chars, hagrees.read]
    refine ⟨fun hnone => ?_, fun hsome => mt hend.fault.mp hsome⟩
    exact Prod.ext hchars (hend.fault.mpr hnone)
  | case2 d b content part next fault hfault =>
    have hwhole := fault_of_first hagrees (b :: content) (by simp [part, next, hfault])
    exact ⟨fun hnone => absurd hnone hwhole, fun _ => by simp⟩
  | case3 d b content part next fault hfault =>
    have hwhole := fault_of_first hagrees (b :: content) (by simp [part, next, hfault])
    exact ⟨fun hnone => absurd hnone hwhole, fun _ => by simp⟩
  | case4 d b content part next hfault =>
    rename_i ih
    have hsplit : e.feed (b :: content) = (e.feed part).feed ((b :: content).drop portion) := by
      rw [← Decoder.feed_append, List.take_append_drop]
    rw [hsplit]
    exact ih (((Decoder.agrees_recount d).trans hagrees).feed part)

/-- The lines of a file that is a text are those of the text. -/
theorem lines_of_text {content : List UInt8} {s : List Char} (h : text content = .ok s) :
    lines content = ⟨allLines s, none⟩ := by
  rw [text, decode] at h
  split at h
  · simp [Except.map] at h
  · next hnone =>
    obtain rfl := Except.ok.inj h
    rw [lines, (portions_eq (.refl .start) content).1 hnone]

end File

end VeLens.Text
