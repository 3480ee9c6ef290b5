/-!
# Decoding UTF-8

Bytes are decoded one at a time. The decoder stands between characters or inside a sequence of
which some bytes are still owed. It stops at the first byte that no valid text could have in that
place, and the report names the bytes of the sequence that went wrong.

## Main definitions

* `Decoder`: the state of a decoding, and `Decoder.feed`, which reads further bytes.
* `decode`: the text that some bytes stand for.
* `Fault.message`: the report on bytes that are no text.

## Design notes

Places are counted from the first byte that the current call of the decoder was given. Bytes that
were left over from an earlier call count as the first of the next.
-/

namespace VeLens.Text.Utf8

/-- What is wrong with a sequence of bytes. -/
inductive Reason where
  | invalidStart
  | invalidContinuation
  | unexpectedEnd
deriving DecidableEq

/-- The wording of a reason. -/
def Reason.message : Reason → String
  | invalidStart => "invalid start byte"
  | invalidContinuation => "invalid continuation byte"
  | unexpectedEnd => "unexpected end of data"

/-- A sequence that is no character: its first byte, its place, its length and the reason. -/
structure Fault where
  first : UInt8
  start : Nat
  length : Nat
  reason : Reason
deriving DecidableEq

/-- A number in hexadecimal notation with lower-case digits, filled up with zeros to `width`. -/
def hex (width n : Nat) : String :=
  let digits := Nat.toDigits 16 n
  String.ofList (List.replicate (width - digits.length) '0' ++ digits)

/-- The report on bytes that are no text. -/
def Fault.message (f : Fault) : String :=
  let place :=
    if f.length = 1 then "byte 0x" ++ hex 2 f.first.toNat ++ " in position " ++ toString f.start
    else "bytes in position " ++ toString f.start ++ "-" ++ toString (f.start + f.length - 1)
  "'utf-8' codec can't decode " ++ place ++ ": " ++ f.reason.message

/-- The state inside a sequence: the bytes still owed, the bounds of the next one, the bits so far,
the bytes so far and the first of them. -/
structure Pending where
  owed : Nat
  low : UInt8
  high : UInt8
  bits : Nat
  taken : Nat
  first : UInt8
deriving DecidableEq

/-- The sequence that a first byte above the basic range opens. -/
def lead? (b : UInt8) : Option Pending :=
  let n := b.toNat
  if 0xC2 ≤ n ∧ n ≤ 0xDF then some ⟨1, 0x80, 0xBF, n % 32, 1, b⟩
  else if n = 0xE0 then some ⟨2, 0xA0, 0xBF, 0, 1, b⟩
  else if n = 0xED then some ⟨2, 0x80, 0x9F, 13, 1, b⟩
  else if 0xE1 ≤ n ∧ n ≤ 0xEF then some ⟨2, 0x80, 0xBF, n % 16, 1, b⟩
  else if n = 0xF0 then some ⟨3, 0x90, 0xBF, 0, 1, b⟩
  else if 0xF1 ≤ n ∧ n ≤ 0xF3 then some ⟨3, 0x80, 0xBF, n % 8, 1, b⟩
  else if n = 0xF4 then some ⟨3, 0x80, 0x8F, 4, 1, b⟩
  else none

/-- The state of a decoding: the characters so far, the last of them first, the place of the next
byte, the sequence that is open and the fault that was met. -/
structure Decoder where
  read : List Char
  place : Nat
  pending : Option Pending
  fault : Option Fault

namespace Decoder

/-- Before the first byte. -/
def start : Decoder := ⟨[], 0, none, none⟩

/-- Reads one byte. After a fault nothing more is read. -/
def step (d : Decoder) (b : UInt8) : Decoder :=
  if d.fault.isSome then d
  else match d.pending with
    | none =>
      if b.toNat < 0x80 then ⟨Char.ofNat b.toNat :: d.read, d.place + 1, none, none⟩
      else match lead? b with
        | some p => ⟨d.read, d.place + 1, some p, none⟩
        | none => ⟨d.read, d.place, none, some ⟨b, d.place, 1, .invalidStart⟩⟩
    | some p =>
      if p.low ≤ b ∧ b ≤ p.high then
        let bits := p.bits * 64 + b.toNat % 64
        if p.owed = 1 then ⟨Char.ofNat bits :: d.read, d.place + 1, none, none⟩
        else ⟨d.read, d.place + 1, some ⟨p.owed - 1, 0x80, 0xBF, bits, p.taken + 1, p.first⟩, none⟩
      else
        ⟨d.read, d.place, none, some ⟨p.first, d.place - p.taken, p.taken, .invalidContinuation⟩⟩

/-- Reads further bytes. -/
def feed (d : Decoder) (bytes : List UInt8) : Decoder := bytes.foldl step d

/-- Starts to count places anew, at the bytes of the open sequence. -/
def recount (d : Decoder) : Decoder := { d with place := (d.pending.map Pending.taken).getD 0 }

/-- The end of the bytes: an open sequence is a fault. -/
def finish (d : Decoder) : Decoder :=
  match d.fault, d.pending with
  | none, some p =>
    { d with fault := some ⟨p.first, d.place - p.taken, p.taken, .unexpectedEnd⟩ }
  | _, _ => d

/-- The characters read. -/
def chars (d : Decoder) : List Char := d.read.reverse

end Decoder

/-- The text that some bytes stand for. -/
def decode (bytes : List UInt8) : Except Fault (List Char) :=
  let d := (Decoder.start.feed bytes).finish
  match d.fault with
  | some fault => .error fault
  | none => .ok d.chars

end VeLens.Text.Utf8
