import VeLens.Text.Cut
import VeLens.Text.Utf8

/-!
# Text files

The content of a file is decoded as UTF-8, and each of the three usual ends of a line becomes a line
feed. A file is read either as a whole or line by line. Read line by line, it is decoded in
portions, and bytes that are no text spoil only the portion in which they stand and what comes after
it.

## Main definitions

* `File.text`: the whole text.
* `File.lines`: the lines in order, and the fault after which there are no more.
-/

namespace VeLens.Text.File

/-- Line feeds in place of carriage returns, with or without a line feed of their own. -/
def unifyLineEnds : List Char → List Char
  | [] => []
  | '\r' :: '\n' :: s => '\n' :: unifyLineEnds s
  | '\r' :: s => '\n' :: unifyLineEnds s
  | c :: s => c :: unifyLineEnds s

/-- The whole text of a file. -/
def text (content : List UInt8) : Except Utf8.Fault (List Char) :=
  (Utf8.decode content).map unifyLineEnds

/-- How many bytes are decoded at a time. -/
def portion : Nat := 8192

/-- The fault shows only when further bytes are asked for: the last two of the `count` bytes begin a
sequence of three that would stand for half of a surrogate pair. -/
def isPostponed (fault : Utf8.Fault) (count : Nat) (last : Option UInt8) : Bool :=
  fault.first == 0xED && fault.reason == .invalidContinuation && fault.start + 2 == count &&
    last.any fun b => 0xA0 ≤ b && b ≤ 0xBF

/-- The characters of all portions before the first that holds a fault, and that fault. A postponed
fault belongs to the portion after the one that it stands in. -/
def portions (d : Utf8.Decoder) : (content : List UInt8) → List Char × Option Utf8.Fault
  | [] => (d.chars, d.recount.finish.fault)
  | b :: content =>
    let part := (b :: content).take portion
    let next := d.recount.feed part
    match next.fault with
    | some fault =>
      if isPostponed fault (d.recount.place + part.length) part.getLast? then
        (next.chars, some { fault with start := 0 })
      else (d.chars, some fault)
    | none => portions next ((b :: content).drop portion)
termination_by content => content.length
decreasing_by
  simp only [portion, List.length_cons, List.length_drop]
  omega

/-- The lines of a file, and the fault after which there are no more. -/
structure Lines where
  lines : List (List Char)
  fault : Option Utf8.Fault

/-- The lines that end in a line feed. -/
def endedLines (s : List Char) : List (List Char) := (pieces '\n' s).dropLast

/-- All lines, the last one also if it does not end in a line feed. -/
def allLines (s : List Char) : List (List Char) :=
  match (pieces '\n' s).getLast? with
  | some [] => endedLines s
  | _ => pieces '\n' s

/-- Reads a file line by line. A line is complete once its end is decoded. A carriage return at the
end of a portion waits for the next, as a line feed may follow. -/
def lines (content : List UInt8) : Lines :=
  match portions .start content with
  | (chars, none) => ⟨allLines (unifyLineEnds chars), none⟩
  | (chars, some fault) =>
    ⟨endedLines (unifyLineEnds ((beforeEnd? ['\r'] chars).getD chars)), some fault⟩

end VeLens.Text.File
