import SuiteBalance.Text.Quoted

/-!
# Text — UTF-8

Strict decoding of bytes into characters.  A decoder stands between two characters or inside a
sequence; the second byte of a sequence is held to the range that rules out overlong forms,
surrogates and code points beyond `U+10FFFF`, so a faulty sequence is given up at its first
impossible byte and the fault covers the bytes before that one.

* **`decode`** reads a whole file, and delivers all of it or a fault.
* **`decodeBlocks`** reads a file block by block, as a reader that works on the go does: the
  blocks before the faulty one are delivered, and the fault's position is counted from the start
  of its block, bytes carried over from the block before included.
* **`unencodableMessage`** says which code points of a text have no bytes.
-/

namespace SuiteBalance.Text.Utf8

/-- Why a sequence of bytes is no character. -/
inductive Reason where
  | start
  | continuation
  | truncated
  deriving DecidableEq, Repr

/-- The words for a reason. -/
def Reason.text : Reason → String
  | .start => "invalid start byte"
  | .continuation => "invalid continuation byte"
  | .truncated => "unexpected end of data"

/-- A faulty sequence: its first byte, where it stands, and how many bytes it covers. -/
structure Fault where
  position : Nat
  length : Nat
  byte : UInt8
  reason : Reason
  deriving DecidableEq, Repr

/-- One faulty byte is shown, several are named by their positions. -/
def Fault.message (f : Fault) : String :=
  if f.length = 1 then
    s!"'utf-8' codec can't decode byte 0x{String.ofList (hexDigits 2 f.byte.toNat)} " ++
      s!"in position {f.position}: {f.reason.text}"
  else
    s!"'utf-8' codec can't decode bytes in position " ++
      s!"{f.position}-{f.position + f.length - 1}: {f.reason.text}"

/-- A sequence begun: how many bytes it lacks, the range of the next one, the bits read so far,
the number of bytes read and the first of them. -/
structure Partial where
  missing : Nat
  low : UInt8
  high : UInt8
  value : Nat
  length : Nat
  first : UInt8
  deriving DecidableEq, Repr

/-- The sequence that a byte beyond `0x7f` begins, if it can begin one. -/
def lead? (b : UInt8) : Option Partial :=
  if 0xc2 ≤ b && b ≤ 0xdf then some ⟨1, 0x80, 0xbf, b.toNat - 0xc0, 1, b⟩
  else if b == 0xe0 then some ⟨2, 0xa0, 0xbf, 0, 1, b⟩
  else if b == 0xed then some ⟨2, 0x80, 0x9f, 0xd, 1, b⟩
  else if 0xe1 ≤ b && b ≤ 0xef then some ⟨2, 0x80, 0xbf, b.toNat - 0xe0, 1, b⟩
  else if b == 0xf0 then some ⟨3, 0x90, 0xbf, 0, 1, b⟩
  else if 0xf1 ≤ b && b ≤ 0xf3 then some ⟨3, 0x80, 0xbf, b.toNat - 0xf0, 1, b⟩
  else if b == 0xf4 then some ⟨3, 0x80, 0x8f, 4, 1, b⟩
  else none

/-- A sequence with one byte more, which lies in the sequence's range. -/
def Partial.extend (p : Partial) (b : UInt8) : Partial :=
  ⟨p.missing - 1, 0x80, 0xbf, p.value * 0x40 + (b.toNat - 0x80), p.length + 1, p.first⟩

/-- Decodes bytes from inside or between sequences; `position` counts the bytes before and `done`
holds the characters before, reversed.  The characters stay reversed. -/
def scan (position : Nat) (state : Option Partial) (done : List Char) :
    List UInt8 → Except Fault (List Char × Option Partial)
  | [] => .ok (done, state)
  | b :: rest =>
    match state with
    | none =>
      if b < 0x80 then scan (position + 1) none (Char.ofNat b.toNat :: done) rest
      else match lead? b with
        | none => .error ⟨position, 1, b, .start⟩
        | some p => scan (position + 1) (some p) done rest
    | some p =>
      if p.low ≤ b && b ≤ p.high then
        let p' := p.extend b
        if p'.missing = 0 then scan (position + 1) none (Char.ofNat p'.value :: done) rest
        else scan (position + 1) (some p') done rest
      else .error ⟨position - p.length, p.length, p.first, .continuation⟩

/-- The characters of a whole file, or its first fault. -/
def decode (bytes : List UInt8) : Except Fault (List Char) :=
  match scan 0 none [] bytes with
  | .error f => .error f
  | .ok (done, none) => .ok done.reverse
  | .ok (_, some p) => .error ⟨bytes.length - p.length, p.length, p.first, .truncated⟩

/-- The characters that a reader of blocks delivers, and the fault that stops it. -/
structure Delivered where
  text : List Char
  fault : Option Fault
  deriving Repr

/-- Decodes block after block; `done` holds the characters of the blocks before, reversed.  The
fuel bounds the number of blocks. -/
def decodeBlocksFrom (size : Nat) : Nat → Option Partial → List Char → List UInt8 → Delivered
  | 0, _, done, _ => ⟨done.reverse, none⟩
  | _ + 1, none, done, [] => ⟨done.reverse, none⟩
  | _ + 1, some p, done, [] => ⟨done.reverse, some ⟨0, p.length, p.first, .truncated⟩⟩
  | fuel + 1, state, done, bytes =>
    match scan (state.elim 0 Partial.length) state done (bytes.take size) with
    | .error f => ⟨done.reverse, some f⟩
    | .ok (done', state') => decodeBlocksFrom size fuel state' done' (bytes.drop size)

/-- The number of bytes that a reader on the go takes at a time. -/
def blockSize : Nat := 8192

/-- What a reader that takes the file block by block delivers. -/
def decodeBlocks (bytes : List UInt8) : Delivered :=
  decodeBlocksFrom blockSize (bytes.length + 1) none [] bytes

/-- The words for the first surrogate that has no bytes and those that follow it in a row.  A single
one is shown, several are named by their positions. -/
def unencodableMessage (hasBytes : CodePoint → Bool) (t : Text) : String :=
  let position := (t.points.takeWhile hasBytes).length
  let faulty := (t.points.drop position).takeWhile (·.char?.isNone)
  match faulty with
  | [p] =>
    s!"'utf-8' codec can't encode character '{String.ofList (escapeCodePoint p)}' " ++
      s!"in position {position}: surrogates not allowed"
  | _ =>
    s!"'utf-8' codec can't encode characters in position " ++
      s!"{position}-{position + faulty.length - 1}: surrogates not allowed"

end SuiteBalance.Text.Utf8
