/-!
# YAML — bytes in text

Bytes are written in groups of four characters for three bytes.  Characters that are no digits are
passed over, and a group that is filled up with equals signs ends the text.
-/

namespace SuiteBalance.Yaml

/-- The value of a digit in base 64. -/
def base64Value? (c : Char) : Option Nat :=
  if 'A' ≤ c ∧ c ≤ 'Z' then some (c.toNat - 'A'.toNat)
  else if 'a' ≤ c ∧ c ≤ 'z' then some (c.toNat - 'a'.toNat + 26)
  else if '0' ≤ c ∧ c ≤ '9' then some (c.toNat - '0'.toNat + 52)
  else if c == '+' then some 62
  else if c == '/' then some 63
  else none

/-- Decodes a text; `place` counts the digits of the group begun, `left` holds the bits that wait,
`pads` counts the equals signs behind the last digit, and `done` holds the bytes before, reversed.
A group that is not complete at the end is refused. -/
def base64From (place left pads : Nat) (done : List UInt8) : List Char → Option (List UInt8)
  | [] => if place = 0 then some done.reverse else none
  | c :: rest =>
    if c == '=' then
      if 2 ≤ place then
        if 4 ≤ place + pads + 1 then some done.reverse
        else base64From place left (pads + 1) done rest
      else base64From place left pads done rest
    else match base64Value? c with
      | none => base64From place left pads done rest
      | some n =>
        if place = 0 then base64From 1 n 0 done rest
        else if place = 1 then
          base64From 2 (n % 16) 0 (UInt8.ofNat (left * 4 + n / 16) :: done) rest
        else if place = 2 then base64From 3 (n % 4) 0 (UInt8.ofNat (left * 16 + n / 4) :: done) rest
        else base64From 0 0 0 (UInt8.ofNat (left * 64 + n) :: done) rest

/-- The bytes that a text stands for. -/
def base64? (s : List Char) : Option (List UInt8) :=
  if s.any fun c => 0x80 ≤ c.toNat then none else base64From 0 0 0 [] s

end SuiteBalance.Yaml
