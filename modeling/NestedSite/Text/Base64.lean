/-!
# Bytes written in base 64

Four characters write three bytes. Characters that are no digits are skipped, and reading ends where padding completes
a group of four; digits that are left over make the text malformed.
-/

namespace NestedSite.Text.Base64

/-- The value of a digit. -/
def digit? (c : Char) : Option Nat :=
  if 'A' ≤ c ∧ c ≤ 'Z' then some (c.toNat - 65)
  else if 'a' ≤ c ∧ c ≤ 'z' then some (c.toNat - 71)
  else if '0' ≤ c ∧ c ≤ '9' then some (c.toNat + 4)
  else if c = '+' then some 62
  else if c = '/' then some 63
  else none

/-- Reads on after `count` digits of a group, the bits of which that make no byte yet are `left`, and `pads` signs of
padding. -/
def decodeFrom? (count left pads : Nat) : List Char → Option (List UInt8)
  | [] => if count = 0 then some [] else none
  | c :: cs =>
    if c = '=' then
      if 2 ≤ count then if 4 ≤ count + pads + 1 then some [] else decodeFrom? count left (pads + 1) cs
      else decodeFrom? count left pads cs
    else match digit? c with
    | none => decodeFrom? count left pads cs
    | some d =>
      match count with
      | 0 => decodeFrom? 1 d 0 cs
      | 1 => (decodeFrom? 2 (d % 16) 0 cs).map ((left * 4 + d / 16).toUInt8 :: ·)
      | 2 => (decodeFrom? 3 (d % 4) 0 cs).map ((left * 16 + d / 4).toUInt8 :: ·)
      | _ => (decodeFrom? 0 0 0 cs).map ((left * 64 + d).toUInt8 :: ·)

def decode? (cs : List Char) : Option (List UInt8) := decodeFrom? 0 0 0 cs

end NestedSite.Text.Base64
