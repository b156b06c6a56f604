/-!
# Texts from code points

Escapes may name a character beyond 65535 by two halves, each of which is a code point and no character.
-/

namespace NestedSite.Text

/-- The characters of code points. Two halves that belong together are one character; a half alone, like any other
number that is no character, becomes the replacement character. -/
def charsOfCodes : List Nat → List Char
  | [] => []
  | high :: low :: rest =>
    if 0xd800 ≤ high && high < 0xdc00 && 0xdc00 ≤ low && low < 0xe000 then
      Char.ofNat (0x10000 + (high - 0xd800) * 1024 + (low - 0xdc00)) :: charsOfCodes rest
    else charOf high :: charsOfCodes (low :: rest)
  | [n] => [charOf n]
where
  /-- A code point by itself. -/
  charOf (n : Nat) : Char := if n.isValidChar then Char.ofNat n else '\ufffd'

end NestedSite.Text
