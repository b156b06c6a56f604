/-!
# Blank characters

The characters that separate words: the ASCII spaces and separators, the next-line character and the spaces and
separators of Unicode. `strip` takes them off both ends of a text.
-/

namespace NestedSite.Text

/-- A blank character. -/
def isBlank (c : Char) : Bool :=
  let n := c.toNat
  (9 ≤ n && n ≤ 13) || (28 ≤ n && n ≤ 32) || n == 0x85 || n == 0xa0 || n == 0x1680 ||
    (0x2000 ≤ n && n ≤ 0x200a) || n == 0x2028 || n == 0x2029 || n == 0x202f || n == 0x205f || n == 0x3000

/-- Takes the characters that satisfy `p` off the end. -/
def dropEndWhile (p : Char → Bool) : List Char → List Char
  | [] => []
  | c :: cs =>
    match dropEndWhile p cs with
    | [] => if p c then [] else [c]
    | d :: ds => c :: d :: ds

/-- Takes the characters that satisfy `p` off both ends. -/
def trim (p : Char → Bool) (cs : List Char) : List Char :=
  dropEndWhile p (cs.dropWhile p)

/-- Takes the blanks off both ends. -/
def strip (cs : List Char) : List Char := trim isBlank cs

end NestedSite.Text
