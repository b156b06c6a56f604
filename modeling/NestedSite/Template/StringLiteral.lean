import NestedSite.Text.Code
import NestedSite.Text.Letter

/-!
# The text of string literals

What the escapes between the quotes of a string literal stand for. An unknown escape stands for itself, backslash
included, and so does a backslash before a brace of a format string; an escape that lacks digits, or names no
character, makes the literal malformed.
-/

namespace NestedSite.Template

open NestedSite.Text

namespace StringLiteral

/-- A character that is escaped by a letter or a mark of its own. -/
def simpleEscape? (c : Char) : Option Char :=
  if c == '\\' || c == '\x27' || c == '\x22' then some c
  else if c == 'a' then some '\x07'
  else if c == 'b' then some '\x08'
  else if c == 'f' then some '\x0c'
  else if c == 'n' then some '\n'
  else if c == 'r' then some '\r'
  else if c == 't' then some '\t'
  else if c == 'v' then some '\x0b'
  else none

def octalValue (cs : List Char) : Nat := cs.foldl (fun n c => 8 * n + (c.toNat - 48)) 0

/-- The first `count` characters as a hexadecimal number, if they are digits, and the rest. -/
def hexNumber? (count : Nat) (cs : List Char) : Option (Nat × List Char) :=
  let ds := cs.take count
  if ds.length == count && ds.all (fun c => (hexDigit? c).isSome) then
    some (hexValue (.ofList ds), cs.drop count)
  else none

def isOctal (c : Char) : Bool := '0' ≤ c && c ≤ '7'

/-- What an escape stands for, given what follows its backslash: a code point, or the escape itself. Texts know two
escapes more than byte strings. -/
def escape? (bytes : Bool) (cs : List Char) : Option (Option Nat × List Char) :=
  match cs with
  | [] => some (some 92, [])
  | c :: rest =>
    if c == '\n' then some (none, rest)
    else match simpleEscape? c with
    | some d => some (some d.toNat, rest)
    | none =>
      if isOctal c then
        let ds := (cs.take 3).takeWhile isOctal
        some (some (octalValue ds), cs.drop ds.length)
      else if c == 'x' then (hexNumber? 2 rest).map fun (n, rest) => (some n, rest)
      else if bytes then some (some 92, cs)
      else if c == 'u' then (hexNumber? 4 rest).map fun (n, rest) => (some n, rest)
      else if c == 'U' then
        (hexNumber? 8 rest).bind fun (n, rest) => if n < 0x110000 then some (some n, rest) else none
      else if c == 'N' then none
      else some (some 92, cs)

/-- The code points that `cs` stands for, read in at most `fuel` steps. -/
def decodeFrom? (bytes : Bool) : Nat → List Char → Option (List Nat)
  | _, [] => some []
  | 0, _ => none
  | fuel + 1, c :: cs =>
    if c == '\\' then
      (escape? bytes cs).bind fun (n, rest) => (decodeFrom? bytes fuel rest).map (n.toList ++ ·)
    else (decodeFrom? bytes fuel cs).map (c.toNat :: ·)

/-- The text that the body of a literal stands for; a raw one stands for itself. -/
def text? (raw : Bool) (body : List Char) : Option (List Char) :=
  if raw then some body else (decodeFrom? false body.length body).map charsOfCodes

/-- The bytes that the body of a byte string stands for; its characters are ASCII. -/
def bytes? (raw : Bool) (body : List Char) : Option (List UInt8) :=
  if body.all (fun c => c.toNat < 128) then
    if raw then some (body.map fun c => c.toNat.toUInt8)
    else (decodeFrom? true body.length body).map (·.map Nat.toUInt8)
  else none

end StringLiteral

end NestedSite.Template
