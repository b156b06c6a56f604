import NestedSite.Text.Printable

/-!
# Quoted text

The quoted form of a text: between single quotes, or between double quotes if the text holds a single quote and no
double one; the quote in use, the backslash and what is not printable are escaped.
-/

namespace NestedSite.Text

/-- The quote characters. -/
def singleQuote : Char := '\x27'
def doubleQuote : Char := '\x22'

/-- The digits of `n` in base 16, at least `width` of them, in lower case. -/
def hexDigits (width n : Nat) : List Char :=
  let digits := Nat.toDigits 16 n
  List.replicate (width - digits.length) '0' ++ digits

/-- The escape that names a character by its code point. -/
def codeEscape (c : Char) : List Char :=
  let n := c.toNat
  if n < 0x100 then '\\' :: 'x' :: hexDigits 2 n
  else if n < 0x10000 then '\\' :: 'u' :: hexDigits 4 n
  else '\\' :: 'U' :: hexDigits 8 n

namespace Quoted

/-- The quote to put around a text. -/
def quoteFor (cs : List Char) : Char :=
  if cs.contains singleQuote && !cs.contains doubleQuote then doubleQuote else singleQuote

/-- A character as it stands inside quotes; `plain` says which characters stand for themselves. -/
def escape (plain : Char → Bool) (quote c : Char) : List Char :=
  if c == quote || c == '\\' then ['\\', c]
  else if c == '\t' then ['\\', 't']
  else if c == '\n' then ['\\', 'n']
  else if c == '\r' then ['\\', 'r']
  else if plain c then [c]
  else codeEscape c

def encodeWith (plain : Char → Bool) (cs : List Char) : List Char :=
  let quote := quoteFor cs
  quote :: cs.flatMap (escape plain quote) ++ [quote]

end Quoted

/-- The quoted form of a text. -/
def quoted (s : String) : String := .ofList (Quoted.encodeWith isPrintable s.toList)

/-- The quoted form in which every character outside ASCII is escaped. -/
def quotedAscii (s : String) : String :=
  .ofList (Quoted.encodeWith (fun c => c.toNat < 127 && isPrintable c) s.toList)

/-- Escapes the characters outside ASCII. -/
def asciiEscaped (s : String) : String :=
  .ofList (s.toList.flatMap fun c => if c.toNat < 128 then [c] else codeEscape c)

end NestedSite.Text
