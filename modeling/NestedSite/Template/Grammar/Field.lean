import NestedSite.Template.Expr

/-!
# The text of format strings

A format string is cut into literal parts and replacement fields before the fields are read as expressions:
`literalPart?` finds the end of a literal part, `fieldText?` the end of the expression of a field.
-/

namespace NestedSite.Template

namespace Parser

/-- The expression of a replacement field: its text, up to the first `!`, `:`, `=` or `\x7d` outside brackets and
strings. Comments and backslashes may not stand in it. `brackets` are the open ones, `quote` the closer of the string
the reader is in; the first `taken` characters belong to what was read before. -/
def fieldText? (brackets : List Char) (quote : List Char) (taken : Nat) :
    List Char → Option (List Char × List Char)
  | [] => none
  | c :: cs =>
    let go := fun (brackets quote : List Char) (taken : Nat) =>
      (fieldText? brackets quote taken cs).map fun (text, rest) => (c :: text, rest)
    match taken with
    | k + 1 => go brackets quote k
    | 0 =>
      if c == '\\' then none
      else if !quote.isEmpty then
        if quote.isPrefixOf (c :: cs) then go brackets [] (quote.length - 1) else go brackets quote 0
      else if c == '\x27' || c == '\x22' then
        if [c, c].isPrefixOf cs then go brackets [c, c, c] 2 else go brackets [c] 0
      else if c == '(' || c == '[' || c == '\x7b' then go (c :: brackets) [] 0
      else if c == '#' then none
      else if brackets.isEmpty && "!:\x7d=<>".toList.contains c then
        if cs.head? == some '=' && "!=<>".toList.contains c then go brackets [] 1
        else if c == '<' || c == '>' then go brackets [] 0
        else some ([], c :: cs)
      else if c == ')' || c == ']' || c == '\x7d' then
        match brackets with
        | b :: outer =>
          if (b == '(' && c == ')') || (b == '[' && c == ']') || (b == '\x7b' && c == '\x7d') then go outer [] 0
          else none
        | [] => none
      else go brackets [] 0

/-- A literal part of a format string up to the next single brace, and what follows. Outside a format specification a
doubled brace is a literal one; there the part ends after its first. The result says whether it did. -/
def literalPart? (nested : Bool) : List Char → Option (List Char × Bool × List Char)
  | [] => some ([], false, [])
  | c :: cs =>
    if c == '\x7b' || c == '\x7d' then
      if nested then some ([], false, c :: cs)
      else match cs with
        | d :: rest =>
          if d == c then some ([c], true, rest)
          else if c == '\x7d' then none
          else some ([], false, c :: cs)
        | [] => if c == '\x7d' then none else some ([], false, c :: cs)
    else (literalPart? nested cs).map fun (t, b, r) => (c :: t, b, r)

/-- The spaces that the reader of an expression skips. -/
def isFieldBlank (c : Char) : Bool := c == ' ' || c == '\t' || c == '\n' || c == '\x0c'

/-- A conversion after `!`. -/
def conversion? : Char → Option Conversion
  | 's' => some .str
  | 'r' => some .repr
  | 'a' => some .ascii
  | _ => none

/-- Parts that are no empty literal. -/
def literalExpr (cs : List Char) : List Expr :=
  if cs.isEmpty then [] else [.literal (.text (.ofList cs))]

end Parser

end NestedSite.Template
