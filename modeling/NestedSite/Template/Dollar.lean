import NestedSite.Text.Letter

/-!
# Dollar names

A context key may begin with `$`, which no identifier does. In the code of a fragment every `$` is written `_dollar_`
before the fragment is read (`mangle`), and a name that begins so stands for the key that begins with `$`
(`scopeKey`). String literals keep their `$`, except in the replacement fields of format strings, which are code.

`mangle` passes over the fragment once with a stack of the regions it stands in.
-/

namespace NestedSite.Template

open NestedSite.Text

/-- What `$` is written as in code. -/
def dollarMark : String := "_dollar_"

/-- The context key that a name stands for. -/
def scopeKey (name : String) : String :=
  match dropMark? dollarMark.toList name.toList with
  | some rest => .ofList ('$' :: rest)
  | none => name
where
  dropMark? : List Char → List Char → Option (List Char)
    | [], cs => some cs
    | _ :: _, [] => none
    | p :: ps, c :: cs => if p == c then dropMark? ps cs else none

namespace Dollar

/-- Where in a fragment a character stands. -/
inductive Region where
  /-- In code, `depth` brackets deep; in a replacement field if `field`. -/
  | code (depth : Int) (field : Bool)
  /-- In a string literal that `quote` ends, with replacement fields if `formatted`. -/
  | text (quote : List Char) (formatted : Bool)
  /-- In the format specification of a replacement field. -/
  | spec
  deriving Repr, DecidableEq

def isQuote (c : Char) : Bool := c == '\x27' || c == '\x22'

/-- The characters that may stand before a string literal. -/
def isMarker (c : Char) : Bool := "rRbBfFuU".toList.contains c

/-- Whether the characters before a quote (nearest first) make a format string of it: at most two markers, one of
them an `f`, that do not belong to a longer word. -/
def isFormatted (before : List Char) : Bool :=
  let markers := (before.take 2).takeWhile isMarker
  let apart := match before.drop markers.length with
    | c :: _ => !(isAlphanumeric c || c == '_')
    | [] => true
  apart && markers.any (fun c => c == 'f' || c == 'F')

/-- The change of depth at a character of code. -/
def depthStep (c : Char) : Int :=
  if c == '(' || c == '[' || c == '\x7b' then 1
  else if c == ')' || c == ']' || c == '\x7d' then -1
  else 0

/-- The regions after the character `c`, and how many of the characters `next` after it belong to it: the rest of a
triple quote, an escaped character or the second of two braces. The characters `before` it stand nearest first. -/
def move (stack : List Region) (before : List Char) (c : Char) (next : List Char) : List Region × Nat :=
  match stack with
  | .text quote formatted :: outer =>
    if c == '\\' then (stack, min 1 next.length)
    else if quote.isPrefixOf (c :: next) then (outer, quote.length - 1)
    else if formatted && c == '\x7b' then openBrace stack next
    else (stack, 0)
  | .spec :: outer =>
    if c == '\x7d' then (outer, 0)
    else if c == '\x7b' then openBrace stack next
    else (stack, 0)
  | .code depth field :: outer =>
    if isQuote c then
      if [c, c].isPrefixOf next then (.text [c, c, c] (isFormatted before) :: stack, 2)
      else (.text [c] (isFormatted before) :: stack, 0)
    else if field && depth == 0 && c == '\x7d' then (outer, 0)
    else if field && depth == 0 && c == ':' then (.spec :: outer, 0)
    else (.code (depth + depthStep c) field :: outer, 0)
  | [] => ([], 0)
where
  /-- A brace opens a replacement field unless it is doubled. -/
  openBrace (stack : List Region) (next : List Char) : List Region × Nat :=
    if ['\x7b'].isPrefixOf next then (stack, 1) else (.code 0 true :: stack, 0)

/-- Whether the innermost region is code. -/
def inCode : List Region → Bool
  | .code _ _ :: _ => true
  | _ => false

/-- A character as it is written; `code` says that it stands in code. -/
def written (code : Bool) (c : Char) : List Char :=
  if code && c == '$' then dollarMark.toList else [c]

/-- Writes `cs`, which stands in the regions `stack` (innermost first) after the characters `before` (nearest
first); the first `taken` characters belong to what was read before. -/
def mangleFrom (stack : List Region) (taken : Nat) (before : List Char) : List Char → List Char
  | [] => []
  | c :: cs =>
    match taken with
    | k + 1 => c :: mangleFrom stack k (c :: before) cs
    | 0 =>
      let (stack', k) := move stack before c cs
      written (inCode stack) c ++ mangleFrom stack' k (c :: before) cs

end Dollar

/-- The fragment with `_dollar_` for every `$` of its code. -/
def mangle (fragment : String) : String :=
  .ofList (Dollar.mangleFrom [.code 0 false] 0 [] fragment.toList)

end NestedSite.Template
