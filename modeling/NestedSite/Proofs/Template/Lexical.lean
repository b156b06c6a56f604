import NestedSite.Template.Dollar
import NestedSite.Template.Grammar

/-!
# What is code in a fragment

`reading?` tells for every character of a fragment whether it stands in code, in a comment or in the text of a string
literal, by the lexical rules of the fragment language. The text of a literal is cut out first, up to its closing
quote; only then is the text of a format string divided into literal parts and replacement fields, whose expressions
are code again. A fragment has no reading where its literals do not end, where the text of a format string cannot be
divided, or where a literal stands right after a word that is neither a prefix of it nor a keyword: it is then no
expression, whatever is written for its `$`.

`ideal` writes a fragment as its reading says, with `_dollar_` for every `$` in code.
-/

namespace NestedSite.Template

open NestedSite.Text

namespace Lexical

open Dollar (isQuote isMarker written)

/-- What a character of a fragment belongs to. -/
inductive Kind where
  | code
  | comment
  | text
  /-- A brace of a format string that opens a field or is doubled, after a backslash that no other one escapes. -/
  | escapedBrace
  /-- A brace in a format specification that opens a field and has another one right after it. -/
  | doubledBrace
  deriving Repr, DecidableEq

/-- The characters of a text, each with what it belongs to. -/
abbrev Reading := List (Char × Kind)

def marked (kind : Kind) (cs : List Char) : Reading := cs.map fun c => (c, kind)

/-- The characters of a reading, with `_dollar_` for every `$` of the kinds that `isCode` picks. -/
def Reading.rewrite (isCode : Kind → Bool) (ms : Reading) : List Char :=
  ms.flatMap fun m => written (isCode m.2) m.1

/-! ## Words and quotes -/

/-- The characters of words: letters, numerals, what else identifiers hold, and `$`. -/
def isWord (c : Char) : Bool := c == '$' || c == '_' || isAlphanumeric c || isIdentifierPart c

/-- The word up to the character `c`, after the word right before it; a word is held with its last character first. -/
def wordAfter (word : List Char) (c : Char) : List Char := if isWord c then c :: word else []

/-- Whether a literal after the word is a format string. No literal stands after a word that is neither a prefix of
it nor a keyword. -/
def isFormat? (word : List Char) : Option Bool :=
  if Token.isMarkers word.reverse then some (word.any fun c => c == 'f' || c == 'F')
  else if word.isEmpty || Parser.keywords.any fun k => k.toList.reverse.isPrefixOf word then some false
  else none

/-- The quote that a literal begins with, given its first character and what follows. -/
def quoteOf (c : Char) (cs : List Char) : List Char := if [c, c].isPrefixOf cs then [c, c, c] else [c]

/-- The text of a literal up to its closing quote, and what follows the quote. -/
def body? (quote : List Char) : List Char → Option (List Char × List Char)
  | [] => none
  | c :: cs =>
    if c == '\\' then
      match cs with
      | [] => none
      | d :: cs => (body? quote cs).map fun (body, rest) => (c :: d :: body, rest)
    else if quote.isPrefixOf (c :: cs) then some ([], cs.drop (quote.length - 1))
    else (body? quote cs).map fun (body, rest) => (c :: body, rest)

/-! ## Readers

The reader of code is in the fragment itself (`field` is `none`) or in the expression of a replacement field, some
brackets deep. Each reader gives what it read and what it left; the number it takes first bounds its steps.
-/

/-- The depth after a character of code; none if it closes a bracket that the field did not open. -/
def fieldAfter? (field : Option Nat) (c : Char) : Option (Option Nat) :=
  match field with
  | none => some none
  | some depth =>
    if c == '(' || c == '[' || c == '\x7b' then some (some (depth + 1))
    else if c == ')' || c == ']' || c == '\x7d' then if depth == 0 then none else some (some (depth - 1))
    else some (some depth)

/-- A comparison that begins like the end of an expression, at the beginning of `c :: cs`. -/
def isCompared (c : Char) (cs : List Char) : Bool := "!=<>".toList.contains c && cs.head? == some '='

/-- The characters that the expression of a field ends at. -/
def endsField (c : Char) : Bool := "!:=\x7d".toList.contains c

def endsLine (c : Char) : Bool := c == '\n' || c == '\r'

/-- An equals sign, with the blanks and line ends after it, and what follows. -/
def equals : List Char → List Char × List Char
  | '=' :: cs =>
    let isSkipped := fun c => Parser.isFieldBlank c || endsLine c
    ('=' :: cs.takeWhile isSkipped, cs.dropWhile isSkipped)
  | cs => ([], cs)

/-- What may stand between the expression of a field and its format specification or end: an equals sign and a
conversion. -/
def conversion? (cs : List Char) : Option (List Char × List Char) :=
  match (equals cs).2 with
  | '!' :: c :: rest => (Parser.conversion? c).map fun _ => ((equals cs).1 ++ ['!', c], rest)
  | rest => some ((equals cs).1, rest)

/-- Puts what was read before in front. -/
def after (before : Reading) : Reading × List Char → Reading × List Char := fun (ms, rest) => (before ++ ms, rest)

mutual

/-- Code, after the word `word`, up to the end of the fragment or of the expression of the field. -/
def code? : Nat → Option Nat → List Char → List Char → Option (Reading × List Char)
  | 0, _, _, _ => none
  | _ + 1, field, _, [] => if field.isNone then some ([], []) else none
  | fuel + 1, field, word, c :: cs =>
    if isQuote c then
      (isFormat? word).bind fun formatted =>
        let quote := quoteOf c cs
        (literal? fuel formatted quote (cs.drop (quote.length - 1))).bind fun (ms, rest) =>
          (code? fuel field [] rest).map (after (marked .text quote ++ ms))
    else if c == '#' then
      if field.isNone then comment? fuel (c :: cs) else none
    else if field == some 0 && isCompared c cs then
      (code? fuel field [] (cs.drop 1)).map (after (marked .code [c, '=']))
    else if field == some 0 && endsField c then some ([], c :: cs)
    else (fieldAfter? field c).bind fun field =>
      (code? fuel field (wordAfter word c) cs).map (after [(c, .code)])

/-- A comment of the fragment, which the end of the line ends. -/
def comment? : Nat → List Char → Option (Reading × List Char)
  | 0, _ => none
  | _ + 1, [] => some ([], [])
  | fuel + 1, c :: cs =>
    if endsLine c then (code? fuel none [] cs).map (after [(c, .code)])
    else (comment? fuel cs).map (after [(c, .comment)])

/-- A literal after its opening quote. -/
def literal? : Nat → Bool → List Char → List Char → Option (Reading × List Char)
  | 0, _, _, _ => none
  | fuel + 1, formatted, quote, cs =>
    (body? quote cs).bind fun (body, rest) =>
      (if formatted then parts? fuel false body else some (marked .text body)).map fun ms =>
        (ms ++ marked .text quote, rest)

/-- The text of a format string; `escaped` says that a backslash stands right before it, which no other one
escapes. -/
def parts? : Nat → Bool → List Char → Option Reading
  | 0, _, _ => none
  | _ + 1, _, [] => some []
  | fuel + 1, escaped, c :: cs =>
    if c == '\x7b' then
      let kind := if escaped then Kind.escapedBrace else .text
      if ['\x7b'].isPrefixOf cs then
        (parts? fuel false (cs.drop 1)).map ([(c, kind), (c, .text)] ++ ·)
      else (field? fuel cs).bind fun (ms, rest) => (parts? fuel false rest).map ((c, kind) :: ms ++ ·)
    else if c == '\x7d' then
      if ['\x7d'].isPrefixOf cs then (parts? fuel false (cs.drop 1)).map ([(c, .text), (c, .text)] ++ ·) else none
    else (parts? fuel (c == '\\' && !escaped) cs).map ((c, .text) :: ·)

/-- A replacement field after its opening brace. -/
def field? : Nat → List Char → Option (Reading × List Char)
  | 0, _ => none
  | fuel + 1, cs =>
    (code? fuel (some 0) [] cs).bind fun (ms, rest) =>
      (conversion? rest).bind fun (converted, rest) =>
        match rest with
        | '\x7d' :: rest => some (ms ++ marked .code converted ++ [('\x7d', .text)], rest)
        | ':' :: rest => (spec? fuel rest).map (after (ms ++ marked .code converted ++ [(':', .text)]))
        | _ => none

/-- A format specification, with the brace that ends its field. -/
def spec? : Nat → List Char → Option (Reading × List Char)
  | 0, _ => none
  | _ + 1, [] => none
  | fuel + 1, c :: cs =>
    if c == '\x7d' then some ([(c, .text)], cs)
    else if c == '\x7b' then
      let kind := if ['\x7b'].isPrefixOf cs then Kind.doubledBrace else .text
      (field? fuel cs).bind fun (ms, rest) => (spec? fuel rest).map (after ((c, kind) :: ms))
    else (spec? fuel cs).map (after [(c, .text)])

end

end Lexical

open Lexical

/-- What the characters of a fragment belong to. -/
def reading? (fragment : String) : Option Reading :=
  (code? (4 * (fragment.length + 1)) none [] fragment.toList).map (·.1)

/-- The fragment with `_dollar_` for every `$` in code. -/
def ideal? (fragment : String) : Option String := (reading? fragment).map fun ms => .ofList (ms.rewrite (· == .code))

example : ideal? "(a # it's\n + $c) + rf'{{$}}{$b!r:>{$w}}'" =
    some "(a # it's\n + _dollar_c) + rf'{{$}}{_dollar_b!r:>{_dollar_w}}'" := by decide +kernel

end NestedSite.Template
