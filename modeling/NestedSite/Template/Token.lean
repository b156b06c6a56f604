import NestedSite.Text.Identifier
import NestedSite.Text.LineEnd

/-!
# Tokens of the fragment language

A fragment is cut into names, numbers, string literals and operators. Outside brackets the line structure counts as
well: the end of a logical line, and the deeper or shallower indentation of the next one, are tokens. A text that
cannot be cut has no tokens at all (`Token.lex?` is `none`).
-/

namespace NestedSite.Template

open NestedSite.Text

inductive Token where
  /-- A name or a keyword, as it is written. -/
  | name (text : String)
  | number (text : String)
  /-- A string literal: the letters before its quote, whether the quote is tripled, and what stands between. -/
  | string (markers : List Char) (triple : Bool) (body : List Char)
  | operator (text : String)
  | lineEnd
  | indent
  | dedent
  deriving Repr, DecidableEq

namespace Token

/-! ## Numbers -/

/-- Digits with single low lines between them; `needed` says that a digit must come next. -/
def digitRun? (p : Char → Bool) (needed : Bool) : List Char → Option (List Char × List Char)
  | [] => if needed then none else some ([], [])
  | c :: cs =>
    if p c then (digitRun? p false cs).map fun (ds, rest) => (c :: ds, rest)
    else if needed then none
    else if c == '_' then (digitRun? p true cs).map fun (ds, rest) => (c :: ds, rest)
    else some ([], c :: cs)

/-- A character that an identifier may hold, before its script is looked at. -/
def isWordChar (c : Char) : Bool := isAsciiLetter c || isAsciiDigit c || c == '_' || 128 ≤ c.toNat

/-- Whether a number may end before `cs`: no word follows, unless it begins like a keyword that can stand there. -/
def endsNumber (cs : List Char) : Bool :=
  match cs with
  | [] => true
  | c :: _ =>
    !isWordChar c ||
      ["and", "else", "for", "if", "in", "is", "or", "not"].any fun word => word.toList.isPrefixOf cs

/-- A number that ends before `rest`. -/
def numberEnd? (digits rest : List Char) : Option (List Char × List Char) :=
  if endsNumber rest then some (digits, rest) else none

/-- The end of a decimal number: the letter of an imaginary one, or nothing. -/
def imaginary? (digits : List Char) : List Char → Option (List Char × List Char)
  | 'j' :: rest => numberEnd? (digits ++ ['j']) rest
  | 'J' :: rest => numberEnd? (digits ++ ['J']) rest
  | rest => numberEnd? digits rest

/-- An exponent, if there is one, and the end. -/
def exponent? (digits : List Char) (cs : List Char) : Option (List Char × List Char) :=
  match cs with
  | e :: rest =>
    if e == 'e' || e == 'E' then
      match rest with
      | s :: rest' =>
        if s == '+' || s == '-' then
          (digitRun? isAsciiDigit true rest').bind fun (ds, rest'') => imaginary? (digits ++ e :: s :: ds) rest''
        else if isAsciiDigit s then
          (digitRun? isAsciiDigit true rest).bind fun (ds, rest'') => imaginary? (digits ++ e :: ds) rest''
        else numberEnd? digits cs
      | [] => numberEnd? digits cs
    else imaginary? digits cs
  | [] => imaginary? digits cs

/-- The digits after a point, if any, and what follows them. -/
def fraction? (digits : List Char) (cs : List Char) : Option (List Char × List Char) :=
  match cs with
  | c :: _ =>
    if isAsciiDigit c then
      (digitRun? isAsciiDigit true cs).bind fun (ds, rest) => exponent? (digits ++ '.' :: ds) rest
    else exponent? (digits ++ ['.']) cs
  | [] => exponent? (digits ++ ['.']) cs

/-- A number in another base after its two-character mark. -/
def based? (p : Char → Bool) (mark cs : List Char) : Option (List Char × List Char) :=
  let (mark, cs) := match cs with
    | '_' :: cs => (mark ++ ['_'], cs)
    | cs => (mark, cs)
  match digitRun? p true cs with
  | some (ds, rest) =>
    match rest with
    | c :: _ => if isAsciiDigit c then none else numberEnd? (mark ++ ds) rest
    | [] => numberEnd? (mark ++ ds) rest
  | none => none

def isHexDigit (c : Char) : Bool := (hexDigit? c).isSome
def isOctalDigit (c : Char) : Bool := '0' ≤ c && c ≤ '7'
def isBinaryDigit (c : Char) : Bool := c == '0' || c == '1'

/-- A number at the beginning of `cs`, which starts with a digit. -/
def number? (cs : List Char) : Option (List Char × List Char) :=
  match cs with
  | '0' :: 'x' :: rest => based? isHexDigit ['0', 'x'] rest
  | '0' :: 'X' :: rest => based? isHexDigit ['0', 'X'] rest
  | '0' :: 'o' :: rest => based? isOctalDigit ['0', 'o'] rest
  | '0' :: 'O' :: rest => based? isOctalDigit ['0', 'O'] rest
  | '0' :: 'b' :: rest => based? isBinaryDigit ['0', 'b'] rest
  | '0' :: 'B' :: rest => based? isBinaryDigit ['0', 'B'] rest
  | _ =>
    (digitRun? isAsciiDigit true cs).bind fun (ds, rest) =>
      match rest with
      | '.' :: rest' => fraction? ds rest'
      | c :: _ =>
        if "eEjJ".toList.contains c then exponent? ds rest
        else if isPlain ds then numberEnd? ds rest else none
      | [] => if isPlain ds then numberEnd? ds rest else none
where
  /-- A whole number has no leading zeros, unless it is zero. -/
  isPlain (ds : List Char) : Bool :=
    ds.head? ≠ some '0' || ds.all (fun c => c == '0' || c == '_')

/-! ## Words and strings -/

/-- The body of a string literal up to the closer, and what follows; a line feed may stand in a tripled one only. -/
def stringBody? (closer : List Char) : List Char → Option (List Char × List Char)
  | [] => none
  | c :: cs =>
    if closer.isPrefixOf (c :: cs) then some ([], cs.drop (closer.length - 1))
    else if c == '\\' then
      match cs with
      | [] => none
      | d :: cs => (stringBody? closer cs).map fun (body, rest) => (c :: d :: body, rest)
    else if c == '\n' && closer.length == 1 then none
    else (stringBody? closer cs).map fun (body, rest) => (c :: body, rest)

/-- A string literal whose opening quote `q` stands before `cs`. -/
def string? (markers : List Char) (q : Char) (cs : List Char) : Option (Token × List Char) :=
  if [q, q].isPrefixOf cs then
    (stringBody? [q, q, q] (cs.drop 2)).map fun (body, rest) => (string markers true body, rest)
  else (stringBody? [q] cs).map fun (body, rest) => (string markers false body, rest)

/-- The letters that may stand before the quote of a string literal. -/
def isMarkers (cs : List Char) : Bool :=
  ["b", "r", "u", "f", "br", "rb", "fr", "rf"].contains (String.ofList (cs.map Char.toLower))

/-- A word, or the string literal that it marks. -/
def word? (cs : List Char) : Option (Token × List Char) :=
  let markers := (cs.take 2).takeWhile (fun c => "rRbBfFuU".toList.contains c)
  match cs.drop markers.length with
  | q :: rest =>
    if isMarkers markers && (q == '\x27' || q == '\x22') then string? markers q rest else plainWord cs
  | [] => plainWord cs
where
  plainWord (cs : List Char) : Option (Token × List Char) :=
    let w := cs.takeWhile isWordChar
    if isIdentifier w then some (name (.ofList w), cs.dropWhile isWordChar) else none

/-! ## Operators -/

def operators3 : List String := ["**=", "//=", "<<=", ">>=", "..."]

def operators2 : List String :=
  ["**", "//", "<<", ">>", "<=", ">=", "==", "!=", "->", ":=", "+=", "-=", "*=", "/=", "%=", "&=", "|=", "^=", "@="]

def operators1 : List Char := "()[]:,;+-*/|&<>=.%\x7b\x7d~^@".toList

/-- The longest operator at the beginning of `cs`. -/
def operator? (cs : List Char) : Option (String × List Char) :=
  match (operators3 ++ operators2).find? (fun op => op.toList.isPrefixOf cs) with
  | some op => some (op, cs.drop op.length)
  | none =>
    match cs with
    | c :: rest => if operators1.contains c then some (.singleton c, rest) else none
    | [] => none

/-- The bracket that a closing bracket closes. -/
def opening? : String → Option String
  | ")" => some "("
  | "]" => some "["
  | "\x7d" => some "\x7b"
  | _ => none

/-- The open brackets after an operator; none if it closes one that is not open. -/
def bracketsAfter? (open? : List String) (op : String) : Option (List String) :=
  if op == "(" || op == "[" || op == "\x7b" then some (op :: open?)
  else match opening? op with
    | none => some open?
    | some o => match open? with
      | o' :: outer => if o == o' then some outer else none
      | [] => none

/-! ## Lines -/

/-- The columns of an indentation, tab stops being eight apart or one, and what follows it. Where a line is continued,
the first part of its indentation that is not empty counts, which is `first`. -/
def indentation (first : Option Nat) (column narrow : Nat) : List Char → Nat × Nat × List Char
  | ' ' :: cs => indentation first (column + 1) (narrow + 1) cs
  | '\t' :: cs => indentation first ((column / 8 + 1) * 8) (narrow + 1) cs
  | '\x0c' :: cs => indentation first 0 0 cs
  | cs@('\\' :: '\n' :: rest) =>
    if rest.isEmpty then (first.getD column, first.getD narrow, cs)
    else indentation (first <|> if column == 0 then none else some column) column narrow rest
  | cs => (first.getD column, first.getD narrow, cs)

/-- The tokens of a change of indentation, and the open indentations after it. The two ways of counting columns must
agree on it. -/
def indentTokens? (column narrow : Nat) : List (Nat × Nat) → Option (List Token × List (Nat × Nat))
  | [] => if column == 0 then some ([], []) else some ([indent], [(column, narrow)])
  | (c, a) :: outer =>
    if column == c then if narrow == a then some ([], (c, a) :: outer) else none
    else if c < column then if a < narrow then some ([indent], (column, narrow) :: (c, a) :: outer) else none
    else shallower column narrow outer
where
  shallower (column narrow : Nat) : List (Nat × Nat) → Option (List Token × List (Nat × Nat))
    | [] => if column == 0 then some ([dedent], []) else none
    | (c, a) :: outer =>
      if column == c then if narrow == a then some ([dedent], (c, a) :: outer) else none
      else if c < column then none
      else (shallower column narrow outer).map fun (ts, open?) => (dedent :: ts, open?)

/-- Where the reader stands: at the beginning of a line or not, in which brackets and indentations. -/
structure Place where
  lineStart : Bool
  brackets : List String
  indents : List (Nat × Nat)

/-- Cuts `cs` into tokens in at most `fuel` steps. -/
def lexFrom? : Nat → Place → List Char → Option (List Token)
  | 0, _, _ => none
  | fuel + 1, place, cs =>
    if place.lineStart then
      let (column, narrow, rest) := indentation none 0 0 cs
      let inLine := { place with lineStart := false }
      match rest with
      | [] => if place.brackets.isEmpty then some (place.indents.map fun _ => dedent) else none
      | '\n' :: rest => lexFrom? fuel place rest
      | '#' :: rest => lexFrom? fuel place (rest.dropWhile (· ≠ '\n'))
      | rest =>
        if place.brackets.isEmpty then
          (indentTokens? column narrow place.indents).bind fun (ts, indents) =>
            (lexFrom? fuel { inLine with indents := indents } rest).map (ts ++ ·)
        else lexFrom? fuel inLine rest
    else
      match cs with
      | [] => if place.brackets.isEmpty then some (place.indents.map fun _ => dedent) else none
      | '\n' :: rest =>
        if place.brackets.isEmpty then
          (lexFrom? fuel { place with lineStart := true } rest).map (lineEnd :: ·)
        else lexFrom? fuel place rest
      | '#' :: rest => lexFrom? fuel place (rest.dropWhile (· ≠ '\n'))
      | '\\' :: '\n' :: c :: rest => lexFrom? fuel place (c :: rest)
      | c :: rest =>
        if c == ' ' || c == '\t' || c == '\x0c' then lexFrom? fuel place rest
        else if isAsciiDigit c || (c == '.' && (rest.head?.map isAsciiDigit).getD false) then
          (if c == '.' then fraction? [] rest else number? cs).bind fun (n, rest) =>
            (lexFrom? fuel place rest).map (number (.ofList n) :: ·)
        else if isWordChar c then
          (word? cs).bind fun (t, rest) => (lexFrom? fuel place rest).map (t :: ·)
        else if c == '\x27' || c == '\x22' then
          (string? [] c rest).bind fun (t, rest) => (lexFrom? fuel place rest).map (t :: ·)
        else
          (operator? cs).bind fun (op, rest) =>
            (bracketsAfter? place.brackets op).bind fun brackets =>
              (lexFrom? fuel { place with brackets := brackets } rest).map (operator op :: ·)

/-- The tokens of a text. A text of whole lines is completed by a line feed. -/
def lex? (wholeLines : Bool) (cs : List Char) : Option (List Token) :=
  let cs := unifyLineEnds cs
  let cs := if wholeLines && cs.getLast? ≠ some '\n' then cs ++ ['\n'] else cs
  lexFrom? (2 * cs.length + 2) ⟨true, [], []⟩ cs

end Token

end NestedSite.Template
