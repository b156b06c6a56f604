import NestedSite.Fault

/-!
# Tokens of YAML

A document is read as a sequence of tokens: marks of structure, properties of nodes, and the texts of scalars. Some
marks, such as the beginning and the end of a block, stand for the layout of the text and have no characters of their
own. `Progress` is how far the reading has come, and `Scan` a step of it.
-/

namespace NestedSite.Yaml

/-- What a directive line says. -/
inductive Directive where
  /-- The version of the notation, of which the first number counts. -/
  | version (major : Nat)
  /-- An abbreviation for tags. -/
  | tagHandle (handle leading : String)
  | other
  deriving Repr, DecidableEq

inductive Token where
  | directive (d : Directive)
  | documentStart
  | documentEnd
  | blockSequence
  | blockMapping
  | blockEnd
  | flowSequence
  | flowSequenceEnd
  | flowMapping
  | flowMappingEnd
  /-- The mark before an item of a block sequence. -/
  | item
  /-- The mark between the items of a flow collection. -/
  | comma
  | key
  | value
  | alias (name : String)
  | anchor (name : String)
  | tag (handle : Option String) (suffix : String)
  /-- The text of a scalar, and whether it stands without any mark. -/
  | scalar (text : String) (plain : Bool)
  deriving Repr, DecidableEq

/-! ## Characters -/

/-- A character that a document may hold. -/
def isAllowed (c : Char) : Bool :=
  let n := c.toNat
  n == 9 || n == 10 || n == 13 || (0x20 ≤ n && n ≤ 0x7e) || n == 0x85 || (0xa0 ≤ n && n ≤ 0xd7ff) ||
    (0xe000 ≤ n && n ≤ 0xfffd) || 0x10000 ≤ n

/-- A character that ends a line. -/
def isBreak (c : Char) : Bool := c == '\n' || c == '\r' || c == '\x85' || c == '\u2028' || c == '\u2029'

/-- The end of a line or of the text. -/
def isLineEnd : Option Char → Bool
  | none => true
  | some c => isBreak c

/-- A space, or the end of a line. -/
def isGap (c : Option Char) : Bool := c == some ' ' || isLineEnd c

/-- A space, a tab, or the end of a line. -/
def isBlank (c : Option Char) : Bool := c == some '\t' || isGap c

/-- A character of names of anchors, tag handles and directives. -/
def isNameChar (c : Char) : Bool :=
  ('a' ≤ c && c ≤ 'z') || ('A' ≤ c && c ≤ 'Z') || ('0' ≤ c && c ≤ '9') || c == '-' || c == '_'

/-- A character of tags. -/
def isTagChar (c : Char) : Bool := isNameChar c || ";/?:@&=+$,.!~*\x27()[]%".toList.contains c

/-! ## Progress -/

/-- A place where a key may turn out to have begun. -/
structure PossibleKey where
  /-- The number of tokens before it. -/
  token : Nat
  /-- Whether the text is malformed unless it is a key. -/
  required : Bool
  index : Nat
  line : Nat
  column : Nat
  deriving Repr

structure Progress where
  rest : List Char
  index : Nat := 0
  line : Nat := 0
  column : Nat := 0
  tokens : Array Token := #[]
  /-- How many flow collections are open. -/
  flow : Nat := 0
  /-- The column of the innermost open block; -1 if none is open. -/
  indent : Int := -1
  /-- Those of the blocks around it. -/
  outer : List Int := []
  /-- Whether a key may begin here. -/
  keyAllowed : Bool := true
  /-- The possible keys, one at most on each level of flow collections. -/
  keys : List (Nat × PossibleKey) := []

/-- A step of reading; a fault leaves the tokens that are read. -/
abbrev Scan := ExceptT Fault (StateM Progress)

/-- Moves over one character. A carriage return before a line feed ends no line by itself. -/
def Progress.next (p : Progress) : Progress :=
  match p.rest with
  | [] => p
  | c :: rest =>
    let p := { p with rest, index := p.index + 1 }
    if isBreak c && !(c == '\r' && rest.head? == some '\n') then { p with line := p.line + 1, column := 0 }
    else if c == '\ufeff' then p
    else { p with column := p.column + 1 }

namespace Scan

def malformed : Scan α := throw .malformedYaml

/-- The next character. -/
def peek : Scan (Option Char) := return (← get).rest.head?

/-- The character `n` places further on. -/
def peekAt (n : Nat) : Scan (Option Char) := return ((← get).rest.drop n).head?

def advance : Nat → Scan Unit
  | 0 => pure ()
  | n + 1 => do
    modify Progress.next
    advance n

/-- Takes the next `n` characters. -/
def take (n : Nat) : Scan (List Char) := do
  let cs := (← get).rest.take n
  advance cs.length
  return cs

def takeWhile (p : Char → Bool) : Scan (List Char) := do
  let cs := (← get).rest.takeWhile p
  advance cs.length
  return cs

def skipWhile (p : Char → Bool) : Scan Unit := do
  let _ ← takeWhile p

/-- Takes the end of a line. It counts as a line feed, unless it is one of the two separators of their own. -/
def lineBreak : Scan (List Char) := do
  match (← get).rest with
  | '\r' :: '\n' :: _ =>
    advance 2
    return ['\n']
  | c :: _ =>
    if !isBreak c then return []
    advance 1
    return if c == '\u2028' || c == '\u2029' then [c] else ['\n']
  | [] => return []

/-- More steps than any loop over the rest of the text takes. -/
def bound : Scan Nat := return (← get).rest.length + 1

def emit (t : Token) : Scan Unit := modify fun p => { p with tokens := p.tokens.push t }

def inFlow : Scan Bool := return (← get).flow != 0

def allowKey (b : Bool) : Scan Unit := modify fun p => { p with keyAllowed := b }

/-- Skips what may stand after the last item of a line, a remark included; the line must end then. -/
def endLine : Scan Unit := do
  skipWhile (· == ' ')
  if (← peek) == some '#' then skipWhile (!isBreak ·)
  if !isLineEnd (← peek) then malformed
  let _ ← lineBreak

/-- Whether a line that separates documents begins here. -/
def atSeparator : Scan Bool := do
  let cs := (← get).rest
  return ("---".toList.isPrefixOf cs || "...".toList.isPrefixOf cs) && isBlank (cs.drop 3).head?

end Scan

end NestedSite.Yaml
