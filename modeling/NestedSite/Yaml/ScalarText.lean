import NestedSite.Text.CharSet
import NestedSite.Text.Code
import NestedSite.Yaml.Token

/-!
# The texts of scalars

The text of a scalar is written plainly, within quotes, or as a block of lines. In the first two ways, and in a folded
block, a single line end between two lines counts as a space, and of several the first one is dropped.
-/

namespace NestedSite.Yaml.Scan

open NestedSite.Text

/-- Lines put together: `first` ends the line before, and `breaks` are the empty lines after it. -/
def fold (first breaks : List Char) : List Char :=
  if first != ['\n'] then first ++ breaks else if breaks.isEmpty then [' '] else breaks

/-! ## Quoted scalars -/

/-- The empty lines within a quoted scalar, and the blanks before its next line. -/
def quotedBreaks : Nat → Scan (List Char)
  | 0 => return []
  | n + 1 => do
    if ← atSeparator then malformed
    skipWhile fun c => c == ' ' || c == '\t'
    let first ← lineBreak
    if first.isEmpty then return [] else return first ++ (← quotedBreaks n)

/-- Blanks within a quoted scalar. -/
def quotedBlanks : Scan (List Char) := do
  let blanks ← takeWhile fun c => c == ' ' || c == '\t'
  match ← peek with
  | none => malformed
  | some c =>
    if !isBreak c then return blanks
    let first ← lineBreak
    return fold first (← quotedBreaks (← bound))

/-- The character that a single letter or mark escapes. -/
def escaped? (c : Char) : Option Nat :=
  if c == '\x22' || c == '\\' || c == '/' || c == ' ' || c == '\t' then some c.toNat
  else if c == '0' then some 0
  else if c == 'a' then some 7
  else if c == 'b' then some 8
  else if c == 't' then some 9
  else if c == 'n' then some 10
  else if c == 'v' then some 11
  else if c == 'f' then some 12
  else if c == 'r' then some 13
  else if c == 'e' then some 27
  else if c == 'N' then some 0x85
  else if c == '_' then some 0xa0
  else if c == 'L' then some 0x2028
  else if c == 'P' then some 0x2029
  else none

/-- How many digits follow the letter of a numeric escape. -/
def escapeDigits? (c : Char) : Option Nat :=
  if c == 'x' then some 2 else if c == 'u' then some 4 else if c == 'U' then some 8 else none

/-- The code points that an escape stands for, after its backslash. -/
def escape : Scan (List Nat) := do
  match ← peek with
  | none => malformed
  | some c =>
    if let some n := escaped? c then
      advance 1
      return [n]
    if let some count := escapeDigits? c then
      advance 1
      let digits := (← get).rest.take count
      if digits.length != count || digits.any (fun d => (hexDigit? d).isNone) then malformed
      let n := hexValue (.ofList digits)
      if 0x80000000 ≤ n then throw .overflow
      if 0x110000 ≤ n then throw .badValue
      advance count
      return [n]
    if !isBreak c then malformed
    let _ ← lineBreak
    return (← quotedBreaks (← bound)).map Char.toNat

/-- The code points of a quoted scalar up to the next blank or the closing quote. -/
def quotedWord (double : Bool) : Nat → Scan (List Nat)
  | 0 => return []
  | n + 1 => do
    let plain ← takeWhile fun c =>
      !(c == '\x27' || c == '\x22' || c == '\\' || c == ' ' || c == '\t' || isBreak c)
    let codes := plain.map Char.toNat
    match ← peek with
    | none => return codes
    | some c =>
      if !double && c == '\x27' && (← peekAt 1) == some '\x27' then
        advance 2
        return codes ++ c.toNat :: (← quotedWord double n)
      else if (double && c == '\x27') || (!double && (c == '\x22' || c == '\\')) then
        advance 1
        return codes ++ c.toNat :: (← quotedWord double n)
      else if double && c == '\\' then
        advance 1
        let escaped ← escape
        return codes ++ escaped ++ (← quotedWord double n)
      else return codes

/-- Words and blanks in turn up to the closing quote. -/
def quotedRest (double : Bool) : Nat → Scan (List Nat)
  | 0 => return []
  | n + 1 => do
    let word ← quotedWord double (← bound)
    if (← peek) == some (if double then '\x22' else '\x27') then return word
    let blanks ← quotedBlanks
    return word ++ blanks.map Char.toNat ++ (← quotedRest double n)

/-- A quoted scalar. -/
def quotedScalar (double : Bool) : Scan Token := do
  advance 1
  let codes ← quotedRest double (← bound)
  advance 1
  return .scalar (.ofList (charsOfCodes codes)) false

/-! ## Plain scalars -/

/-- Whether a plain scalar ends before the first of these characters. -/
def endsPlain (flow : Bool) : List Char → Bool
  | [] => true
  | c :: rest =>
    isBlank (some c) || (flow && ",?[]\x7b\x7d".toList.contains c) ||
      (c == ':' && (isBlank rest.head? || (flow && (rest.head?.any fun d => ",[]\x7b\x7d".toList.contains d))))

/-- The length of a piece of a plain scalar. -/
def plainLength (flow : Bool) : List Char → Nat
  | [] => 0
  | c :: rest => if endsPlain flow (c :: rest) then 0 else plainLength flow rest + 1

/-- The empty lines within a plain scalar; none if the document ends there. -/
def plainBreaks : Nat → Scan (Option (List Char))
  | 0 => return some []
  | n + 1 => do
    if ← atSeparator then return none
    skipWhile (· == ' ')
    let first ← lineBreak
    if first.isEmpty then return some [] else return (← plainBreaks n).map (first ++ ·)

/-- What stands between two pieces of a plain scalar. -/
def plainBlanks : Scan (List Char) := do
  let blanks ← takeWhile (· == ' ')
  let first ← lineBreak
  if first.isEmpty then return blanks
  allowKey true
  match ← plainBreaks (← bound) with
  | some breaks => return fold first breaks
  | none => return []

/-- The pieces of a plain scalar, `blanks` standing before the next one. -/
def plainPieces (flow : Bool) (blanks : List Char) : Nat → Scan (List Char)
  | 0 => return []
  | n + 1 => do
    let p ← get
    let length := plainLength flow p.rest
    if p.rest.head? == some '#' || length == 0 then return []
    allowKey false
    let piece ← take length
    let next ← plainBlanks
    let p ← get
    if next.isEmpty || p.rest.head? == some '#' || (!flow && p.column < p.indent + 1) then return blanks ++ piece
    return blanks ++ piece ++ (← plainPieces flow next n)

def plainScalar : Scan Token := do
  return .scalar (.ofList (← plainPieces (← inFlow) [] (← bound))) true

/-! ## Block scalars -/

/-- What becomes of the line ends after the last line. -/
inductive Chomp where
  | strip | clip | keep
  deriving Repr, DecidableEq

/-- The sign of a block scalar's header. -/
def chomp? : Scan (Option Chomp) := do
  match ← peek with
  | some '+' =>
    advance 1
    return some .keep
  | some '-' =>
    advance 1
    return some .strip
  | _ => return none

/-- The digit of a block scalar's header. -/
def increment? : Scan (Option Nat) := do
  match ← peek with
  | some c =>
    if c == '0' then malformed
    if '1' ≤ c && c ≤ '9' then
      advance 1
      return some (c.toNat - 48)
    return none
  | none => return none

/-- The header of a block scalar: a sign and a digit in either order, both optional. -/
def blockHeader : Scan (Chomp × Option Nat) := do
  let first ← chomp?
  let increment ← increment?
  let chomp ← if first.isNone && increment.isSome then chomp? else pure first
  if !isGap (← peek) then malformed
  endLine
  return (chomp.getD .clip, increment)

/-- The empty lines before a block scalar's first line, and the widest indentation among them. -/
def leadingBreaks (widest : Nat) : Nat → Scan (List Char × Nat)
  | 0 => return ([], widest)
  | n + 1 => do
    match ← peek with
    | some ' ' =>
      advance 1
      leadingBreaks (max widest (← get).column) n
    | _ =>
      let first ← lineBreak
      if first.isEmpty then return ([], widest)
      let (breaks, widest) ← leadingBreaks widest n
      return (first ++ breaks, widest)

/-- Moves to a column over spaces. -/
def indentTo (indent : Nat) : Nat → Scan Unit
  | 0 => return
  | n + 1 => do
    if (← get).column < indent && (← peek) == some ' ' then
      advance 1
      indentTo indent n

/-- The empty lines before the next line of a block scalar. -/
def blockBreaks (indent : Nat) : Nat → Scan (List Char)
  | 0 => return []
  | n + 1 => do
    indentTo indent indent
    let first ← lineBreak
    if first.isEmpty then return [] else return first ++ (← blockBreaks indent n)

/-- The lines of a block scalar, and the line ends after the last one: its own and those of empty lines. -/
def blockLines (folded : Bool) (indent : Nat) (breaks : List Char) :
    Nat → Scan (List Char × List Char × List Char)
  | 0 => return ([], [], [])
  | n + 1 => do
    let atLine := return (← get).column == indent && (← peek).isSome
    if !(← atLine) then return ([], [], breaks)
    let startsPlain := fun (c : Option Char) => c != some ' ' && c != some '\t'
    let plain := startsPlain (← peek)
    let line ← takeWhile (!isBreak ·)
    let first ← lineBreak
    let next ← blockBreaks indent (← bound)
    if !(← atLine) then return (breaks ++ line, first, next)
    let joint :=
      if folded && first == ['\n'] && plain && startsPlain (← peek) then if next.isEmpty then [' '] else []
      else first
    let (rest, last, trailing) ← blockLines folded indent next n
    return (breaks ++ line ++ joint ++ rest, last, trailing)

def blockScalar (folded : Bool) : Scan Token := do
  advance 1
  let (chomp, increment) ← blockHeader
  let least := max (((← get).indent + 1).toNat) 1
  let (breaks, indent) ←
    match increment with
    | none =>
      let (breaks, widest) ← leadingBreaks 0 (← bound)
      pure (breaks, max least widest)
    | some n =>
      let indent := least + n - 1
      pure (← blockBreaks indent (← bound), indent)
  let (lines, last, trailing) ← blockLines folded indent breaks (← bound)
  let tail := match chomp with
    | .strip => []
    | .clip => last
    | .keep => last ++ trailing
  return .scalar (.ofList (lines ++ tail)) false

end NestedSite.Yaml.Scan
