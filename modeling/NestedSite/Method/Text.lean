import NestedSite.Method.Arguments
import NestedSite.Text.Case
import NestedSite.Text.Coding
import NestedSite.Text.Identifier
import NestedSite.Text.Letter
import NestedSite.Text.Search

/-!
# Methods of texts

The methods that look at a text as a whole come in tables (`textTest?`, `textMap?`); the others read their arguments
one by one. No method changes its text.
-/

namespace NestedSite

open Text

/-- A test of all characters of a text. -/
def textTest? : String → Option (List Char → Bool)
  | "isalnum" => some fun cs => !cs.isEmpty && cs.all isAlphanumeric
  | "isalpha" => some fun cs => !cs.isEmpty && cs.all isLetter
  | "isascii" => some fun cs => cs.all fun c => c.toNat < 128
  | "isdecimal" => some fun cs => !cs.isEmpty && cs.all isDecimal
  | "isdigit" => some fun cs => !cs.isEmpty && cs.all isDigit
  | "isidentifier" => some isIdentifier
  | "islower" => some allLower
  | "isnumeric" => some fun cs => !cs.isEmpty && cs.all isNumeral
  | "isprintable" => some fun cs => cs.all isPrintable
  | "isspace" => some fun cs => !cs.isEmpty && cs.all isBlank
  | "istitle" => some allTitle
  | "isupper" => some allUpper
  | _ => none

/-- A change of all characters of a text. -/
def textMap? : String → Option (List Char → List Char)
  | "capitalize" => some capitalized
  | "casefold" => some foldAll
  | "lower" => some lowerAll
  | "swapcase" => some swapAll
  | "title" => some titleAll
  | "upper" => some upperAll
  | _ => none

/-- The names of the methods of texts. -/
def textMethods : List String :=
  ["capitalize", "casefold", "center", "count", "encode", "endswith", "expandtabs", "find", "index", "isalnum",
    "isalpha", "isascii", "isdecimal", "isdigit", "isidentifier", "islower", "isnumeric", "isprintable", "isspace",
    "istitle", "isupper", "join", "ljust", "lower", "lstrip", "maketrans", "partition", "removeprefix",
    "removesuffix", "replace", "rfind", "rindex", "rjust", "rpartition", "rsplit", "rstrip", "split", "splitlines",
    "startswith", "strip", "swapcase", "title", "translate", "upper", "zfill"]

namespace TextMethod

/-- A bound of a search: its place counts from the end if it is negative. -/
def bound (length : Nat) (n : Int) : Nat :=
  (max 0 (if n < 0 then n + length else n)).toNat

/-- Where a search begins, and the characters that it goes through; none if it begins behind its end. -/
def window? (cs : List Char) (start stop : Option Int) : Option (Nat × List Char) :=
  let n := cs.length
  let first := (start.map (bound n)).getD 0
  let last := min n ((stop.map (bound n)).getD n)
  if last < first then none else some (first, (cs.take last).drop first)

/-- A bound that is given as a value. -/
def boundOf : Option Value → Run (Option Int)
  | none => return none
  | some v => Run.bound? v

/-- A text that may be missing or nothing. -/
def textOf? : Option Value → Run (Option (List Char))
  | none | some .none => return none
  | some (.text t) => return some t.toList
  | _ => wrongType

/-- How often something may be done: a negative number means always. -/
def limitOf : Option Value → Run (Option Nat)
  | none => return none
  | some v => do
    let n ← Run.expectSize v
    return if n < 0 then none else some n.toNat

/-- Where a part is found, from the front or from the end. -/
def find (cs : List Char) (args : Arguments) (fromEnd : Bool) : Run (Option Nat) := do
  match ← args.assign (.positional ["sub"] ["start", "end"]) with
  | [some sub, start, stop] =>
    let part ← Run.expectText sub
    let start ← boundOf start
    let stop ← boundOf stop
    match window? cs start stop with
    | none => return none
    | some (first, window) =>
      let at? := if fromEnd then lastIndexOf? part.toList window else indexOf? part.toList window
      return at?.map (· + first)
  | _ => wrongType

/-- Whether a text begins or ends with a part, or with one of the parts of a tuple. -/
def borders (cs : List Char) (args : Arguments) (atEnd : Bool) : Run Value := do
  match ← args.assign (.positional ["part"] ["start", "end"]) with
  | [some part, start, stop] =>
    let start ← boundOf start
    let stop ← boundOf stop
    let has := fun (part : String) =>
      match window? cs start stop with
      | none => false
      | some (_, window) => if atEnd then part.toList.isSuffixOf window else part.toList.isPrefixOf window
    match part with
    | .text part => return .bool (has part)
    | .tuple parts => anyOf has parts
    | _ => wrongType
  | _ => wrongType
where
  anyOf (has : String → Bool) : List Value → Run Value
    | [] => return .bool false
    | .text part :: rest => if has part then return .bool true else anyOf has rest
    | _ :: _ => wrongType

/-- Fills a text up on its left, its right or both sides. -/
def justify (cs : List Char) (args : Arguments) (leftOf : Nat → Nat → Nat) : Run Value := do
  match ← args.assign (.positional ["width"] ["fillchar"]) with
  | [some width, fill] =>
    let width ← Run.expectSize width
    let fill ← match fill with
      | none => pure ' '
      | some (.text t) => match t.toList with
        | [c] => pure c
        | _ => wrongType
      | _ => wrongType
    Run.read fun _ => checkSize width.toNat
    let missing := width.toNat - cs.length
    let left := leftOf missing width.toNat
    return .text (.ofList (List.replicate left fill ++ cs ++ List.replicate (missing - left) fill))
  | _ => wrongType

/-- Takes characters off the ends: blanks, or those of a given text. -/
def stripped (cs : List Char) (args : Arguments) (cut : (Char → Bool) → List Char → List Char) : Run Value := do
  match ← args.assign (.positional [] ["chars"]) with
  | [chars] =>
    match ← textOf? chars with
    | none => return .text (.ofList (cut isBlank cs))
    | some set => return .text (.ofList (cut set.contains cs))
  | _ => wrongType

/-- Cuts a text into a list. -/
def cuts (cs : List Char) (args : Arguments) (fromEnd : Bool) : Run Value := do
  match ← args.assign (.free [] ["sep", "maxsplit"]) with
  | [sep, limit] =>
    let sep ← textOf? sep
    let limit ← limitOf limit
    let pieces ← match sep with
      | none => pure (if fromEnd then wordsEnd limit cs else words limit cs)
      | some [] => throw .badValue
      | some part => pure (if fromEnd then splitOnPartEnd part limit cs else splitOnPart part limit [] cs)
    Run.newList (pieces.map fun p => .text (.ofList p))
  | _ => wrongType

/-- Cuts a text at the first or the last place of a part into three. -/
def parted (cs : List Char) (args : Arguments) (fromEnd : Bool) : Run Value := do
  match ← args.exactly 1 with
  | [.text sep] =>
    let part := sep.toList
    if part.isEmpty then throw .badValue
    let triple := fun (a b c : List Char) => Value.tuple ([a, b, c].map fun cs => .text (.ofList cs))
    match if fromEnd then lastIndexOf? part cs else indexOf? part cs with
    | some n => return triple (cs.take n) part (cs.drop (n + part.length))
    | none => return if fromEnd then triple [] [] cs else triple cs [] []
  | _ => wrongType

/-- Puts blanks for the tabs, up to the next multiple of `size`; `column` counts from the last line end. -/
def expanded (size : Nat) : Nat → List Char → List Char
  | _, [] => []
  | column, '\t' :: cs =>
    if size == 0 then expanded size column cs
    else
      let n := size - column % size
      List.replicate n ' ' ++ expanded size (column + n) cs
  | column, c :: cs => c :: expanded size (if c == '\n' || c == '\r' then 0 else column + 1) cs

/-- Fills up with zeros between the sign and the digits. -/
def zeroFilled (cs : List Char) (width : Nat) : List Char :=
  let missing := List.replicate (width - cs.length) '0'
  match cs with
  | c :: rest => if c == '+' || c == '-' then c :: missing ++ rest else missing ++ cs
  | [] => missing

/-- Joins texts. -/
def joined (sep : List Char) : List Value → Run (List (List Char))
  | [] => return []
  | [.text t] => return [t.toList]
  | .text t :: rest => return t.toList :: sep :: (← joined sep rest)
  | _ :: _ => wrongType

/-- The character for a code point, if there is one. -/
def character? (n : Int) : Option Char := if 0 ≤ n && n ≤ 0x10ffff then some (Char.ofNat n.toNat) else none

/-- What a table puts for a character; a character that the table does not have stays. -/
def mapped (table : Value) : List Char → Run (List (List Char))
  | [] => return []
  | c :: cs => do
    let image ← try some <$> Run.subscript table (.int c.toNat) catch e =>
      match e with
      | .missingKey | .missingIndex => pure none
      | e => throw e
    let written ← match image with
      | none => pure [c]
      | some .none => pure []
      | some (.text t) => pure t.toList
      | some v => match v.int?.map character? with
        | some (some d) => pure [d]
        | some none => throw .badValue
        | none => wrongType
    return written :: (← mapped table cs)

/-- A table from code points to what is put for them. -/
def table (args : Arguments) : Run Value := do
  let code := fun (k : Value) => match k with
    | .text t => match t.toList with
      | [c] => pure (Value.int c.toNat)
      | _ => throw Fault.badValue
    | .int n => pure (.int n)
    | .bool b => pure (.int (if b then 1 else 0))
    | _ => wrongType
  match ← args.assign (.positional ["x"] ["y", "z"]) with
  | [some (.dict p), none, none] =>
    let entries ← (← Run.dict p).mapM fun (k, v) => do
      let k ← (code k : Run Value)
      return (k, v)
    Run.newDict (Entries.merge [] entries)
  | [some (.text x), some (.text y), z] =>
    if x.length != y.length then throw .badValue
    let pairs := (x.toList.zip y.toList).map fun (a, b) => (Value.int a.toNat, Value.int b.toNat)
    let removed ← match z with
      | none => pure []
      | some (.text z) => pure (z.toList.map fun c => (Value.int c.toNat, Value.none))
      | _ => wrongType
    Run.newDict (Entries.merge [] (pairs ++ removed))
  | _ => wrongType

/-- The names of the encoding and of the remedy. -/
def codingNames (args : Arguments) : Run (String × Remedy) := do
  match ← args.assign (.free [] ["encoding", "errors"]) with
  | [name, errors] =>
    let name ← match name with
      | none => pure "utf-8"
      | some v => Run.expectText v
    let errors ← match errors with
      | none => pure "strict"
      | some v => Run.expectText v
    return (name, .ofName errors)
  | _ => wrongType

/-- The encoding of a name. -/
def codingNamed (name : String) : Run Coding :=
  match Coding.ofName? name with
  | some c => return c
  | none => throw .missingCodec

end TextMethod

namespace Run

open TextMethod

/-- Calls a method of a text. -/
def callText (t name : String) (args : Arguments) : Run Value := do
  let cs := t.toList
  let ofChars := fun (cs : List Char) => Value.text (.ofList cs)
  match textTest? name, textMap? name with
  | some test, _ => discard <| args.exactly 0; return .bool (test cs)
  | _, some map => discard <| args.exactly 0; return ofChars (map cs)
  | none, none =>
    match name with
    | "center" => justify cs args fun missing width => missing / 2 + missing % 2 * (width % 2)
    | "ljust" => justify cs args fun _ _ => 0
    | "rjust" => justify cs args fun missing _ => missing
    | "count" =>
      match ← args.assign (.positional ["sub"] ["start", "end"]) with
      | [some sub, start, stop] =>
        let part ← expectText sub
        let start ← boundOf start
        let stop ← boundOf stop
        match window? cs start stop with
        | none => return .int 0
        | some (_, window) => return .int (occurrences part.toList window)
      | _ => wrongType
    | "encode" =>
      let (name, remedy) ← codingNames args
      match encode? (← codingNamed name) remedy cs with
      | some bs => return .bytes bs
      | none => throw (if remedy == .unknown then .missingCodec else .unencodable)
    | "endswith" => borders cs args true
    | "startswith" => borders cs args false
    | "expandtabs" =>
      match ← args.assign (.free [] ["tabsize"]) with
      | [size] =>
        let size ← match size with
          | none => pure 8
          | some v => expectSize v
        return ofChars (expanded size.toNat 0 cs)
      | _ => wrongType
    | "find" => return .int (((← find cs args false).map Int.ofNat).getD (-1))
    | "rfind" => return .int (((← find cs args true).map Int.ofNat).getD (-1))
    | "index" =>
      match ← find cs args false with
      | some n => return .int n
      | none => throw .badValue
    | "rindex" =>
      match ← find cs args true with
      | some n => return .int n
      | none => throw .badValue
    | "join" =>
      match ← args.exactly 1 with
      | [v] => return ofChars (← joined cs (← items v)).flatten
      | _ => wrongType
    | "strip" => stripped cs args trim
    | "lstrip" => stripped cs args List.dropWhile
    | "rstrip" => stripped cs args dropEndWhile
    | "maketrans" => table args
    | "partition" => parted cs args false
    | "rpartition" => parted cs args true
    | "removeprefix" =>
      match ← args.exactly 1 with
      | [.text part] => return ofChars ((dropPrefix? part.toList cs).getD cs)
      | _ => wrongType
    | "removesuffix" =>
      match ← args.exactly 1 with
      | [.text part] =>
        return ofChars (((dropPrefix? part.toList.reverse cs.reverse).map List.reverse).getD cs)
      | _ => wrongType
    | "replace" =>
      match ← args.assign (.positional ["old", "new"] ["count"]) with
      | [some old, some new, count] =>
        let old ← expectText old
        let new ← expectText new
        return ofChars (replaceAll old.toList new.toList (← limitOf count) cs)
      | _ => wrongType
    | "split" => cuts cs args false
    | "rsplit" => cuts cs args true
    | "splitlines" =>
      match ← args.assign (.free [] ["keepends"]) with
      | [keep] =>
        let keep ← match keep with
          | none => pure false
          | some v => pure ((← expectInt v) != 0)
        newList ((lines keep cs).map ofChars)
      | _ => wrongType
    | "translate" =>
      match ← args.exactly 1 with
      | [v] => return ofChars (← mapped v cs).flatten
      | _ => wrongType
    | "zfill" =>
      match ← args.exactly 1 with
      | [v] =>
        let width ← expectSize v
        Run.read fun _ => checkSize width.toNat
        return ofChars (zeroFilled cs width.toNat)
      | _ => wrongType
    | _ => wrongType

/-- The names of the methods of bytes. -/
def bytesMethods : List String := ["decode", "hex"]

/-- Calls a method of bytes. -/
def callBytes (bs : List UInt8) (name : String) (args : Arguments) : Run Value := do
  match name with
  | "decode" =>
    let (name, remedy) ← codingNames args
    if bs.isEmpty then return .text ""
    match decode? (← codingNamed name) remedy bs with
    | some t => return .text t
    | none => throw (if remedy == .unknown then .missingCodec else .undecodable)
  | "hex" =>
    discard <| args.exactly 0
    return .text (.ofList (bs.flatMap fun b => hexDigits 2 b.toNat))
  | _ => wrongType

end Run

end NestedSite
