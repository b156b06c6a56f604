import NestedSite.Format.Spec
import NestedSite.Value.Iteration

/-!
# Filling in a pattern

`Store.fillIn` puts values into a text at its `%` directives, such as `%s`, `%05.1f` or `%(key)d`. The values are the
items of a tuple, one after the other, the values of a mapping by their keys, or a single value. `Store.fillInBytes`
does the same for bytes, with a character in the place of each.
-/

namespace NestedSite

open Number Text

namespace Percent

/-- Where the values of the directives come from. -/
structure Source where
  /-- The values not yet used. -/
  rest : List Value
  /-- The mapping, or other container, whose values are named by keys. -/
  keyed : Option Value
  /-- Whether bytes are written. -/
  bytes : Bool
  deriving Inhabited

/-- A directive: its flags, width, precision and type. -/
structure Directive where
  left : Bool := false
  plus : Bool := false
  space : Bool := false
  alternate : Bool := false
  zero : Bool := false
  width : Nat := 0
  precision : Option Nat := none
  kind : Char := 's'

/-- The characters that stand for bytes. -/
def charsOf (bs : List UInt8) : List Char := bs.map fun b => Char.ofNat b.toNat

/-- The bytes that characters stand for. -/
def bytesOf (cs : List Char) : List UInt8 := cs.map fun c => UInt8.ofNat c.toNat

abbrev Fill := StateT Source (Except Fault)

/-- The next value. -/
def next : Fill Value := do
  match (← get).rest with
  | v :: rest => modify fun s => { s with rest }; return v
  | [] => throw .wrongType

/-- The key in parentheses, which may hold balanced parentheses itself, and what follows it. -/
def key? : Nat → List Char → Option (List Char × List Char)
  | _, [] => none
  | depth, '(' :: cs => (key? (depth + 1) cs).map fun (k, r) => ('(' :: k, r)
  | 0, ')' :: cs => some ([], cs)
  | depth + 1, ')' :: cs => (key? depth cs).map fun (k, r) => (')' :: k, r)
  | depth, c :: cs => (key? depth cs).map fun (k, r) => (c :: k, r)

def flags (d : Directive) : List Char → Directive × List Char
  | '-' :: cs => flags { d with left := true } cs
  | '+' :: cs => flags { d with plus := true } cs
  | ' ' :: cs => flags { d with space := true } cs
  | '#' :: cs => flags { d with alternate := true } cs
  | '0' :: cs => flags { d with zero := true } cs
  | cs => (d, cs)

/-- A number below `limit` written in digits, or `*` for the next value. -/
def number (limit : Nat) (cs : List Char) : Fill (Option Int × List Char) := do
  match cs with
  | '*' :: rest =>
    match (← next).int? with
    | some n => if n.natAbs < limit then return (some n, rest) else throw .overflow
    | none => throw .wrongType
  | cs =>
    let digits := cs.takeWhile isAsciiDigit
    let n : Nat := digits.foldl (fun n c => 10 * n + (c.toNat - 48)) 0
    if limit ≤ n then throw .badValue
    return (if digits.isEmpty then none else some (n : Int), cs.drop digits.length)

/-- Fills up to the width. -/
def Directive.pad (d : Directive) (body : List Char) : List Char :=
  let missing := List.replicate (d.width - body.length) ' '
  if d.left then body ++ missing else missing ++ body

/-- Puts a number together and fills up to the width, with zeros behind the sign if they are asked for. -/
def Directive.padNumber (d : Directive) (negative : Bool) (mark body : List Char) : List Char :=
  let sign := if negative then ['-'] else if d.plus then ['+'] else if d.space then [' '] else []
  let missing := d.width - (sign.length + mark.length + body.length)
  if d.zero && !d.left then sign ++ mark ++ zeros missing ++ body
  else d.pad (sign ++ mark ++ body)

/-- The whole number that a directive for whole numbers writes; those for other bases take no fractions. -/
def wholeNumber (kind : Char) (v : Value) : Except Fault Int :=
  match v.int? with
  | some n => pure n
  | none =>
    match v with
    | .float x =>
      if ['x', 'X', 'o'].contains kind then throw .wrongType
      else match truncate? x with
        | some n => pure n
        | none => throw (if x.isNaN then .badValue else .overflow)
    | _ => throw .wrongType

def writeInt (d : Directive) (n : Int) : Except Fault (List Char) := do
  let base := if d.kind == 'x' || d.kind == 'X' then 16 else if d.kind == 'o' then 8 else 10
  if base == 10 then discard <| intText n
  let digits := Nat.toDigits base n.natAbs
  let digits := if d.kind == 'X' then digits.map Char.toUpper else digits
  let precision := d.precision.getD 0
  if twoTo 31 ≤ precision + 4 then throw .overflow
  checkSize precision
  let digits := zeros (precision - digits.length) ++ digits
  let mark := if d.alternate && base != 10 then ['0', d.kind] else []
  return d.padNumber (n < 0) mark digits

def writeFloat (d : Directive) (x : Float) : Except Fault (List Char) := do
  let precision := d.precision.getD 6
  checkSize precision
  let layout := if d.kind == 'e' || d.kind == 'E' then Layout.scientific
    else if d.kind == 'f' || d.kind == 'F' then .fixed else .general
  let options : Layout.Options :=
    { precision, alternate := d.alternate, marked := false
      upper := d.kind == 'E' || d.kind == 'F' || d.kind == 'G' }
  return d.padNumber (isNegative x) [] (layout.text options x)

/-- What a directive for texts writes; where bytes are written, only bytes are texts. -/
def textOf (s : Store) (bytes : Bool) (v : Value) : Except Fault (List Char) :=
  if bytes then
    match v with
    | .bytes bs => pure (charsOf bs)
    | _ => throw .wrongType
  else String.toList <$> s.text v

/-- The single character that a value is, or is the number of. -/
def characterOf (bytes : Bool) (v : Value) : Except Fault Char :=
  let single := fun
    | [c] => pure c
    | _ => throw Fault.wrongType
  match v, bytes with
  | .text t, false => single t.toList
  | .bytes bs, true => single (charsOf bs)
  | v, _ =>
    match v.int? with
    | some n =>
      let limit := if bytes then 0xff else 0x10ffff
      if 0 ≤ n && n ≤ limit then pure (Char.ofNat n.toNat) else throw .overflow
    | none => throw .wrongType

/-- Writes a value as a directive asks. -/
def write (s : Store) (bytes : Bool) (d : Directive) (v : Value) : Except Fault (List Char) := do
  let cut := fun (cs : List Char) => d.pad (match d.precision with
    | some n => cs.take n
    | none => cs)
  match d.kind, bytes with
  | 's', _ | 'b', true => return cut (← textOf s bytes v)
  | 'r', false => return cut (← s.show v).toList
  | 'r', true | 'a', _ => return cut (asciiEscaped (← s.show v)).toList
  | 'c', _ => return d.pad [← characterOf bytes v]
  | k, _ =>
    if ['d', 'i', 'u', 'x', 'X', 'o'].contains k then writeInt d (← wholeNumber k v)
    else if ['e', 'E', 'f', 'F', 'g', 'G'].contains k then
      match v with
      | .float x => writeFloat d x
      | v => match v.int? with
        | some n => writeFloat d (← FormatSpec.floatOfInt n)
        | none => throw .wrongType
    else throw .badValue

/-- What stands after a `%`, which is itself another `%`, or a directive: the text for it, and what follows. -/
def directive (s : Store) (cs : List Char) : Fill (List Char × List Char) := do
  if cs.head? == some '%' then return (['%'], cs.drop 1)
  let cs ← match cs with
    | '(' :: rest =>
      match (← get).keyed with
      | none => throw .wrongType
      | some container =>
        match key? 0 rest with
        | none => throw .badValue
        | some (k, rest) =>
          match container with
          | .dict p =>
            let key := if (← get).bytes then Value.bytes (bytesOf k) else .text (.ofList k)
            match (s.dict p).find? key with
            | some v => modify fun st => { st with rest := [v] }
            | none => throw .missingKey
          | _ => throw .wrongType
          pure rest
    | cs => pure cs
  let (d, cs) := flags {} cs
  let (width, cs) ← number (twoTo 63) cs
  let d := match width with
    | some w => if w < 0 then { d with left := true, width := w.natAbs } else { d with width := w.natAbs }
    | none => d
  let (d, cs) ← match cs with
    | '.' :: rest => do
      let (n, cs) ← number (twoTo 31) rest
      pure ({ d with precision := some ((n.getD 0).toNat) }, cs)
    | cs => pure (d, cs)
  let cs := match cs with
    | c :: rest => if c == 'h' || c == 'l' || c == 'L' then rest else cs
    | [] => cs
  match cs with
  | [] => throw .badValue
  | k :: rest =>
    let v ← next
    checkSize d.width
    return (← write s (← get).bytes { d with kind := k } v, rest)

/-- Fills in the rest of a pattern; `fuel` bounds its length. -/
def fill (s : Store) : Nat → List Char → Fill (List Char)
  | 0, _ | _, [] => return []
  | fuel + 1, c :: cs => do
    if c == '%' then
      let (text, rest) ← directive s cs
      return text ++ (← fill s fuel rest)
    else return c :: (← fill s fuel cs)

/-- Fills in a pattern. All items of a tuple, and a single value that is no container, must be used. -/
def fillAll (s : Store) (bytes : Bool) (pattern : List Char) (v : Value) : Except Fault (List Char) := do
  let container := match v with
    | .dict _ | .list _ | .range .. => true
    | .bytes _ => !bytes
    | _ => false
  let source : Source := match v with
    | .tuple vs => ⟨vs, none, bytes⟩
    | v => ⟨[v], if container then some v else none, bytes⟩
  let (written, left) ← (fill s pattern.length pattern).run source
  if !left.rest.isEmpty && left.keyed.isNone then throw .wrongType
  return written

end Percent

/-- Puts values into the text `pattern`. -/
def Store.fillIn (s : Store) (pattern : String) (v : Value) : Except Fault String :=
  String.ofList <$> Percent.fillAll s false pattern.toList v

/-- Puts values into the bytes `pattern`. -/
def Store.fillInBytes (s : Store) (pattern : List UInt8) (v : Value) : Except Fault (List UInt8) :=
  Percent.bytesOf <$> Percent.fillAll s true (Percent.charsOf pattern) v

end NestedSite
