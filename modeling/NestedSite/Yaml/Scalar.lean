import NestedSite.Method.Number
import NestedSite.Pattern.Replacement
import NestedSite.Text.Base64
import NestedSite.Text.Case
import NestedSite.Yaml.Tag

/-!
# The values of scalars

What the text of a scalar means under each tag. Numbers may have underscores between digits, and be written in parts
that colons separate, each worth sixty of the next. A text that does not fit its tag is a fault of the tag's own.
-/

namespace NestedSite.Yaml.Scalar

open NestedSite.Text NestedSite.Number

def bool (text : String) : Except Fault Bool :=
  let word := String.ofList (lowerAll text.toList)
  if ["yes", "true", "on"].contains word then return true
  else if ["no", "false", "off"].contains word then return false
  else throw .missingKey

/-- A number without its underscores: whether it is negative, and what follows the sign. -/
def signed (cs : List Char) : Except Fault (Bool × List Char) :=
  match cs.filter (· != '_') with
  | [] => throw .missingIndex
  | '-' :: cs => return (true, cs)
  | '+' :: cs => return (false, cs)
  | cs => return (false, cs)

/-- The parts of a number in base 60. -/
def parts (cs : List Char) : List String := (splitOnPart [':'] none [] cs).map String.ofList

def int (text : String) : Except Fault Int := do
  let (negative, cs) ← signed text.toList
  let magnitude ← match cs with
    | [] => throw .missingIndex
    | ['0'] => pure 0
    | '0' :: 'b' :: digits => readInt 2 (.ofList digits)
    | '0' :: 'x' :: digits => readInt 16 (.ofList digits)
    | '0' :: _ => readInt 8 (.ofList cs)
    | _ =>
      if cs.contains ':' then do
        let digits ← (parts cs).mapM (readInt 10)
        pure (digits.foldl (fun n d => 60 * n + d) 0)
      else readInt 10 (.ofList cs)
  return if negative then -magnitude else magnitude

/-- The sum of parts, the last of which is worth 1. -/
def sexagesimal (digits : List Float) : Float :=
  (digits.reverse.foldl (fun (sum, base) d => (sum + d * nearestInt base, 60 * base)) ((0 : Float), (1 : Int))).1

def float (text : String) : Except Fault Float := do
  let (negative, cs) ← signed (lowerAll text.toList)
  let magnitude ←
    if cs == ".inf".toList then pure Binary.infinity
    else if cs == ".nan".toList then pure Binary.notANumber
    else if cs.contains ':' then sexagesimal <$> (parts cs).mapM readFloat
    else readFloat (.ofList cs)
  return if negative then -magnitude else magnitude

def binary (text : String) : Except Fault (List UInt8) :=
  match Base64.decode? text.toList with
  | some bytes => if text.toList.all fun c => c.toNat < 128 then return bytes else throw .malformedYaml
  | none => throw .malformedYaml

/-! ## Times -/

/-- The parts of a time, as the groups of a pattern: year, month, day, hour, minute, second, fraction, distance from
universal time, its sign, its hours and its minutes. -/
def timestampParts : String :=
  "([0-9][0-9][0-9][0-9])-([0-9][0-9]?)-([0-9][0-9]?)" ++
    "(?:(?:[Tt]|[ \\t]+)([0-9][0-9]?):([0-9][0-9]):([0-9][0-9])(?:\\.([0-9]*))?" ++
    "(?:[ \\t]*(Z|([-+])([0-9][0-9]?)(?::([0-9][0-9]))?))?)?$"

/-- The texts of the groups of a pattern that matches from the beginning on. -/
def groups? (pattern text : String) : Option (Nat → Option (List Char)) :=
  match Pattern.parse pattern with
  | .error _ => none
  | .ok p =>
    let t := text.toList.toArray
    (p.matchAt? t false 0).map fun f i => (f.kept[i]?).join.map fun (a, b) => Pattern.between t a b

/-- A day, or a day and a time. -/
def timestamp (text : String) : Except Fault Value := do
  match groups? timestampParts text with
  | none => throw .missingAttribute
  | some group =>
    let number := fun (i : Nat) => ((group i).bind (natural? 10)).getD 0
    let date : Date := ⟨number 1, number 2, number 3⟩
    if (group 4).isNone then
      if date.isValid then return .date date else throw .badValue
    let digits := ((group 7).getD []).take 6
    let fraction := digits ++ List.replicate (6 - digits.length) '0'
    let ahead : Int := number 10 * 3600 + number 11 * 60
    let offset : Option Int := match group 9, group 8 with
      | some ['-'], _ => some (-ahead)
      | some _, _ => some ahead
      | none, some _ => some 0
      | none, none => none
    let moment : Moment := ⟨date, number 4, number 5, number 6, (natural? 10 fraction).getD 0, offset⟩
    if moment.isValid && ahead < 86400 then return .moment moment else throw .badValue

end NestedSite.Yaml.Scalar
