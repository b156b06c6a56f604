import NestedSite.Method.Arguments
import NestedSite.Number.Reading
import NestedSite.Text.Blank

/-!
# Methods of numbers, and numbers read from texts

Whole numbers are read in any base (`readInt`) and floating-point numbers in decimal notation (`readFloat`), both with
blanks around them, digits of any script, and underscores between digits.
-/

namespace NestedSite

open Number Text

/-! ## Reading -/

/-- The base that a mark such as `0x` names. -/
def markedBase? : Char → Option Nat
  | 'x' | 'X' => some 16
  | 'o' | 'O' => some 8
  | 'b' | 'B' => some 2
  | _ => none

/-- The number that a text writes in a base; base 0 means that the text says which. -/
def readInt (base : Nat) (text : String) : Except Fault Int := do
  let cs := asciiDigits (strip text.toList)
  let (negative, cs) := match cs with
    | '-' :: cs => (true, cs)
    | '+' :: cs => (false, cs)
    | cs => (false, cs)
  let (base, marked, cs) := match cs with
    | '0' :: m :: rest =>
      match markedBase? m with
      | some b => if base == 0 || base == b then (b, true, rest) else (base, false, cs)
      | none => (base, false, cs)
    | cs => (base, false, cs)
  -- an underscore may follow the mark
  let cs := match marked, cs with
    | true, '_' :: rest => rest
    | _, cs => cs
  let leadingZero := base == 0 && cs.head? == some '0' && cs.any fun c => c != '0' && c != '_'
  if leadingZero then throw .badValue
  let base := if base == 0 then 10 else base
  let isDigit := fun (c : Char) => match digitValue? c with
    | some d => d < base
    | none => false
  match (withoutUnderscores? isDigit cs).bind (natural? base) with
  | some n =>
    let powerOfTwo := [2, 4, 8, 16, 32].contains base
    let digits := (cs.filter (· != '_')).length
    if !powerOfTwo && digitLimit < digits then throw .badValue
    return if negative then -(n : Int) else n
  | none => throw .badValue

/-- The number that a text writes. -/
def readFloat (text : String) : Except Fault Float := do
  let cs := asciiDigits (strip text.toList)
  let (negative, cs) := match cs with
    | '-' :: cs => (true, cs)
    | '+' :: cs => (false, cs)
    | cs => (false, cs)
  let word := String.ofList (cs.map Char.toLower)
  let magnitude ←
    if word == "inf" || word == "infinity" then pure Binary.infinity
    else if word == "nan" then pure Binary.notANumber
    else match (withoutUnderscores? isAsciiDigit cs).bind decimal? with
      | some (digits, exponent) => pure (nearestDecimal digits exponent)
      | none => throw .badValue
  return if negative then -magnitude else magnitude

/-! ## Methods -/

def intMethods : List String := ["as_integer_ratio", "bit_count", "bit_length", "conjugate", "to_bytes"]

def intFields : List String := ["real", "imag", "numerator", "denominator"]

def floatMethods : List String := ["as_integer_ratio", "conjugate", "hex", "is_integer"]

def floatFields : List String := ["real", "imag"]

/-- The digits of a number in base 2. -/
def binaryDigits (n : Nat) : List Char := if n == 0 then [] else Nat.toDigits 2 n

/-- A floating-point number in base 16, with an exponent for the base 2. -/
def hexFloat (x : Float) : String :=
  match Binary.ofFloat x with
  | .nan => "nan"
  | .infinite negative => if negative then "-inf" else "inf"
  | .finite negative m q =>
    let sign := if negative then "-" else ""
    if m == 0 then sign ++ "0x0.0p+0"
    else
      let whole := m / twoTo 52
      let digits := Nat.toDigits 16 (m % twoTo 52)
      let power := q + 52
      sign ++ s!"0x{whole}." ++ .ofList (List.replicate (13 - digits.length) '0' ++ digits) ++ "p" ++
        (if power < 0 then "" else "+") ++ toString power

namespace Run

/-- A field of a whole number. -/
def intField (n : Int) : String → Value
  | "imag" => .int 0
  | "denominator" => .int 1
  | _ => .int n

def callInt (n : Int) (name : String) (args : Arguments) : Run Value := do
  match name with
  | "to_bytes" =>
    match ← args.assign (.free [] ["length", "byteorder"] ++ .named ["signed"]) with
    | [length, order, signed] =>
      let length ← match length with
        | none => pure 1
        | some v => expectSize v
      let order ← match order with
        | none => pure "big"
        | some v => expectText v
      let signed ← match signed with
        | none => pure false
        | some v => truth v
      if length < 0 || !(order == "big" || order == "little") then throw .badValue
      let size := twoTo (8 * length.toNat)
      let low : Int := if signed then -(size / 2 : Nat) else 0
      let high : Int := if signed then (size / 2 : Nat) else size
      if n < low || high ≤ n then throw .overflow
      let bytes := littleEndian length.toNat (n % size).toNat
      return .bytes (if order == "big" then bytes.reverse else bytes)
    | _ => wrongType
  | name =>
    discard <| args.exactly 0
    match name with
    | "as_integer_ratio" => return .tuple [.int n, .int 1]
    | "bit_count" => return .int ((binaryDigits n.natAbs).filter (· == '1')).length
    | "bit_length" => return .int (binaryDigits n.natAbs).length
    | "conjugate" => return .int n
    | _ => wrongType
where
  littleEndian : Nat → Nat → List UInt8
    | 0, _ => []
    | count + 1, n => (n % 256).toUInt8 :: littleEndian count (n / 256)

def floatField (x : Float) : String → Value
  | "imag" => .float 0
  | _ => .float x

def callFloat (x : Float) (name : String) (args : Arguments) : Run Value := do
  discard <| args.exactly 0
  match name with
  | "as_integer_ratio" =>
    match Binary.ofFloat x with
    | .nan => throw .badValue
    | .infinite _ => throw .overflow
    | .finite negative m q =>
      let (num, den) := Binary.ratio m q
      let g := Nat.gcd num den
      let num : Int := (num / g : Nat)
      return .tuple [.int (if negative then -num else num), .int (den / g : Nat)]
  | "conjugate" => return .float x
  | "hex" => return .text (hexFloat x)
  | "is_integer" => return .bool (isWhole x)
  | _ => wrongType

end Run

end NestedSite
