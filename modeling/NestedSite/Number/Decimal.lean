import NestedSite.Number.Binary

/-!
# Decimal forms of binary numbers

`Decimal.shortest` gives the fewest digits that read back as the number, and among those the nearest to it;
`Decimal.rounded` and `Decimal.significant` round the exact value to a number of places or of digits, a tie going to
the even digit.
-/

namespace NestedSite.Number

/-- The number `digits * 10 ^ exponent`. -/
structure Decimal where
  digits : Nat
  exponent : Int
  deriving Repr, DecidableEq

namespace Decimal

/-- The quotient `num / den` in units of `10 ^ place`. -/
def inUnits (num den : Nat) (place : Int) : Nat × Nat :=
  if 0 ≤ place then (num, den * tenTo place.toNat) else (num * tenTo (-place).toNat, den)

/-- The place of the first digit of `num / den`: the greatest `k` with `10 ^ k ≤ num / den`. -/
def leadingPlace (num den : Nat) : Int :=
  let guess : Int := ((num.log2 : Int) - den.log2) * 30103 / 100000
  let atLeast := fun (k : Int) => let (n, d) := inUnits num den k; d ≤ n
  if atLeast (guess + 1) then guess + 1 else if atLeast guess then guess else guess - 1

/-- The values that read back as a number: between `low / den` and `high / den`, with the ends if `closed`. -/
structure Interval where
  low : Nat
  high : Nat
  den : Nat
  closed : Bool

namespace Interval

/-- The interval around `mantissa * 2 ^ exponent`. Below a power of two the neighbour is twice as near. -/
def around (mantissa : Nat) (exponent : Int) : Interval :=
  let narrow := mantissa == twoTo 52 && -1074 < exponent
  let q := exponent - 2
  let scale := if 0 ≤ q then twoTo q.toNat else 1
  let den := if 0 ≤ q then 1 else twoTo (-q).toNat
  { low := (4 * mantissa - (if narrow then 1 else 2)) * scale
    high := (4 * mantissa + 2) * scale
    den := den
    closed := mantissa % 2 == 0 }

/-- Whether `units * 10 ^ place` lies in the interval. -/
def contains (i : Interval) (units : Nat) (place : Int) : Bool :=
  let (n, d) := if 0 ≤ place then (units * tenTo place.toNat, 1) else (units, tenTo (-place).toNat)
  if i.closed then i.low * d ≤ n * i.den && n * i.den ≤ i.high * d
  else i.low * d < n * i.den && n * i.den < i.high * d

end Interval

/-- The multiple of `10 ^ place` nearest to the number that reads back as it, if one does. -/
def onGrid? (mantissa : Nat) (exponent : Int) (place : Int) : Option Decimal :=
  let i := Interval.around mantissa exponent
  let (num, den) := Binary.ratio mantissa exponent
  let (n, d) := inUnits num den place
  let below := n / d
  let nearer := roundDiv n d
  let farther := if nearer == below then below + 1 else below
  if i.contains nearer place then some ⟨nearer, place⟩
  else if i.contains farther place then some ⟨farther, place⟩
  else none

/-- The first grid, from one digit on, that has a decimal reading back as the number. -/
def shortest (mantissa : Nat) (exponent : Int) : Decimal :=
  let (num, den) := Binary.ratio mantissa exponent
  let lead := leadingPlace num den
  let grids := (List.range 17).map fun (n : Nat) => lead - (n : Int)
  normalize ((grids.findSome? (onGrid? mantissa exponent)).getD ⟨roundDiv num den, 0⟩)
where
  /-- A carry may leave a zero at the end. -/
  normalize (d : Decimal) : Decimal :=
    if d.digits % 10 == 0 && d.digits ≠ 0 then ⟨d.digits / 10, d.exponent + 1⟩ else d

/-- The value rounded to a multiple of `10 ^ place`. -/
def rounded (num den : Nat) (place : Int) : Decimal :=
  let (n, d) := inUnits num den place
  ⟨roundDiv n d, place⟩

/-- A nonzero value rounded to `count` digits. -/
def significant (num den : Nat) (count : Nat) : Decimal :=
  let place := leadingPlace num den - (count - 1 : Nat)
  let r := rounded num den place
  if tenTo count ≤ r.digits then ⟨r.digits / 10, place + 1⟩ else r

end Decimal

end NestedSite.Number
