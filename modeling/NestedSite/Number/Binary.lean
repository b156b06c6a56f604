import NestedSite.Number.Power

/-!
# Binary numbers in exact arithmetic

A finite floating-point number is a natural number times a power of two (`Binary.ofFloat`). Here such numbers are
taken apart and built from exact values: `Binary.nearest` gives the number nearest to a quotient of natural numbers,
a tie going to the even neighbour, and `roundDiv` rounds a quotient to a whole number in the same way.
-/

namespace NestedSite.Number

/-- The whole number nearest to `num / den`; a tie goes to the even one. -/
def roundDiv (num den : Nat) : Nat :=
  let q := num / den
  let r := num % den
  if 2 * r < den then q
  else if den < 2 * r then q + 1
  else if q % 2 == 0 then q else q + 1

/-- A floating-point number taken apart. -/
inductive Binary where
  | nan
  | infinite (negative : Bool)
  /-- The number `mantissa * 2 ^ exponent`, or its negative. -/
  | finite (negative : Bool) (mantissa : Nat) (exponent : Int)
  deriving Repr, DecidableEq

namespace Binary

def ofFloat (x : Float) : Binary :=
  let bits := x.toBits.toNat
  let negative := twoTo 63 ≤ bits
  let power : Nat := bits / twoTo 52 % 2048
  let fraction := bits % twoTo 52
  if power == 2047 then if fraction == 0 then infinite negative else nan
  else if power == 0 then finite negative fraction (-1074)
  else finite negative (fraction + twoTo 52) ((power : Int) - 1075)

/-- Puts a sign on a number that has none. -/
def signed (negative : Bool) (x : Float) : Float := if negative then -x else x

def infinity : Float := Float.ofBits (2047 * twoTo 52).toUInt64

def notANumber : Float := Float.ofBits (2047 * twoTo 52 + twoTo 51).toUInt64

/-- The number nearest to `num / den`, a tie going to the even neighbour; infinite if that is too large. -/
def nearest (num den : Nat) : Float :=
  if num == 0 || den == 0 then 0
  else
    -- the quotient lies between 2 ^ place / 2 and 2 ^ place * 2
    let place : Int := (num.log2 : Int) - den.log2
    let scaled := fun (q : Int) => if 0 ≤ q then (num, den * twoTo q.toNat) else (num * twoTo (-q).toNat, den)
    let guess := place - 52
    let (n, d) := scaled guess
    -- a quotient below 2 ^ 52 loses a bit of precision
    let q := max (-1074) (if n / d < twoTo 52 then guess - 1 else guess)
    let (n, d) := scaled q
    let m := roundDiv n d
    -- rounding up may carry into the next power
    let (m, q) := if m == twoTo 53 then (twoTo 52, q + 1) else (m, q)
    if 971 < q then infinity
    else if m < twoTo 52 then Float.ofBits m.toUInt64
    else Float.ofBits ((q + 1075).toNat * twoTo 52 + (m - twoTo 52)).toUInt64

/-- The value as a quotient, without its sign. -/
def ratio (mantissa : Nat) (exponent : Int) : Nat × Nat :=
  if 0 ≤ exponent then (mantissa * twoTo exponent.toNat, 1) else (mantissa, twoTo (-exponent).toNat)

end Binary

/-- The floating-point number nearest to a whole number. -/
def nearestInt (n : Int) : Float := Binary.signed (n < 0) (Binary.nearest n.natAbs 1)

/-- The floating-point number nearest to `digits * 10 ^ exponent`. -/
def nearestDecimal (digits : Nat) (exponent : Int) : Float :=
  if digits == 0 then 0
  else
    let size : Int := (Nat.toDigits 10 digits).length + exponent
    if 310 < size then Binary.infinity
    else if size < -330 then 0
    else if 0 ≤ exponent then Binary.nearest (digits * tenTo exponent.toNat) 1
    else Binary.nearest digits (tenTo (-exponent).toNat)

/-- The whole number towards zero, if there is one. -/
def truncate? (x : Float) : Option Int :=
  match Binary.ofFloat x with
  | .finite negative m q =>
    let (n, d) := Binary.ratio m q
    some (if negative then -(n / d : Nat) else (n / d : Nat))
  | _ => none

/-- Whether a finite number is whole. -/
def isWhole (x : Float) : Bool :=
  match Binary.ofFloat x with
  | .finite _ m q => let (n, d) := Binary.ratio m q; n % d == 0
  | _ => false

/-- An exact value. -/
inductive Quantity where
  | finite (q : Rat)
  | infinite (negative : Bool)
  deriving DecidableEq

/-- The exact value of a floating-point number, unless it is not a number. -/
def quantity? (x : Float) : Option Quantity :=
  match Binary.ofFloat x with
  | .nan => none
  | .infinite negative => some (.infinite negative)
  | .finite negative m q =>
    let (a, d) := Binary.ratio m q
    some (.finite (mkRat (if negative then -(a : Int) else a) d))

/-- How a whole number and a floating-point number compare, exactly; none if the latter is not a number. -/
def compareInt? (n : Int) (x : Float) : Option Ordering :=
  match Binary.ofFloat x with
  | .nan => none
  | .infinite negative => some (if negative then .gt else .lt)
  | .finite negative m q =>
    let (a, d) := Binary.ratio m q
    some (compare (n * d) (if negative then -(a : Int) else a))

end NestedSite.Number
