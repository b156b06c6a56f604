import NestedSite.Number.Binary

/-!
# Division, powers and rounding

The operations on numbers whose results are not given by the processor: division with the quotient rounded down, of
whole numbers and of floating-point ones; rounding to a number of decimal places; powers, which may turn out complex.
A result is none where there is no number for it.
-/

namespace NestedSite.Number

/-- The exact remainder of the magnitudes of two finite numbers, the second not zero. -/
def magnitudeRemainder (x y : Float) : Float :=
  match Binary.ofFloat x, Binary.ofFloat y with
  | .finite _ m q, .finite _ k r =>
    let low := min q r
    let a := m * twoTo (q - low).toNat
    let b := k * twoTo (r - low).toNat
    let (num, den) := Binary.ratio (a % b) low
    Binary.nearest num den
  | _, _ => Binary.notANumber

/-- The remainder with the sign of the dividend. -/
def truncatedRemainder (x y : Float) : Float :=
  if x.isNaN || y.isNaN || x.isInf then Binary.notANumber
  else if y.isInf then x
  else
    let r := magnitudeRemainder x y
    if x.toBits.toNat < twoTo 63 then r else -r

/-- The zero with the sign of `y`. -/
def zeroLike (y : Float) : Float := if y.toBits.toNat < twoTo 63 then 0 else -0.0

/-- The quotient rounded down, and the remainder, which has the sign of the divisor; the divisor is not zero. -/
def floorDivMod (x y : Float) : Float × Float :=
  let r := truncatedRemainder x y
  let d := (x - r) / y
  let (d, r) :=
    if r != 0 then if (y < 0) != (r < 0) then (d - 1, r + y) else (d, r)
    else (d, zeroLike y)
  let q :=
    if d != 0 then
      let f := d.floor
      if d - f > 0.5 then f + 1 else f
    else zeroLike (x / y)
  (q, r)

/-- The quotient of whole numbers, correctly rounded; the divisor is not zero. A quotient of zero has a sign too. -/
def quotient (a b : Int) : Float :=
  Binary.signed ((a < 0) != (b < 0)) (Binary.nearest a.natAbs b.natAbs)

/-- The square root rounded down; the guess falls until it does not any more. -/
def floorRoot (n : Nat) : Nat := go (n.log2 + 2) (twoTo (n.log2 / 2 + 1))
where
  go : Nat → Nat → Nat
    | 0, guess => guess
    | fuel + 1, guess =>
      let next := (guess + n / guess) / 2
      if next < guess then go fuel next else guess

/-- The floating-point number nearest to the square root of a quotient. -/
def nearestRoot (num den : Nat) : Float :=
  let n := num * den * twoTo 128
  let root := floorRoot n
  let inexact := if root * root < n then 1 else 0
  Binary.nearest (2 * root + inexact) (2 * den * twoTo 64)

/-- The whole number nearest to a finite number, a tie going to the even one. -/
def roundToInt? (x : Float) : Option Int :=
  match Binary.ofFloat x with
  | .finite negative m q =>
    let (num, den) := Binary.ratio m q
    let n : Int := roundDiv num den
    some (if negative then -n else n)
  | _ => none

/-- A number rounded to `places` decimal places, a tie going to the even digit. -/
def roundToPlaces (x : Float) (places : Int) : Float :=
  match Binary.ofFloat x with
  | .finite negative m q =>
    if 324 < places then x
    else if places < -309 then zeroLike x
    else
      let (num, den) := Binary.ratio m q
      let r := if 0 ≤ places then roundDiv (num * tenTo places.toNat) den
        else roundDiv num (den * tenTo (-places).toNat)
      Binary.signed negative (nearestDecimal r (-places))
  | _ => x

/-- A whole number rounded to a multiple of `10 ^ places`, a tie going to the even multiple. -/
def roundToMultiple (n : Int) (places : Nat) : Int :=
  let unit := tenTo places
  let m : Int := roundDiv n.natAbs unit * unit
  if n < 0 then -m else m

/-- A number with a real and an imaginary part. -/
structure FloatPair where
  re : Float
  im : Float

namespace FloatPair

def add (a b : FloatPair) : FloatPair := ⟨a.re + b.re, a.im + b.im⟩

def sub (a b : FloatPair) : FloatPair := ⟨a.re - b.re, a.im - b.im⟩

def mul (a b : FloatPair) : FloatPair := ⟨a.re * b.re - a.im * b.im, a.re * b.im + a.im * b.re⟩

/-- The quotient, scaled by the larger part of the divisor. -/
def div? (a b : FloatPair) : Option FloatPair :=
  if b.re == 0 && b.im == 0 then none
  else if b.re.abs >= b.im.abs then
    let ratio := b.im / b.re
    let den := b.re + b.im * ratio
    some ⟨(a.re + a.im * ratio) / den, (a.im - a.re * ratio) / den⟩
  else
    let ratio := b.re / b.im
    let den := b.re * ratio + b.im
    some ⟨(a.re * ratio + a.im) / den, (a.im * ratio - a.re) / den⟩

def magnitude (a : FloatPair) : Float :=
  let x := a.re.abs
  let y := a.im.abs
  let big := max x y
  if big == 0 || big.isInf then big
  else
    match Binary.ofFloat x, Binary.ofFloat y with
    | .finite _ m q, .finite _ k r =>
      let (a, b) := Binary.ratio m q
      let (c, d) := Binary.ratio k r
      nearestRoot (a * a * d * d + c * c * b * b) (b * b * d * d)
    | _, _ => big

/-- A power by repeated squaring. -/
def powNat (a : FloatPair) (n : Nat) : FloatPair := go 64 n ⟨1, 0⟩ a
where
  go : Nat → Nat → FloatPair → FloatPair → FloatPair
    | 0, _, r, _ => r
    | fuel + 1, n, r, p =>
      if n == 0 then r
      else go fuel (n / 2) (if n % 2 == 1 then r.mul p else r) (p.mul p)

def pow? (a b : FloatPair) : Option FloatPair :=
  if b.re == 0 && b.im == 0 then some ⟨1, 0⟩
  else if a.re == 0 && a.im == 0 then if b.im != 0 || b.re < 0 then none else some ⟨0, 0⟩
  else if b.im == 0 && b.re == b.re.floor && b.re.abs <= 100 then
    let n := b.re.abs.toUInt64.toNat
    if 0 < b.re then some (a.powNat n) else div? ⟨1, 0⟩ (a.powNat n)
  else
    let length := a.magnitude.pow b.re
    let angle := Float.atan2 a.im a.re
    let phase := angle * b.re
    let (length, phase) :=
      if b.im != 0 then (length / (angle * b.im).exp, phase + b.im * a.magnitude.log) else (length, phase)
    if phase.isInf then none else some ⟨length * phase.cos, length * phase.sin⟩

end FloatPair

/-- A power of floating-point numbers. -/
inductive Power where
  | real (x : Float)
  /-- A negative number to a power that is not whole. -/
  | complex (z : FloatPair)
  | overflow
  /-- Zero to a negative power. -/
  | undefined

def power (x y : Float) : Power :=
  if x == 0 && y < 0 && !y.isNaN then .undefined
  else if x < 0 && !x.isInf && !y.isInf && !y.isNaN && y != y.floor then
    match FloatPair.pow? ⟨x, 0⟩ ⟨y, 0⟩ with
    | some z => .complex z
    | none => .undefined
  else
    let r := x.pow y
    if r.isInf && !x.isInf && !y.isInf then .overflow else .real r

end NestedSite.Number
