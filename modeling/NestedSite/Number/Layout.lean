import NestedSite.Number.Text

/-!
# Layouts of floating-point numbers

A number is laid out with a fixed number of places (`fixed`), with an exponent (`scientific`), or in whichever of the
two is shorter (`general`); all are rounded from the exact value, a tie going to the even digit. The functions take a
number without its sign.
-/

namespace NestedSite.Number

/-- How a floating-point number is laid out. -/
inductive Layout where
  | fixed | scientific | general
  /-- The fewest digits that read back as the number. -/
  | shortest
  deriving Repr, DecidableEq

namespace Layout

/-- More digits than any floating-point number has behind the first one and behind the point; those that follow are
zeros. -/
def placeLimit : Nat := 1100

def fixedText (precision : Nat) (point : Bool) (num den : Nat) : List Char :=
  let places := min precision placeLimit
  let n := (Decimal.rounded num den (-(places : Int))).digits
  let fraction := Nat.toDigits 10 (n % tenTo places)
  let fraction := if places == 0 then [] else zeros (places - fraction.length) ++ fraction
  joined point (Nat.toDigits 10 (n / tenTo places)) (fraction ++ zeros (precision - places))

/-- The first `count` digits, and the place of the point among them. -/
def digitsOf (count : Nat) (num den : Nat) : List Char × Int :=
  if num == 0 then (zeros count, 1)
  else
    let d := Decimal.significant num den (min count placeLimit)
    let digits := Nat.toDigits 10 d.digits
    (digits ++ zeros (count - placeLimit), digits.length + d.exponent)

def scientificText (precision : Nat) (point : Bool) (num den : Nat) : List Char :=
  let (digits, place) := digitsOf (precision + 1) num den
  joined point (digits.take 1) (digits.drop 1) ++ exponentText 'e' (place - 1)

/-- Without the zeros at the end. -/
def dropZeros (digits : List Char) : List Char := (digits.reverse.dropWhile (· == '0')).reverse

/-- With `keep`, zeros at the end and the point are kept; with `marked`, a digit follows the point. -/
def generalText (precision : Nat) (keep marked : Bool) (num den : Nat) : List Char :=
  let count := max precision 1
  let (digits, place) := digitsOf count num den
  let kept := if keep then digits else dropZeros digits
  if place ≤ -4 || (count : Int) - (if marked then 1 else 0) < place then
    joined keep (digits.take 1) (kept.drop 1) ++ exponentText 'e' (place - 1)
  else
    let (_, fraction) := aroundPoint kept place
    let (whole, _) := aroundPoint digits place
    joined keep whole (if marked && fraction.isEmpty then ['0'] else fraction)

/-- The options of a layout. -/
structure Options where
  precision : Nat
  /-- Keeps the point, and for `general` the zeros at the end. -/
  alternate : Bool
  /-- Whole numbers get a fraction, where there is no exponent, in `general` and `shortest`. -/
  marked : Bool
  upper : Bool

/-- A number without its sign. -/
def text (layout : Layout) (o : Options) (x : Float) : List Char :=
  let cs := match Binary.ofFloat x with
    | .nan => "nan".toList
    | .infinite _ => "inf".toList
    | .finite _ m q =>
      let (num, den) := Binary.ratio m q
      match layout with
      | fixed => fixedText o.precision o.alternate num den
      | scientific => scientificText o.precision o.alternate num den
      | general => generalText o.precision o.alternate o.marked num den
      | shortest => shortestText o.alternate o.marked m q
  if o.upper then cs.map Char.toUpper else cs

end Layout

/-- Whether a number is written with a minus sign. -/
def isNegative (x : Float) : Bool :=
  match Binary.ofFloat x with
  | .nan => false
  | .infinite negative => negative
  | .finite negative _ _ => negative

end NestedSite.Number
