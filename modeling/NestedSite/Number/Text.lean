import NestedSite.Number.Decimal

/-!
# The text of numbers

A floating-point number is written with the fewest digits that read back as it (`floatText`): positionally from `1e-4`
up to below `1e16`, with an exponent of two digits or more elsewhere, and never without a mark that tells it from a
whole number.
-/

namespace NestedSite.Number

def zeros (n : Nat) : List Char := List.replicate n '0'

/-- Digits with a point after the first `point` of them; zeros fill up on either side. The fraction may be empty. -/
def aroundPoint (digits : List Char) (point : Int) : List Char × List Char :=
  if point ≤ 0 then (['0'], zeros (-point).toNat ++ digits)
  else
    let n := point.toNat
    (digits.take n ++ zeros (n - digits.length), digits.drop n)

/-- A whole part and a fraction; the point of an empty fraction is kept if `point`. -/
def joined (point : Bool) (whole fraction : List Char) : List Char :=
  if fraction.isEmpty && !point then whole else whole ++ '.' :: fraction

/-- The exponent mark, a sign and two digits at least. -/
def exponentText (mark : Char) (e : Int) : List Char :=
  let digits := Nat.toDigits 10 e.natAbs
  mark :: (if e < 0 then '-' else '+') :: zeros (2 - digits.length) ++ digits

/-- A finite number without its sign. With `point`, it has a point in any case; with `marked`, a digit follows the
point unless there is an exponent. -/
def shortestText (point marked : Bool) (mantissa : Nat) (exponent : Int) : List Char :=
  let (digits, place) :=
    if mantissa == 0 then (['0'], (1 : Int))
    else
      let d := Decimal.shortest mantissa exponent
      let digits := Nat.toDigits 10 d.digits
      (digits, digits.length + d.exponent)
  if -4 < place && place ≤ 16 then
    let (whole, fraction) := aroundPoint digits place
    joined point whole (if marked && fraction.isEmpty then ['0'] else fraction)
  else joined point (digits.take 1) (digits.drop 1) ++ exponentText 'e' (place - 1)

/-- A number; `marked` gives whole numbers a fraction. -/
def signedText (marked : Bool) (x : Float) : String :=
  match Binary.ofFloat x with
  | .nan => "nan"
  | .infinite negative => if negative then "-inf" else "inf"
  | .finite negative m q => .ofList ((if negative then ['-'] else []) ++ shortestText false marked m q)

def floatText (x : Float) : String := signedText true x

/-- The text of a part of a complex number. -/
def partText (x : Float) : String := signedText false x

/-- The text of a complex number; a real part that is a positive zero is left out. -/
def complexText (re im : Float) : String :=
  if re.toBits == 0 then partText im ++ "j"
  else
    let imText := partText im
    let sign := if imText.startsWith "-" then "" else "+"
    "(" ++ partText re ++ sign ++ imText ++ "j)"

end NestedSite.Number
