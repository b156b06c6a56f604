import NestedSite.Number.Binary
import NestedSite.Text.Blank
import NestedSite.Text.Letter

/-!
# Reading numbers

The value of a run of digits in some base, and of a decimal with an optional point and exponent.
-/

namespace NestedSite.Number

open NestedSite.Text

/-- The value of a digit in bases up to 36. -/
def digitValue? (c : Char) : Option Nat :=
  if '0' ≤ c && c ≤ '9' then some (c.toNat - 48)
  else if 'a' ≤ c && c ≤ 'z' then some (c.toNat - 87)
  else if 'A' ≤ c && c ≤ 'Z' then some (c.toNat - 55)
  else none

/-- The number that nonempty `cs` writes in base `base`. -/
def natural? (base : Nat) : List Char → Option Nat
  | [] => none
  | cs => cs.foldl (fun n? c => n?.bind fun n =>
      (digitValue? c).bind fun d => if d < base then some (base * n + d) else none) (some 0)

/-- A whole number with an optional sign. -/
def integer? (base : Nat) : List Char → Option Int
  | '+' :: cs => (natural? base cs).map Int.ofNat
  | '-' :: cs => (natural? base cs).map fun n => -(n : Int)
  | cs => (natural? base cs).map Int.ofNat

/-- Takes the underscores out, each of which must stand between two digits of the base. -/
def withoutUnderscores? (isDigit : Char → Bool) : List Char → Option (List Char)
  | [] => some []
  | c :: '_' :: d :: rest =>
    if isDigit c && isDigit d then (withoutUnderscores? isDigit (d :: rest)).map (c :: ·) else none
  | c :: rest => if c == '_' then none else (withoutUnderscores? isDigit rest).map (c :: ·)

/-- Digits of any script as ASCII digits. -/
def asciiDigits (cs : List Char) : List Char :=
  cs.map fun c => match decimalValue? c with
    | some n => Char.ofNat (48 + n)
    | none => c

/-- A whole number with blanks around it, an optional sign, digits of any script and underscores between digits. -/
def looseInteger? (cs : List Char) : Option Int :=
  (withoutUnderscores? isAsciiDigit (asciiDigits (strip cs))).bind (integer? 10)

/-- The digits and the power of ten of a decimal such as `12`, `.5`, `1.`, `2.5e-3`. -/
def decimal? (cs : List Char) : Option (Nat × Int) :=
  let whole := cs.takeWhile isAsciiDigit
  let rest := cs.dropWhile isAsciiDigit
  let (fraction, rest) := match rest with
    | '.' :: rest => (rest.takeWhile isAsciiDigit, rest.dropWhile isAsciiDigit)
    | rest => ([], rest)
  (natural? 10 (whole ++ fraction)).bind fun digits =>
    match rest with
    | [] => some (digits, -(fraction.length : Int))
    | e :: power =>
      if e == 'e' || e == 'E' then (integer? 10 power).map fun p => (digits, p - fraction.length) else none

end NestedSite.Number
