import NestedSite.Number.Layout
import NestedSite.Text.Letter
import NestedSite.Value.Text

/-!
# Format specifications

The part of a replacement field after the colon: a fill character and an alignment, a sign, a width, a precision and a
type, each of which may be missing (`FormatSpec.parse`). `Store.format` writes a value as a specification asks.
-/

namespace NestedSite

open Number Text

inductive Alignment where
  | left | right | center
  /-- The fill goes between the sign and the digits. -/
  | inside
  deriving Repr, DecidableEq

def Alignment.ofChar? : Char → Option Alignment
  | '<' => some .left
  | '>' => some .right
  | '^' => some .center
  | '=' => some .inside
  | _ => none

/-- What is written before a number that is not negative. -/
inductive SignStyle where
  | minusOnly | plus | space
  deriving Repr, DecidableEq

structure FormatSpec where
  fill : Option Char := none
  align : Option Alignment := none
  sign : Option SignStyle := none
  /-- A negative number that is rounded to zero loses its sign. -/
  plainZero : Bool := false
  alternate : Bool := false
  width : Nat := 0
  /-- What stands between groups of digits. -/
  grouping : Option Char := none
  precision : Option Nat := none
  kind : Option Char := none
  deriving Repr, DecidableEq

namespace FormatSpec

/-- The number that the digits at the front write, and what follows them. -/
def number? (cs : List Char) : Except Fault (Option Nat × List Char) :=
  let digits := cs.takeWhile isDecimal
  if digits.isEmpty then pure (none, cs)
  else
    let n := digits.foldl (fun n c => 10 * n + (decimalValue? c).getD 0) 0
    if n < twoTo 63 then pure (some n, cs.drop digits.length) else throw .badValue

/-- Reads a specification. A leading `0` fills with zeros, behind the sign where `rightward` values stand to the right
by default. -/
def parse (rightward : Bool) (text : String) : Except Fault FormatSpec := do
  let cs := text.toList
  let (fill, align, cs) := match cs with
    | f :: a :: rest =>
      match Alignment.ofChar? a with
      | some al => (some f, some al, rest)
      | none => match Alignment.ofChar? f with
        | some al => (none, some al, a :: rest)
        | none => (none, none, cs)
    | [a] => match Alignment.ofChar? a with
      | some al => (none, some al, [])
      | none => (none, none, cs)
    | [] => (none, none, [])
  let (sign, cs) := match cs with
    | '+' :: rest => (some SignStyle.plus, rest)
    | '-' :: rest => (some .minusOnly, rest)
    | ' ' :: rest => (some .space, rest)
    | cs => (none, cs)
  let (plainZero, cs) := match cs with
    | 'z' :: rest => (true, rest)
    | cs => (false, cs)
  let (alternate, cs) := match cs with
    | '#' :: rest => (true, rest)
    | cs => (false, cs)
  let (fill, align, cs) := match fill, cs with
    | none, '0' :: rest => (some '0', (match align with
        | none => if rightward then some Alignment.inside else none
        | some a => some a), rest)
    | fill, cs => (fill, align, cs)
  let (width, cs) ← number? cs
  let (comma, cs) := match cs with
    | ',' :: rest => (true, rest)
    | cs => (false, cs)
  let (low, cs) := match cs with
    | '_' :: rest => (true, rest)
    | cs => (false, cs)
  if comma && low then throw .badValue
  if low && cs.head? == some ',' then throw .badValue
  let (precision, cs) ← match cs with
    | '.' :: rest => do
      let (n, cs) ← number? rest
      if n.isNone then throw .badValue
      pure (n, cs)
    | cs => pure (none, cs)
  let kind ← match cs with
    | [] => pure none
    | [c] => pure (some c)
    | _ => throw .badValue
  checkSize (width.getD 0)
  return { fill, align, sign, plainZero, alternate, width := width.getD 0,
           grouping := if comma then some ',' else if low then some '_' else none, precision, kind }

/-- Fills a text up to the width. -/
def pad (spec : FormatSpec) (default : Alignment) (body : List Char) : List Char :=
  let missing := spec.width - body.length
  let fill := spec.fill.getD ' '
  let left := match spec.align.getD default with
    | .left => 0
    | .center => missing / 2
    | _ => missing
  List.replicate left fill ++ body ++ List.replicate (missing - left) fill

/-- Puts `separator` between groups of `size` digits, filling up with zeros to the width `least`; the groups are taken
from the end. -/
def group (separator : List Char) (size : Nat) : Nat → Nat → List Char → List Char → List Char
  | 0, _, _, written => written
  | fuel + 1, least, digits, written =>
    let n := min size (max (max digits.length least) 1)
    let taken := digits.drop (digits.length - n)
    let rest := digits.take (digits.length - n)
    let written := zeros (n - taken.length) ++ taken ++ written
    let least := least - n
    if rest.isEmpty && least == 0 then written
    else group separator size fuel (least - separator.length) rest (separator ++ written)

/-- The sign of a number. -/
def signText (spec : FormatSpec) (negative : Bool) : List Char :=
  if negative then ['-']
  else match spec.sign with
    | some .plus => ['+']
    | some .space => [' ']
    | _ => []

/-- Puts a number together: its sign, what stands before the digits, the digits of its whole part and the rest. -/
def assemble (spec : FormatSpec) (negative : Bool) (mark digits rest : List Char) : List Char :=
  let sign := spec.signText negative
  let size := if spec.kind.any (['b', 'o', 'x', 'X'].contains ·) then 4 else 3
  let zeroFilled := spec.fill == some '0' && spec.align == some .inside
  let least := if zeroFilled then spec.width - sign.length - mark.length - rest.length else 0
  let digits := match spec.grouping with
    | some c => group [c] size (digits.length + least + 1) least digits []
    | none => zeros (least - digits.length) ++ digits
  match spec.align.getD .right with
  | .inside =>
    let missing := spec.width - (sign.length + mark.length + digits.length + rest.length)
    sign ++ mark ++ List.replicate missing (spec.fill.getD ' ') ++ digits ++ rest
  | _ => spec.pad .right (sign ++ mark ++ digits ++ rest)

/-- The types of number that a separator of groups goes with. -/
def groupsAllowed (spec : FormatSpec) : Bool :=
  match spec.grouping with
  | none => true
  | some c =>
    match spec.kind with
    | none => true
    | some k => ['d', 'e', 'f', 'g', 'E', 'G', '%', 'F'].contains k || (c == '_' && ['b', 'o', 'x', 'X'].contains k)

/-- Writes a text. -/
def ofText (spec : FormatSpec) (t : String) : Except Fault String := do
  if !(spec.kind == none || spec.kind == some 's') then throw .badValue
  if spec.sign.isSome || spec.plainZero || spec.alternate || spec.grouping.isSome || spec.align == some .inside then
    throw .badValue
  let body := match spec.precision with
    | some n => t.toList.take n
    | none => t.toList
  return .ofList (spec.pad .left body)

/-- How a floating-point number is laid out. -/
def layout (spec : FormatSpec) : Except Fault Layout :=
  match spec.kind with
  | none => pure (if spec.precision.isSome then .general else .shortest)
  | some 'e' | some 'E' => pure .scientific
  | some 'f' | some 'F' | some '%' => pure .fixed
  | some 'g' | some 'G' | some 'n' => pure .general
  | some _ => throw .badValue

/-- A floating-point number before it is filled up, with `after` behind it; `marked` gives whole numbers a fraction. -/
def floatBody (spec : FormatSpec) (layout : Layout) (marked : Bool) (x : Float) (after : List Char) :
    Except Fault (List Char) := do
  let precision := spec.precision.getD 6
  if twoTo 31 ≤ precision then throw .badValue
  checkSize precision
  let options : Layout.Options :=
    { precision, alternate := spec.alternate, marked
      upper := spec.kind.any ['E', 'F', 'G'].contains }
  let body := layout.text options x
  let digits := body.takeWhile isAsciiDigit
  let isZero := !digits.isEmpty && body.all fun c => !isAsciiDigit c || c == '0'
  let negative := isNegative x && !(spec.plainZero && isZero)
  let rest := body.drop digits.length ++ after
  -- a text without digits is filled as a whole
  return if digits.isEmpty then { spec with grouping := none }.assemble negative [] rest []
    else spec.assemble negative [] digits rest

/-- Writes a floating-point number. -/
def ofFloat (spec : FormatSpec) (x : Float) : Except Fault String := do
  if !spec.groupsAllowed then throw .badValue
  let layout ← spec.layout
  let body ←
    if spec.kind == some '%' then spec.floatBody layout false (x * 100) ['%']
    else spec.floatBody layout spec.kind.isNone x []
  return .ofList body

/-- Writes a complex number. Without a type it stands in parentheses, or its real part is left out if that is a
positive zero. -/
def ofComplex (spec : FormatSpec) (re im : Float) : Except Fault String := do
  if !spec.groupsAllowed || spec.kind == some '%' || spec.fill == some '0' || spec.align == some .inside then
    throw .badValue
  let layout ← spec.layout
  let plain := { spec with width := 0, align := none }
  let body ←
    if spec.kind.isNone && re.toBits == 0 then plain.floatBody layout false im ['j']
    else do
      let first ← plain.floatBody layout false re []
      let second ← { plain with sign := some .plus }.floatBody layout false im ['j']
      pure (if spec.kind.isNone then '(' :: first ++ second ++ [')'] else first ++ second)
  return .ofList (spec.pad .right body)

/-- The floating-point number nearest to a whole number, unless it is too large. -/
def floatOfInt (n : Int) : Except Fault Float :=
  let x := nearestInt n
  if x.isInf then throw .overflow else pure x

/-- Writes a whole number. -/
def ofInt (spec : FormatSpec) (n : Int) : Except Fault String := do
  let kind := spec.kind.getD 'd'
  if ['e', 'E', 'f', 'F', 'g', 'G', '%'].contains kind then
    if !spec.groupsAllowed then throw .badValue
    spec.ofFloat (← floatOfInt n)
  else
    if !spec.groupsAllowed || spec.precision.isSome || spec.plainZero then throw .badValue
    if kind == 'c' then
      if spec.sign.isSome || spec.alternate then throw .badValue
      if n < 0 || 0x10ffff < n then throw .overflow
      return .ofList (spec.assemble false [] [Char.ofNat n.toNat] [])
    let base ← match kind with
      | 'b' => pure 2
      | 'o' => pure 8
      | 'x' | 'X' => pure 16
      | 'd' | 'n' => pure 10
      | _ => throw .badValue
    if base == 10 then discard <| intText n
    let mark := if spec.alternate && base != 10 then ['0', kind] else []
    let digits := Nat.toDigits base n.natAbs
    let digits := if kind == 'X' then digits.map Char.toUpper else digits
    return .ofList (spec.assemble (n < 0) mark digits [])

end FormatSpec

/-! ## Days -/

namespace Date

def dayNames : List String := ["Monday", "Tuesday", "Wednesday", "Thursday", "Friday", "Saturday", "Sunday"]

def monthNames : List String :=
  ["January", "February", "March", "April", "May", "June", "July", "August", "September", "October", "November",
    "December"]

/-- The number of weeks before a day in its year, a week beginning on the day of the week `first`. -/
def weekOfYear (d : Date) (first : Nat) : Nat :=
  (d.dayOfYear + 6 - (d.weekday + 7 - first) % 7) / 7

end Date

namespace Moment

/-- What a letter after `%` stands for. -/
def directive (m : Moment) (c : Char) : String :=
  let d := m.date
  let clock := padded 2 m.hour ++ ":" ++ padded 2 m.minute ++ ":" ++ padded 2 m.second
  let dayName := (Date.dayNames[d.weekday]?).getD ""
  let monthName := (Date.monthNames[d.month - 1]?).getD ""
  let hour12 := if m.hour % 12 == 0 then 12 else m.hour % 12
  let abbreviated := fun (t : String) => String.ofList (t.toList.take 3)
  let blankPadded := fun (n : Nat) => (if n < 10 then " " else "") ++ toString n
  match c with
  | 'Y' => toString d.year
  | 'm' => padded 2 d.month
  | 'd' => padded 2 d.day
  | 'e' => blankPadded d.day
  | 'H' => padded 2 m.hour
  | 'I' => padded 2 hour12
  | 'M' => padded 2 m.minute
  | 'S' => padded 2 m.second
  | 'f' => padded 6 m.microsecond
  | 'j' => padded 3 d.dayOfYear
  | 'y' => padded 2 (d.year % 100)
  | 'C' => padded 2 (d.year / 100)
  | 'a' => abbreviated dayName
  | 'A' => dayName
  | 'b' | 'h' => abbreviated monthName
  | 'B' => monthName
  | 'p' => if m.hour < 12 then "AM" else "PM"
  | 'u' => toString (d.weekday + 1)
  | 'w' => toString ((d.weekday + 1) % 7)
  | 'U' => padded 2 (d.weekOfYear 6)
  | 'W' => padded 2 (d.weekOfYear 0)
  | 'F' => d.iso
  | 'T' | 'X' => clock
  | 'R' => padded 2 m.hour ++ ":" ++ padded 2 m.minute
  | 'D' | 'x' => padded 2 d.month ++ "/" ++ padded 2 d.day ++ "/" ++ padded 2 (d.year % 100)
  | 'c' => abbreviated dayName ++ " " ++ abbreviated monthName ++ " " ++ blankPadded d.day ++ " " ++ clock ++ " " ++
      toString d.year
  | 'z' => (m.offset.map fun o => String.ofList ((offsetText o).toList.filter (· != ':'))).getD ""
  | 'Z' => match m.offset with
    | none => ""
    | some 0 => "UTC"
    | some o => "UTC" ++ offsetText o
  | 'n' => "\n"
  | 't' => "\t"
  | '%' => "%"
  | c => "%" ++ .singleton c

/-- Writes a moment as a pattern of directives asks. -/
def formatted (m : Moment) : List Char → List Char
  | '%' :: c :: rest => (m.directive c).toList ++ formatted m rest
  | c :: rest => c :: formatted m rest
  | [] => []

end Moment

/-- The beginning of a day. -/
def Date.midnight (d : Date) : Moment := ⟨d, 0, 0, 0, 0, none⟩

/-- Writes a value as a specification asks. Values that are no numbers, texts or days take no specification. -/
def Store.format (s : Store) (v : Value) (spec : String) : Except Fault String := do
  if spec.isEmpty then s.text v
  else match v with
    | .text t => (← FormatSpec.parse false spec).ofText t
    | .int n => (← FormatSpec.parse true spec).ofInt n
    | .bool b => (← FormatSpec.parse true spec).ofInt (if b then 1 else 0)
    | .float x => (← FormatSpec.parse true spec).ofFloat x
    | .date d => return .ofList (d.midnight.formatted spec.toList)
    | .moment m => return .ofList (m.formatted spec.toList)
    | .complex re im => (← FormatSpec.parse true spec).ofComplex re im
    | _ => wrongType

end NestedSite
