/-!
# Days and moments

A day of the calendar, and a moment: a day, a time of day to the microsecond, and the distance from universal time if
it is known. `Date.iso` and `Moment.text` write them.
-/

namespace NestedSite

/-- Digits with zeros in front, `width` at least. -/
def padded (width n : Nat) : String :=
  let digits := toString n
  String.ofList (List.replicate (width - digits.length) '0') ++ digits

structure Date where
  year : Nat
  month : Nat
  day : Nat
  deriving Repr, DecidableEq, Inhabited

namespace Date

def isLeap (year : Nat) : Bool := year % 4 == 0 && (year % 100 != 0 || year % 400 == 0)

def daysInMonth (year month : Nat) : Nat :=
  if month == 2 then if isLeap year then 29 else 28
  else if [4, 6, 9, 11].contains month then 30 else 31

/-- Whether there is such a day. -/
def isValid (d : Date) : Bool :=
  1 ≤ d.year && d.year ≤ 9999 && 1 ≤ d.month && d.month ≤ 12 && 1 ≤ d.day && d.day ≤ daysInMonth d.year d.month

/-- The number of days from the first day of year 1, which is day 1. -/
def ordinal (d : Date) : Nat :=
  let y := d.year - 1
  y * 365 + y / 4 - y / 100 + y / 400 + dayOfYear
where
  dayOfYear : Nat := (List.range (d.month - 1)).foldl (fun days m => days + daysInMonth d.year (m + 1)) d.day

/-- The place of a day within its year. -/
def dayOfYear (d : Date) : Nat := ordinal.dayOfYear d

/-- The day of the week; 0 is Monday. -/
def weekday (d : Date) : Nat := (d.ordinal + 6) % 7

def iso (d : Date) : String := s!"{padded 4 d.year}-{padded 2 d.month}-{padded 2 d.day}"

/-- The order of time. -/
def compare (a b : Date) : Ordering := Ord.compare a.ordinal b.ordinal

end Date

structure Moment where
  date : Date
  hour : Nat
  minute : Nat
  second : Nat
  microsecond : Nat
  /-- The seconds ahead of universal time. -/
  offset : Option Int
  deriving Repr, DecidableEq, Inhabited

namespace Moment

def isValid (m : Moment) : Bool :=
  m.date.isValid && m.hour < 24 && m.minute < 60 && m.second < 60 && m.microsecond < 1000000

/-- The distance from universal time as it is written. -/
def offsetText (offset : Int) : String :=
  let n := offset.natAbs
  let sign := if offset < 0 then "-" else "+"
  let seconds := if n % 60 == 0 then "" else ":" ++ padded 2 (n % 60)
  sign ++ padded 2 (n / 3600) ++ ":" ++ padded 2 (n / 60 % 60) ++ seconds

/-- The day and the time with `separator` between them. -/
def textWith (separator : String) (m : Moment) : String :=
  let fraction := if m.microsecond == 0 then "" else "." ++ padded 6 m.microsecond
  let clock := padded 2 m.hour ++ ":" ++ padded 2 m.minute ++ ":" ++ padded 2 m.second
  m.date.iso ++ separator ++ clock ++ fraction ++ (m.offset.map offsetText).getD ""

def text (m : Moment) : String := m.textWith " "

/-- Microseconds from the beginning of year 1, in universal time if the distance to it is known. -/
def instant (m : Moment) : Int :=
  let seconds : Int := ((m.date.ordinal * 24 + m.hour) * 60 + m.minute) * 60 + m.second
  (seconds - m.offset.getD 0) * 1000000 + m.microsecond

end Moment

end NestedSite
