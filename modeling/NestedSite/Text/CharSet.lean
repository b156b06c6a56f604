/-!
# Sets of characters

A property of characters that a standard gives by tables is held here as an ascending array of runs: a run is every
character, or every second character, between two code points. The tables are written as text, one word for a run
(`41-5a`, `100-12e/2`, `aa`, all in hexadecimal), and read once.
-/

namespace NestedSite.Text

/-- The value of a hexadecimal digit. -/
def hexDigit? (c : Char) : Option Nat :=
  if '0' ≤ c ∧ c ≤ '9' then some (c.toNat - 48)
  else if 'a' ≤ c ∧ c ≤ 'f' then some (c.toNat - 87)
  else if 'A' ≤ c ∧ c ≤ 'F' then some (c.toNat - 55)
  else none

/-- The number that a run of hexadecimal digits writes; other characters count for nothing. -/
def hexValue (s : String) : Nat :=
  s.toList.foldl (fun n c => match hexDigit? c with | some d => 16 * n + d | none => n) 0

/-- The words of a table, between which stand spaces and line ends. -/
def tableWords (s : String) : List String :=
  (((s.splitOn "\n").map fun line => line.splitOn " ").flatten).filter (· ≠ "")

/-- Characters from `low` to `high`, `step` apart. -/
structure Run where
  low : Nat
  high : Nat
  step : Nat
  deriving Repr, DecidableEq

namespace Run

/-- Reads `low`, `low-high` or `low-high/step`. -/
def ofText (word : String) : Run :=
  match word.splitOn "/" with
  | [ends, step] => go ends (hexValue step)
  | _ => go word 1
where
  go (ends : String) (step : Nat) : Run :=
    match ends.splitOn "-" with
    | [low, high] => ⟨hexValue low, hexValue high, step⟩
    | _ => ⟨hexValue ends, hexValue ends, step⟩

def contains (r : Run) (n : Nat) : Bool :=
  r.low ≤ n && n ≤ r.high && (n - r.low) % r.step == 0

end Run

/-- An ascending array of runs that do not overlap. -/
structure CharSet where
  runs : Array Run

namespace CharSet

def ofText (s : String) : CharSet :=
  ⟨(tableWords s).map Run.ofText |>.toArray⟩

/-- The last run of `runs[from, from + size)` that starts at or below `n`, found by halving. -/
def lastAtMost (starts : Nat → Nat) (n : Nat) : Nat → Nat → Nat → Nat
  | 0, low, _ => low
  | fuel + 1, low, size =>
    if size ≤ 1 then low
    else
      let half := size / 2
      if starts (low + half) ≤ n then lastAtMost starts n fuel (low + half) (size - half)
      else lastAtMost starts n fuel low half

/-- Whether the character with code point `n` is in the set. -/
def containsCode (s : CharSet) (n : Nat) : Bool :=
  let at? := lastAtMost (fun i => (s.runs[i]?.map Run.low).getD 0) n 32 0 s.runs.size
  match s.runs[at?]? with
  | some r => r.contains n
  | none => false

def contains (s : CharSet) (c : Char) : Bool := s.containsCode c.toNat

end CharSet

end NestedSite.Text
