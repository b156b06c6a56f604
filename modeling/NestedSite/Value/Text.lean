import NestedSite.Number.Text
import NestedSite.Value.Equality

/-!
# The text of values

`Store.show` writes a value as it is written in code, `Store.text` as it is put out: a text is then put out as it
stands, and days, moments, legends and metadata have plainer forms. A list or mapping inside itself is shown as three
dots in its brackets. `Store.truth` says which values count as true, `Store.length?` which have a length. A fault
about a key that is missing shows the key, which may fail (`Run.missingKey`).
-/

namespace NestedSite

open Number Text

/-- The greatest number of digits of a whole number that is written or read. -/
def digitLimit : Nat := 4300

def intText (n : Int) : Except Fault String :=
  if tenTo digitLimit ≤ n.natAbs then throw .badValue else pure (toString n)

/-- Bytes as they are written in code. -/
def bytesText (bs : List UInt8) : String :=
  let cs := bs.map fun b => Char.ofNat b.toNat
  .ofList ('b' :: Quoted.encodeWith (fun c => 32 ≤ c.toNat && c.toNat < 127) cs)

namespace Date

def shown (d : Date) : String := s!"datetime.date({d.year}, {d.month}, {d.day})"

end Date

namespace Moment

def shown (m : Moment) : String :=
  let parts := [m.date.year, m.date.month, m.date.day, m.hour, m.minute] ++
    (if m.microsecond != 0 then [m.second, m.microsecond] else if m.second != 0 then [m.second] else [])
  let zone := match m.offset with
    | none => ""
    | some 0 => ", tzinfo=datetime.timezone.utc"
    | some n => ", tzinfo=datetime.timezone(" ++ span n ++ ")"
  "datetime.datetime(" ++ ", ".intercalate (parts.map toString) ++ zone ++ ")"
where
  /-- A span of time in days and seconds, of which only the days may be negative. -/
  span (n : Int) : String :=
    let days := n / 86400
    let seconds := n % 86400
    let parts := (if days == 0 then [] else [s!"days={days}"]) ++ (if seconds == 0 then [] else [s!"seconds={seconds}"])
    "datetime.timedelta(" ++ ", ".intercalate parts ++ ")"

end Moment

/-- The fields of a legend in their order. -/
def Legend.fields (l : Legend) : List (String × Value) :=
  ("name", .text l.name) :: ("echo", (l.echo.map Value.text).getD .none) :: l.extras

/-- The fields of the metadata of a directory in their order. -/
def Metadata.fields (m : Metadata) : List (String × Value) :=
  ("ignore", (m.ignore.map Value.text).getD .none) :: ("files", .list m.files) :: m.extras

namespace Store

/-- Writes a value as it is written in code, to the depth `n`; `inside` holds the lists, mappings and sets that are
being written. -/
def showTo (s : Store) : Nat → List Value → Value → Except Fault String
  | 0, _, _ => throw .tooDeep
  | n + 1, inside, v => do
    let showAll := fun (inside : List Value) (vs : List Value) => do
      return ", ".intercalate (← vs.mapM (s.showTo n inside))
    let nested := fun (dots : String) (write : List Value → Except Fault String) =>
      if inside.any v.identical then pure dots else write (v :: inside)
    let showFields := fun (fields : List (String × Value)) => do
      return ", ".intercalate (← fields.mapM fun (k, v) => return k ++ "=" ++ (← s.showTo n inside v))
    match v with
    | .none => return "None"
    | .bool b => return if b then "True" else "False"
    | .int k => intText k
    | .float x => return floatText x
    | .complex re im => return complexText re im
    | .text t => return quoted t
    | .bytes bs => return bytesText bs
    | .date d => return d.shown
    | .moment m => return m.shown
    | .ellipsis => return "Ellipsis"
    | .tuple [x] => return "(" ++ (← s.showTo n inside x) ++ ",)"
    | .tuple xs => return "(" ++ (← showAll inside xs) ++ ")"
    | .range a b c => return "range(" ++ ", ".intercalate ((if c == 1 then [a, b] else [a, b, c]).map toString) ++ ")"
    | .slice a b c => return "slice(" ++ (← showAll inside [a, b, c]) ++ ")"
    | .list p => nested "[...]" fun inside => return "[" ++ (← showAll inside (s.list p)) ++ "]"
    | .dict p => nested "\x7b...\x7d" fun inside => do
      let entries ← (s.dict p).mapM fun (k, v) => return (← s.showTo n inside k) ++ ": " ++ (← s.showTo n inside v)
      return "\x7b" ++ ", ".intercalate entries ++ "\x7d"
    | .set p =>
      if (s.set p).isEmpty then return "set()"
      else nested "set(...)" fun inside => return "\x7b" ++ (← showAll inside (s.set p)) ++ "\x7d"
    | .view kind p => nested "..." fun inside =>
      return v.typeName s ++ "([" ++ (← showAll inside ((s.dict p).view kind)) ++ "])"
    | .legend p => return "Legend(" ++ (← showFields (s.legend p).fields) ++ ")"
    | .metadata p => return "Metadata(" ++ (← showFields (s.metadataAt p).fields) ++ ")"
    | .cursor _ => return "<" ++ v.typeName s ++ " object>"
    | .builtin b => return (if b.isType then "<class '" else "<built-in function ") ++ b.name ++
        (if b.isType then "'>" else ">")
    | .helper _ => return "<helper>"
    | .foreignType t => return "<class '" ++ t ++ "'>"
    | .method _ f => return "<method '" ++ f ++ "'>"
    | .classMethod t f => return "<method '" ++ f ++ "' of '" ++ t ++ "'>"
    | .typeMethod t f => return "<method '" ++ f ++ "' of '" ++ t ++ "' objects>"
    | .typeField "range" f => return "<member '" ++ f ++ "' of 'range' objects>"
    | .typeField t f => return "<attribute '" ++ f ++ "' of '" ++ t ++ "' objects>"

/-- A value as it is written in code. -/
def «show» (s : Store) (v : Value) : Except Fault String := s.showTo depthLimit [] v

/-- A value as it is put out. -/
def text (s : Store) (v : Value) : Except Fault String :=
  let plainFields := fun (fields : List (String × Value)) => do
    return " ".intercalate (← fields.mapM fun (k, v) => return k ++ "=" ++ (← s.show v))
  match v with
  | .text t => pure t
  | .date d => pure d.iso
  | .moment m => pure m.text
  | .legend p => plainFields (s.legend p).fields
  | .metadata p => plainFields (s.metadataAt p).fields
  | v => s.show v

/-- The number of items of a value that has such a number. -/
def length? (s : Store) : Value → Option Nat
  | .text t => some t.length
  | .bytes bs => some bs.length
  | .tuple xs => some xs.length
  | .list p => some (s.list p).length
  | .dict p | .view _ p => some (s.dict p).length
  | .set p => some (s.set p).length
  | .range a b c => some (Value.rangeLength a b c)
  | _ => none

/-- What counts as true: all but nothing, the zeros and what is empty. -/
def truth (s : Store) : Value → Bool
  | .none => false
  | .bool b => b
  | .int n => n != 0
  | .float x => x != 0
  | .complex re im => re != 0 || im != 0
  | v => match s.length? v with
    | some n => n != 0
    | none => true

end Store

namespace Run

/-- Fails on a key that is missing. The key is part of the words of the fault, and may have none itself. -/
def missingKey (k : Value) : Run α := do
  match (← store).show k with
  | .ok _ => throw .missingKey
  | .error why => throw (.unwritableKey why)

end Run

end NestedSite
