import NestedSite.Text.Search
import NestedSite.Value.Text

/-!
# Going through values

`Run.cursor` opens a cursor on a value, `Run.next?` takes its next item and `Run.items` all that are left. A list is
read as it is when an item is reached, so that items appended meanwhile are met too; a mapping must not change its size
while it is read.
-/

namespace NestedSite

/-- The characters of a text, each as a text. -/
def characters (t : String) : List Value := t.toList.map fun c => .text (.singleton c)

/-- The numbers from `next` on, `step` apart. -/
def numbers (next step : Int) : Nat → List Value
  | 0 => []
  | n + 1 => .int next :: numbers (next + step) step n

/-- How many items there are left, unless they come from other cursors. -/
def Cursor.left (s : Store) : Cursor → Nat
  | list p next => (s.list p).length - next
  | listBack _ left => left
  | dict _ p next _ => (s.dict p).length - next
  | dictBack _ _ left _ => left
  | range _ _ left => left
  | items _ rest => rest.length
  | enumerate .. | zip .. | done _ => 0

namespace Run

/-- Opens a cursor on a value, unless it is one. -/
def cursor (v : Value) : Run Nat := do
  match v with
  | .cursor p => return p
  | .list p => newCursor (.list p 0)
  | .dict p => newCursor (.dict .keys p 0 (← dict p).length)
  | .view kind p => newCursor (.dict kind p 0 (← dict p).length)
  | .set p => newCursor (.items "set_iterator" (← set p))
  | .tuple xs => newCursor (.items "tuple_iterator" xs)
  | .text t => newCursor (.items "str_iterator" (characters t))
  | .bytes bs => newCursor (.items "bytes_iterator" (bs.map fun b => .int b.toNat))
  | .range a b c => newCursor (.range a c (Value.rangeLength a b c))
  | .legend p => newCursor (.items "generator" (fieldPairs ((← store).legend p).fields))
  | .metadata p => newCursor (.items "generator" (fieldPairs ((← store).metadataAt p).fields))
  | _ => wrongType
where
  fieldPairs (fields : List (String × Value)) : List Value := fields.map fun (k, v) => .tuple [.text k, v]

/-- How many items a cursor has left, as far as that can be told. -/
def left (place : Nat) : Run Nat := do
  let s ← store
  return (s.cursor place).left s

/-- Takes the next item of a cursor; the cursors that it goes through nest at most `n` deep. -/
def nextTo? : Nat → Nat → Run (Option Value)
  | 0, _ => throw .tooDeep
  | n + 1, place => do
    let s ← store
    let ended := fun (type : String) => do
      setCursor place (.done type)
      return none
    match s.cursor place with
    | .list p k =>
      match (s.list p)[k]? with
      | some v => setCursor place (.list p (k + 1)); return some v
      | none => ended "list_iterator"
    | .listBack p left =>
      match left with
      | 0 => ended "list_reverseiterator"
      | k + 1 =>
        match (s.list p)[k]? with
        | some v => setCursor place (.listBack p k); return some v
        | none => ended "list_reverseiterator"
    | .dict kind p k size =>
      if (s.dict p).length != size then throw .changedWhileRead
      match ((s.dict p).view kind)[k]? with
      | some v => setCursor place (.dict kind p (k + 1) size); return some v
      | none => ended (Cursor.dict kind p k size).type
    | .dictBack kind p left size =>
      if (s.dict p).length != size then throw .changedWhileRead
      match left with
      | 0 => ended (Cursor.dictBack kind p left size).type
      | k + 1 =>
        match ((s.dict p).view kind)[k]? with
        | some v => setCursor place (.dictBack kind p k size); return some v
        | none => ended (Cursor.dictBack kind p left size).type
    | .range next step left =>
      match left with
      | 0 => return none
      | k + 1 => setCursor place (.range (next + step) step k); return some (.int next)
    | .items type rest =>
      match rest with
      | [] => return none
      | v :: rest => setCursor place (.items type rest); return some v
    | .enumerate inner count =>
      match ← nextTo? n inner with
      | some v => setCursor place (.enumerate inner (count + 1)); return some (.tuple [.int count, v])
      | none => return none
    | .zip inner strict =>
      if inner.isEmpty then return none
      match ← row n [] inner with
      | (vs, false) => return some (.tuple vs)
      | (vs, true) =>
        if strict then
          if !vs.isEmpty then throw .badValue
          for p in inner.drop 1 do
            if (← nextTo? n p).isSome then throw .badValue
        return none
    | .done _ => return none
where
  /-- One item of each cursor, until one has ended. -/
  row (n : Nat) (taken : List Value) : List Nat → Run (List Value × Bool)
    | [] => return (taken.reverse, false)
    | p :: rest => do
      match ← nextTo? n p with
      | some v => row n (v :: taken) rest
      | none => return (taken.reverse, true)

/-- The next item of a cursor. -/
def next? (place : Nat) : Run (Option Value) := nextTo? depthLimit place

/-- The items that a cursor has left. -/
def drain (place : Nat) : Run (List Value) := go sizeLimit []
where
  go : Nat → List Value → Run (List Value)
    | 0, _ => throw .tooLarge
    | n + 1, taken => do
      match ← next? place with
      | some v => go n (v :: taken)
      | none => return taken.reverse

/-- All items of a value. -/
def items (v : Value) : Run (List Value) := do
  match v with
  | .list p => list p
  | .tuple xs => return xs
  | .dict p => return (← dict p).keys
  | .view kind p => return (← dict p).view kind
  | .set p => set p
  | .text t => return characters t
  | .bytes bs => return bs.map fun b => .int b.toNat
  | .range a b c =>
    let n := Value.rangeLength a b c
    if Number.twoTo 63 ≤ n then throw .overflow
    if sizeLimit < n then throw .tooLarge
    return numbers a c n
  | v => drain (← cursor v)

/-- Whether a value is found in another. -/
def contains (container v : Value) : Run Bool := do
  match container with
  | .text t =>
    match v with
    | .text part => return (Text.indexOf? part.toList t.toList).isSome
    | _ => wrongType
  | .dict p | .view .keys p => return ((← dict p).find? (← v.key)).isSome
  | .set p =>
    match v with
    | .set _ => return hasKey (← set p) v
    | v => return hasKey (← set p) (← v.key)
  | .bytes bs =>
    match v with
    | .bytes part => return (indexOfBytes? part bs).isSome
    | v => match v.int? with
      | some n => if 0 ≤ n && n < 256 then return bs.any fun b => (b.toNat : Int) == n else throw .badValue
      | none => wrongType
  | .range a b c =>
    match v.int? with
    | some n => return inRange a b c n
    | none => return (← findIn (← items container)).isSome
  | container => return (← findIn (← items container)).isSome
where
  indexOfBytes? (part : List UInt8) : List UInt8 → Option Nat
    | [] => if part.isEmpty then some 0 else none
    | b :: bs => if part.isPrefixOf (b :: bs) then some 0 else (indexOfBytes? part bs).map (· + 1)
  inRange (a b c n : Int) : Bool :=
    Value.rangeLength a b c != 0 && (n - a) % c == 0 && (if 0 < c then a ≤ n && n < b else b < n && n ≤ a)
  findIn (items : List Value) : Run (Option Nat) := do read fun s => s.indexOf? v items

end Run

end NestedSite
