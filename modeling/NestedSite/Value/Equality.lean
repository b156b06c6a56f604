import NestedSite.Number.Binary
import NestedSite.Value.Basic

/-!
# Sameness and order of values

Three relations tell values apart. `Value.identical` holds of values that are one and the same; `Value.sameKey` decides
which entry of a mapping or element of a set is meant, and needs no store, since keys cannot change; `Store.equal`
compares what lists, mappings and sets hold. Numbers are compared by their exact value whatever their type. A value
that is not equal to itself still counts as found where it is identical.
-/

namespace NestedSite

open Number

/-- A value as a number; truth values are 0 and 1. -/
inductive Numeric where
  | int (n : Int)
  | float (x : Float)
  | complex (re im : Float)

def Value.numeric? : Value → Option Numeric
  | .bool b => some (.int (if b then 1 else 0))
  | .int n => some (.int n)
  | .float x => some (.float x)
  | .complex re im => some (.complex re im)
  | _ => Option.none

/-- A value as a whole number, if its type says that it is one. -/
def Value.int? : Value → Option Int
  | .bool b => some (if b then 1 else 0)
  | .int n => some n
  | _ => Option.none

namespace Numeric

/-- The exact values of the real and the imaginary part. -/
def quantity? : Numeric → Option (Quantity × Quantity)
  | int n => some (.finite n, .finite 0)
  | float x => (Number.quantity? x).map (·, .finite 0)
  | complex re im => do return (← Number.quantity? re, ← Number.quantity? im)

/-- Numbers are equal if they have one exact value. -/
def equal : Numeric → Numeric → Bool
  | int a, int b => a == b
  | m, n =>
    match m.quantity?, n.quantity? with
    | some u, some v => u == v
    | _, _ => false

end Numeric

/-- An order relation. -/
inductive OrderOp where
  | lt | le | gt | ge
  deriving Repr, DecidableEq

namespace OrderOp

def holds : OrderOp → Ordering → Bool
  | lt, o => o == .lt
  | le, o => o != .gt
  | gt, o => o == .gt
  | ge, o => o != .lt

def floats : OrderOp → Float → Float → Bool
  | lt, x, y => x < y
  | le, x, y => x <= y
  | gt, x, y => y < x
  | ge, x, y => y <= x

/-- Numbers that are not complex are ordered; what is not a number is in no order. -/
def numerics? (op : OrderOp) : Numeric → Numeric → Option Bool
  | .int a, .int b => some (op.holds (compare a b))
  | .int a, .float x => some (((compareInt? a x).map op.holds).getD false)
  | .float x, .int a => some (((compareInt? a x).map fun o => op.holds o.swap).getD false)
  | .float x, .float y => some (op.floats x y)
  | _, _ => none

end OrderOp

namespace Value

/-- The number of items of a range. -/
def rangeLength (start stop step : Int) : Nat :=
  if 0 < step then if start < stop then ((stop - start - 1) / step + 1).toNat else 0
  else if stop < start then ((start - stop - 1) / (-step) + 1).toNat else 0

/-- Ranges are the same if they have the same items. -/
def sameRange (a b : Int × Int × Int) : Bool :=
  let n := rangeLength a.1 a.2.1 a.2.2
  n == rangeLength b.1 b.2.1 b.2.2 && (n == 0 || (a.1 == b.1 && (n == 1 || a.2.2 == b.2.2)))

/-- Moments are the same if both know their distance from universal time and are one instant, or neither does and they
are written alike. -/
def sameMoment (a b : Moment) : Bool :=
  a.offset.isSome == b.offset.isSome && a.instant == b.instant

mutual

/-- Whether two values are one and the same. -/
def identical : Value → Value → Bool
  | none, none | ellipsis, ellipsis => true
  | bool a, bool b => a == b
  | int a, int b => a == b
  | float x, float y => x.toBits == y.toBits
  | complex a b, complex c d => a.toBits == c.toBits && b.toBits == d.toBits
  | text a, text b => a == b
  | bytes a, bytes b => a == b
  | date a, date b => a == b
  | moment a, moment b => a == b
  | tuple xs, tuple ys => identicalAll xs ys
  | range a b c, range d e f => a == d && b == e && c == f
  | slice a b c, slice d e f => identical a d && identical b e && identical c f
  | list p, list q | dict p, dict q | set p, set q | cursor p, cursor q => p == q
  | legend p, legend q | metadata p, metadata q => p == q
  | view k p, view l q => k == l && p == q
  | builtin a, builtin b => a == b
  | helper a, helper b => a == b
  | foreignType a, foreignType b => a == b
  | method a f, method b g => identical a b && f == g
  | typeMethod a f, typeMethod b g | classMethod a f, classMethod b g | typeField a f, typeField b g =>
    a == b && f == g
  | _, _ => false

def identicalAll : List Value → List Value → Bool
  | [], [] => true
  | x :: xs, y :: ys => identical x y && identicalAll xs ys
  | _, _ => false

end

mutual

/-- Whether two keys mean the same entry. -/
def sameKey : Value → Value → Bool
  | tuple xs, tuple ys => sameKeys xs ys
  | range a b c, range d e f => sameRange (a, b, c) (d, e, f)
  | moment a, moment b => sameMoment a b
  | a, b =>
    identical a b ||
      match a.numeric?, b.numeric? with
      | some m, some n => m.equal n
      | _, _ => false

def sameKeys : List Value → List Value → Bool
  | [], [] => true
  | x :: xs, y :: ys => sameKey x y && sameKeys xs ys
  | _, _ => false

end

mutual

/-- Whether a value can be a key, that is, cannot change. -/
def isKey : Value → Bool
  | list _ | dict _ | set _ | slice .. | legend _ | metadata _ => false
  | view .values _ => true
  | view .. => false
  | tuple xs => areKeys xs
  | _ => true

def areKeys : List Value → Bool
  | [] => true
  | x :: xs => isKey x && areKeys xs

end

/-- A key, or a fault if the value cannot be one. -/
def key {m : Type → Type} [Monad m] [MonadExceptOf Fault m] (v : Value) : m Value :=
  if v.isKey then pure v else wrongType

end Value

namespace Entries

/-- What a key is bound to. -/
def find? (entries : Entries) (k : Value) : Option Value :=
  (List.find? (fun e => e.1.sameKey k) entries).map Prod.snd

/-- Binds a key: in its place if it is there, at the end otherwise. -/
def insert : Entries → Value → Value → Entries
  | [], k, v => [(k, v)]
  | (k', v') :: rest, k, v => if k'.sameKey k then (k', v) :: rest else (k', v') :: insert rest k v

def erase (entries : Entries) (k : Value) : Entries := List.filter (fun e => !e.1.sameKey k) entries

def keys (entries : Entries) : List Value := List.map Prod.fst entries

def values (entries : Entries) : List Value := List.map Prod.snd entries

/-- The entries as pairs. -/
def items (entries : Entries) : List Value := List.map (fun (k, v) => .tuple [k, v]) entries

/-- Binds the keys of `other`, one after the other. -/
def merge (entries other : Entries) : Entries := other.foldl (fun all (k, v) => all.insert k v) entries

/-- What `kind` shows of a mapping. -/
def view (entries : Entries) : ViewKind → List Value
  | .keys => entries.keys
  | .values => entries.values
  | .items => entries.items

end Entries

/-- Whether an element of `set` is the same key as `v`. -/
def hasKey (set : List Value) (v : Value) : Bool := set.any fun u => u.sameKey v

/-- Adds an element unless it is there. -/
def addKey (set : List Value) (v : Value) : List Value := if hasKey set v then set else set ++ [v]

namespace Store

/-- Whether `f` holds of the items at the same positions of two lists of one length. -/
def allPairs (f : α → β → Except Fault Bool) : List α → List β → Except Fault Bool
  | [], [] => pure true
  | x :: xs, y :: ys => do if ← f x y then allPairs f xs ys else pure false
  | _, _ => pure false

/-- Whether `f` holds of some item. -/
def anyItem (f : α → Except Fault Bool) : List α → Except Fault Bool
  | [] => pure false
  | x :: xs => do if ← f x then pure true else anyItem f xs

/-- Whether `f` holds of all items. -/
def allItems (f : α → Except Fault Bool) : List α → Except Fault Bool
  | [] => pure true
  | x :: xs => do if ← f x then allItems f xs else pure false

/-- The elements that a view or a set shows as a set. -/
def elements? (s : Store) : Value → Option (List Value)
  | .set p => some (s.set p)
  | .view .keys p => some (s.dict p).keys
  | .view .items p => some (s.dict p).items
  | _ => none

/-- Equality to the depth `n`. -/
def equalTo (s : Store) : Nat → Value → Value → Except Fault Bool
  | 0, _, _ => throw .tooDeep
  | n + 1, a, b =>
    let same := fun x y => if Value.identical x y then pure true else s.equalTo n x y
    let sameFields := fun (x y : List (String × Value)) =>
      if x.length == y.length then
        allItems (fun (k, v) => match y.find? (fun e => e.1 == k) with
          | some (_, w) => same v w
          | none => pure false) x
      else pure false
    match a, b with
    | .tuple xs, .tuple ys => if xs.length == ys.length then allPairs same xs ys else pure false
    | .list p, .list q =>
      let xs := s.list p
      let ys := s.list q
      if xs.length == ys.length then allPairs same xs ys else pure false
    | .dict p, .dict q =>
      let xs := s.dict p
      let ys := s.dict q
      if xs.length == ys.length then
        allItems (fun (k, v) => match ys.find? k with
          | some w => same v w
          | none => pure false) xs
      else pure false
    | .range a b c, .range d e f => pure (Value.sameRange (a, b, c) (d, e, f))
    | .moment a, .moment b => pure (Value.sameMoment a b)
    | .slice a b c, .slice d e f => allPairs same [a, b, c] [d, e, f]
    | .legend p, .legend q =>
      let l := s.legend p
      let m := s.legend q
      if l.name == m.name && l.echo == m.echo then sameFields l.extras m.extras else pure false
    | .metadata p, .metadata q => do
      let l := s.metadataAt p
      let m := s.metadataAt q
      if l.ignore == m.ignore then
        if ← same (.list l.files) (.list m.files) then sameFields l.extras m.extras else pure false
      else pure false
    | .view .values p, .view .values q => pure (p == q)
    | a, b =>
      match a.numeric?, b.numeric? with
      | some m, some n => pure (m.equal n)
      | _, _ =>
        match s.elements? a, s.elements? b with
        | some xs, some ys =>
          if xs.length == ys.length then
            allItems (fun x => anyItem (fun y => same x y) ys) xs
          else pure false
        | _, _ => pure (a.identical b)

/-- Whether two values are equal. -/
def equal (s : Store) (a b : Value) : Except Fault Bool := s.equalTo depthLimit a b

/-- Whether a value is found at an item: it is the item or is equal to it. -/
def matchesItem (s : Store) (v item : Value) : Except Fault Bool :=
  if Value.identical item v then pure true else s.equal item v

/-- The position of the first item at which a value is found. -/
def indexOf? (s : Store) (v : Value) : List Value → Except Fault (Option Nat)
  | [] => pure none
  | x :: xs => do if ← s.matchesItem v x then pure (some 0) else return (← s.indexOf? v xs).map (· + 1)

/-- How often a value is found. -/
def count (s : Store) (v : Value) : List Value → Except Fault Nat
  | [] => pure 0
  | x :: xs => do
    let found ← s.matchesItem v x
    return (← s.count v xs) + (if found then 1 else 0)

/-! ## Order -/

/-- The items at the first position where two lists differ. -/
def firstDifference (f : Value → Value → Except Fault Bool) :
    List Value → List Value → Except Fault (Option (Value × Value))
  | x :: xs, y :: ys => do if ← f x y then firstDifference f xs ys else return some (x, y)
  | _, _ => pure none

/-- The order of texts, by code points. -/
def compareTexts (a b : String) : Ordering := compareLex (fun a b => compare a b) a.toList b.toList
where
  compareLex (f : Char → Char → Ordering) : List Char → List Char → Ordering
    | [], [] => .eq
    | [], _ => .lt
    | _, [] => .gt
    | x :: xs, y :: ys => (f x y).then (compareLex f xs ys)

def compareBytes : List UInt8 → List UInt8 → Ordering
  | [], [] => .eq
  | [], _ => .lt
  | _, [] => .gt
  | x :: xs, y :: ys => (compare x y).then (compareBytes xs ys)

/-- An order relation to the depth `n`. Lists are ordered by their first difference, or by their lengths; sets by
inclusion. -/
def orderedTo (s : Store) (op : OrderOp) : Nat → Value → Value → Except Fault Bool
  | 0, _, _ => throw .tooDeep
  | n + 1, a, b =>
    let sequences := fun (xs ys : List Value) => do
      match ← firstDifference (fun x y => if x.identical y then pure true else s.equal x y) xs ys with
      | some (x, y) => s.orderedTo op n x y
      | none => pure (op.holds (compare xs.length ys.length))
    match a, b with
    | .text x, .text y => pure (op.holds (compareTexts x y))
    | .bytes x, .bytes y => pure (op.holds (compareBytes x y))
    | .tuple xs, .tuple ys => sequences xs ys
    | .list p, .list q => sequences (s.list p) (s.list q)
    | .date x, .date y => pure (op.holds (x.compare y))
    | .moment x, .moment y =>
      if x.offset.isSome == y.offset.isSome then pure (op.holds (compare x.instant y.instant)) else wrongType
    | a, b =>
      match a.numeric?, b.numeric? with
      | some m, some n => match op.numerics? m n with
        | some r => pure r
        | none => wrongType
      | _, _ =>
        match s.elements? a, s.elements? b with
        | some xs, some ys => inclusion xs ys
        | _, _ => wrongType
where
  inclusion (xs ys : List Value) : Except Fault Bool :=
    let within := fun (xs ys : List Value) => allItems (fun x => anyItem (s.matchesItem x) ys) xs
    match op with
    | .le => within xs ys
    | .ge => within ys xs
    | .lt => if xs.length < ys.length then within xs ys else pure false
    | .gt => if ys.length < xs.length then within ys xs else pure false

def ordered (s : Store) (op : OrderOp) (a b : Value) : Except Fault Bool := s.orderedTo op depthLimit a b

/-! ## Sorting -/

/-- Merges two sorted lists; of items in no order the left one comes first. -/
def mergeSorted (less : α → α → Except Fault Bool) (left right : List α) : Except Fault (List α) :=
  go (left.length + right.length) left right
where
  go : Nat → List α → List α → Except Fault (List α)
    | _, [], ys => pure ys
    | _, xs, [] => pure xs
    | 0, xs, ys => pure (xs ++ ys)
    | n + 1, x :: xs, y :: ys => do
      if ← less y x then return y :: (← go n (x :: xs) ys) else return x :: (← go n xs (y :: ys))

/-- Sorts by merging; equal items keep their order. -/
def sortBy (less : α → α → Except Fault Bool) (items : List α) : Except Fault (List α) :=
  go items.length items
where
  go : Nat → List α → Except Fault (List α)
    | 0, items => pure items
    | n + 1, items =>
      if items.length ≤ 1 then pure items
      else do
        let half := items.length / 2
        mergeSorted less (← go n (items.take half)) (← go n (items.drop half))

end Store

end NestedSite
