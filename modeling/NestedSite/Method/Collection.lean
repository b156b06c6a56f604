import NestedSite.Method.Arguments

/-!
# Methods of lists, tuples, mappings, sets, ranges and views

Of a mapping, templates reach by itself only the methods that look at it (`safeDictMethods`); the others are reached
through the type.
-/

namespace NestedSite

def listMethods : List String :=
  ["append", "clear", "copy", "count", "extend", "index", "insert", "pop", "remove", "reverse", "sort"]

def tupleMethods : List String := ["count", "index"]

def setMethods : List String :=
  ["add", "clear", "copy", "difference", "difference_update", "discard", "intersection", "intersection_update",
    "isdisjoint", "issubset", "issuperset", "pop", "remove", "symmetric_difference", "symmetric_difference_update",
    "union", "update"]

/-- The methods that a mapping shows of itself. -/
def safeDictMethods : List String := ["get", "items", "keys", "values"]

def dictMethods : List String :=
  ["clear", "copy", "get", "items", "keys", "pop", "popitem", "setdefault", "update", "values"]

def rangeMethods : List String := ["count", "index"]

def viewMethods : ViewKind → List String
  | .values => []
  | _ => ["isdisjoint"]

namespace Run

/-- The place among `items` from which, and up to which, a value is looked for. -/
def indexWithin (items : List Value) (args : Arguments) : Run Value := do
  match ← args.assign (.positional ["value"] ["start", "stop"]) with
  | [some v, start, stop] =>
    let clip := fun (n : Int) => (max 0 (if n < 0 then n + items.length else n)).toNat
    let bound := fun (b : Option Value) => match b with
      | none => pure none
      | some v => do return some (clip (← expectInt v))
    let first := (← bound start).getD 0
    let last := (← bound stop).getD items.length
    match ← read fun s => s.indexOf? v ((items.take last).drop first) with
    | some n => return .int (n + first)
    | none => throw .badValue
  | _ => wrongType

/-- Calls a method of a list, but for the sorting of it. -/
def callList (place : Nat) (name : String) (args : Arguments) : Run Value := do
  let items ← list place
  match name with
  | "append" =>
    match ← args.exactly 1 with
    | [v] => setList place (items ++ [v]); return .none
    | _ => wrongType
  | "clear" => discard <| args.exactly 0; setList place []; return .none
  | "copy" => discard <| args.exactly 0; newList items
  | "count" =>
    match ← args.exactly 1 with
    | [v] => return .int (← read fun s => s.count v items)
    | _ => wrongType
  | "extend" =>
    match ← args.exactly 1 with
    | [v] =>
      let more ← Run.items v
      setList place ((← list place) ++ more)
      return .none
    | _ => wrongType
  | "index" => indexWithin items args
  | "insert" =>
    match ← args.exactly 2 with
    | [i, v] =>
      let n ← expectSize i
      let n := (max 0 (if n < 0 then n + items.length else n)).toNat
      setList place (items.take n ++ v :: items.drop n)
      return .none
    | _ => wrongType
  | "pop" =>
    match ← args.assign (.positional [] ["index"]) with
    | [i] =>
      let n ← match i with
        | none => pure (-1)
        | some v => expectSize v
      let n := if n < 0 then n + items.length else n
      if n < 0 then throw .missingIndex
      match items[n.toNat]? with
      | some v => setList place (items.eraseIdx n.toNat); return v
      | none => throw .missingIndex
    | _ => wrongType
  | "remove" =>
    match ← args.exactly 1 with
    | [v] =>
      match ← read fun s => s.indexOf? v items with
      | some n => setList place (items.eraseIdx n); return .none
      | none => throw .badValue
    | _ => wrongType
  | "reverse" => discard <| args.exactly 0; setList place items.reverse; return .none
  | _ => wrongType

/-- Calls a method of a tuple, or of another sequence that cannot change. -/
def callTuple (items : List Value) (name : String) (args : Arguments) : Run Value := do
  match name with
  | "count" =>
    match ← args.exactly 1 with
    | [v] => return .int (← read fun s => s.count v items)
    | _ => wrongType
  | "index" => indexWithin items args
  | _ => wrongType

/-! ## Mappings -/

/-- The entries that a value gives a mapping: those of a mapping, or pairs. -/
def entriesOf (v : Value) : Run Entries := do
  match v with
  | .dict p => dict p
  | v => pairs (← items v)
where
  pairs : List Value → Run Entries
    | [] => return []
    | v :: rest => do
      match ← items v with
      | [k, w] => return (← k.key, w) :: (← pairs rest)
      | _ => throw .badValue

/-- The entries that the arguments of a mapping's constructor give. -/
def entriesOfArguments (args : Arguments) : Run Entries := do
  let first ← match args.positional with
    | [] => pure []
    | [v] => entriesOf v
    | _ => wrongType
  return Entries.merge (Entries.merge [] first) (args.named.map fun (k, v) => (.text k, v))

def callDict (place : Nat) (name : String) (args : Arguments) : Run Value := do
  let entries ← dict place
  match name with
  | "get" =>
    match ← args.assign (.positional ["key"] ["default"]) with
    | [some k, default] => return ((entries.find? (← k.key)).orElse fun _ => default).getD .none
    | _ => wrongType
  | "keys" => discard <| args.exactly 0; return .view .keys place
  | "values" => discard <| args.exactly 0; return .view .values place
  | "items" => discard <| args.exactly 0; return .view .items place
  | "clear" => discard <| args.exactly 0; setDict place []; return .none
  | "copy" => discard <| args.exactly 0; newDict entries
  | "pop" =>
    match ← args.assign (.positional ["key"] ["default"]) with
    | [some k, default] =>
      let k ← k.key
      match entries.find? k, default with
      | some v, _ => setDict place (entries.erase k); return v
      | none, some v => return v
      | none, none => missingKey k
    | _ => wrongType
  | "popitem" =>
    discard <| args.exactly 0
    match entries.getLast? with
    | some (k, v) => setDict place entries.dropLast; return .tuple [k, v]
    | none => throw .missingKey
  | "setdefault" =>
    match ← args.assign (.positional ["key"] ["default"]) with
    | [some k, default] =>
      let k ← k.key
      match entries.find? k with
      | some v => return v
      | none =>
        let v := default.getD .none
        setDict place (entries.insert k v)
        return v
    | _ => wrongType
  | "update" =>
    let more ← entriesOfArguments args
    setDict place ((← dict place).merge more)
    return .none
  | _ => wrongType

/-- A mapping of all items of a value to one value. -/
def fromKeys (args : Arguments) : Run Value := do
  match ← args.assign (.positional ["iterable"] ["value"]) with
  | [some keys, v] =>
    let keys ← (← items keys).mapM Value.key
    newDict (Entries.merge [] (keys.map fun k => (k, v.getD .none)))
  | _ => wrongType

/-! ## Sets -/

/-- The items of a value as the elements of a set. -/
def elementsOf (v : Value) : Run (List Value) := do
  return (← (← items v).mapM Value.key).foldl addKey []

/-- The elements of several values together. -/
def union (first : List Value) (others : List Value) : Run (List Value) :=
  others.foldlM (fun all v => return (← elementsOf v).foldl addKey all) first

def intersection (first : List Value) (others : List Value) : Run (List Value) :=
  others.foldlM (fun all v => do
    let other ← elementsOf v
    return all.filter (hasKey other)) first

def difference (first : List Value) (others : List Value) : Run (List Value) :=
  others.foldlM (fun all v => do
    let other ← elementsOf v
    return all.filter fun x => !hasKey other x) first

def symmetricDifference (first : List Value) (other : Value) : Run (List Value) := do
  let other ← elementsOf other
  return first.filter (fun x => !hasKey other x) ++ other.filter fun x => !hasKey first x

def callSet (place : Nat) (name : String) (args : Arguments) : Run Value := do
  let elements ← set place
  let others : Run (List Value) := if args.named.isEmpty then pure args.positional else wrongType
  let update := fun (new : List Value) => do setSet place new; return Value.none
  let one : Run Value := do
    match ← args.exactly 1 with
    | [v] => return v
    | _ => wrongType
  match name with
  | "add" => update (addKey elements (← (← one).key))
  | "clear" => discard <| args.exactly 0; update []
  | "copy" => discard <| args.exactly 0; newSet elements
  | "discard" =>
    let v ← (← one).key
    update (elements.filter fun x => !x.sameKey v)
  | "remove" =>
    let v ← (← one).key
    if hasKey elements v then update (elements.filter fun x => !x.sameKey v) else missingKey v
  | "pop" =>
    discard <| args.exactly 0
    match elements with
    | v :: rest => setSet place rest; return v
    | [] => throw .missingKey
  | "union" => newSet (← union elements (← others))
  | "update" => update (← union elements (← others))
  | "intersection" => newSet (← intersection elements (← others))
  | "intersection_update" => update (← intersection elements (← others))
  | "difference" => newSet (← difference elements (← others))
  | "difference_update" => update (← difference elements (← others))
  | "symmetric_difference" => newSet (← symmetricDifference elements (← one))
  | "symmetric_difference_update" => update (← symmetricDifference elements (← one))
  | "isdisjoint" => return .bool (← intersection elements [← one]).isEmpty
  | "issubset" => return .bool (← difference elements [← one]).isEmpty
  | "issuperset" => return .bool ((← elementsOf (← one)).all (hasKey elements))
  | _ => wrongType

/-! ## Ranges and views -/

/-- Calls a method of a range. -/
def callRange (v : Value) (name : String) (args : Arguments) : Run Value := do
  match ← args.exactly 1 with
  | [x] =>
    let all ← items v
    match name, ← read fun s => s.indexOf? x all with
    | "count", n => return .int (if n.isSome then 1 else 0)
    | "index", some n => return .int n
    | "index", none => throw .badValue
    | _, _ => wrongType
  | _ => wrongType

def callView (kind : ViewKind) (place : Nat) (name : String) (args : Arguments) : Run Value := do
  match name with
  | "isdisjoint" =>
    match ← args.exactly 1 with
    | [v] =>
      let shown := (← dict place).view kind
      let others ← items v
      return .bool (!(← read fun s => Store.anyItem (fun x => Store.anyItem (s.matchesItem x) others) shown))
    | _ => wrongType
  | _ => wrongType

end Run

end NestedSite
