import NestedSite.Method.Attribute
import NestedSite.Method.Helper

/-!
# Calls

What a template may call: the builtin functions and types, the helpers of the site, and methods. `Run.call` calls a
value; `Run.guardCall` refuses what templates must not call. Some functions take a function as their `key`; it is
called with one argument for each item.
-/

namespace NestedSite

open Number

/-- What calls reach beyond their arguments. -/
structure Host where
  /-- The directory at which relative paths start. -/
  cwd : String
  /-- Renders the template at a path with a copy of a context. -/
  renderPartial : Value → Value → Run Value

/-- A function of one argument. -/
abbrev Callback := Value → Run Value

namespace Run

/-! ## Builtin functions -/

def lengthOf (v : Value) : Run Value := do
  match (← store).length? v with
  | some n => if twoTo 63 ≤ n then throw .overflow else return .int n
  | none => wrongType

def makeRange (args : Arguments) : Run Value := do
  if !args.named.isEmpty then wrongType
  match ← args.positional.mapM expectInt with
  | [stop] => return .range 0 stop 1
  | [start, stop] => return .range start stop 1
  | [start, stop, step] => if step == 0 then throw .badValue else return .range start stop step
  | _ => wrongType

def makeReversed (v : Value) : Run Value := do
  match v with
  | .list p => return .cursor (← newCursor (.listBack p (← list p).length))
  | .tuple _ | .text _ | .bytes _ => return .cursor (← newCursor (.items "reversed" (← items v).reverse))
  | .range a b c =>
    let n := Value.rangeLength a b c
    return .cursor (← newCursor (.range (a + (n - 1) * c) (-c) n))
  | .dict p =>
    let n := (← dict p).length
    return .cursor (← newCursor (.dictBack .keys p n n))
  | .view kind p =>
    let n := (← dict p).length
    return .cursor (← newCursor (.dictBack kind p n n))
  | _ => wrongType

/-- The items with the keys by which they are compared. -/
def keyed (key : Option Callback) (items : List Value) : Run (List (Value × Value)) :=
  match key with
  | none => return items.map fun v => (v, v)
  | some f => items.mapM fun v => return (← f v, v)

/-- Sorts items by their keys. In descending order, too, equal items keep their order. -/
def sortedItems (key : Option Callback) (descending : Bool) (items : List Value) : Run (List Value) := do
  let pairs ← keyed key items
  let sort := fun (pairs : List (Value × Value)) => read fun s =>
    Store.sortBy (fun x y => s.ordered .lt x.1 y.1) pairs
  let sorted ← if descending then return (← sort pairs.reverse).reverse.map Prod.snd else sort pairs
  return sorted.map Prod.snd

/-- The first item of which no later one is in the relation `op` to it. -/
def extreme (op : OrderOp) : Value × Value → List (Value × Value) → Run Value
  | best, [] => return best.2
  | best, x :: rest => do
    if ← read fun s => s.ordered op x.1 best.1 then extreme op x rest else extreme op best rest

def extremeOf (op : OrderOp) (key : Option Callback) (args : Arguments) : Run Value := do
  if args.named.any fun (k, _) => k != "key" && k != "default" then wrongType
  let default := (args.named.find? fun (k, _) => k == "default").map Prod.snd
  let items ← match args.positional with
    | [] => wrongType
    | [v] => items v
    | vs => if default.isSome then wrongType else pure vs
  match ← keyed key items, default with
  | [], some v => return v
  | [], none => throw .badValue
  | x :: rest, _ => extreme op x rest

def sumOf (args : Arguments) : Run Value := do
  match ← args.assign (.positional ["iterable"] [] ++ .free [] ["start"]) with
  | [some v, start] =>
    match start with
    | some (.text _) | some (.bytes _) => wrongType
    | _ => pure ()
    (← items v).foldlM (binary .add) (start.getD (.int 0))
  | _ => wrongType

def absoluteOf (v : Value) : Run Value := do
  match v.numeric? with
  | some (.int n) => return .int n.natAbs
  | some (.float x) => return .float x.abs
  | some (.complex re im) => return .float (FloatPair.magnitude ⟨re, im⟩)
  | none => wrongType

def roundOf (args : Arguments) : Run Value := do
  match ← args.assign (.free ["number"] ["ndigits"]) with
  | [some v, places] =>
    let places ← match places with
      | none | some .none => pure none
      | some p => pure (some (← expectInt p))
    match v, places with
    | .float x, none =>
      match roundToInt? x with
      | some n => return .int n
      | none => throw (if x.isNaN then .badValue else .overflow)
    | .float x, some n =>
      let r := roundToPlaces x n
      if r.isInf && !x.isInf then throw .overflow else return .float r
    | v, places =>
      match v.int?, places with
      | some n, some p =>
        if 0 ≤ p then return .int n
        else if (Nat.toDigits 10 n.natAbs).length < (-p).toNat then return .int 0
        else return .int (roundToMultiple n (-p).toNat)
      | some n, none => return .int n
      | none, _ => wrongType
  | _ => wrongType

/-! ## Builtin types -/

def makeText (args : Arguments) : Run Value := do
  match ← args.assign (.free [] ["object", "encoding", "errors"]) with
  | [none, none, none] => return .text ""
  | [some v, none, none] => return .text (← text v)
  | [v, encoding, errors] =>
    match v with
    | some (.bytes bs) =>
      let named := [("encoding", encoding), ("errors", errors)].filterMap fun (k, v) => v.map fun v => (k, v)
      callBytes bs "decode" ⟨[], named⟩
    | none => return .text ""
    | _ => wrongType
  | _ => wrongType

def makeInt (args : Arguments) : Run Value := do
  match ← args.assign (.positional [] ["x"] ++ .free [] ["base"]) with
  | [none, none] => return .int 0
  | [none, some _] => wrongType
  | [some v, none] =>
    match v with
    | .text t => return .int (← read fun _ => readInt 10 t)
    | .bytes bs => return .int (← read fun _ => readInt 10 (.ofList (bs.map fun b => Char.ofNat b.toNat)))
    | .float x =>
      match truncate? x with
      | some n => return .int n
      | none => throw (if x.isNaN then .badValue else .overflow)
    | v => return .int (← expectInt v)
  | [some v, some base] =>
    let base ← expectInt base
    if base != 0 && (base < 2 || 36 < base) then throw .badValue
    let digits ← match v with
      | .text t => pure t
      | .bytes bs => pure (.ofList (bs.map fun b => Char.ofNat b.toNat))
      | _ => wrongType
    return .int (← read fun _ => readInt base.toNat digits)
  | _ => wrongType

def makeFloat (args : Arguments) : Run Value := do
  match ← args.assign (.positional [] ["x"]) with
  | [none] => return .float 0
  | [some v] =>
    match v with
    | .text t => return .float (← read fun _ => readFloat t)
    | .bytes bs => return .float (← read fun _ => readFloat (.ofList (bs.map fun b => Char.ofNat b.toNat)))
    | .float x => return .float x
    | v =>
      let n ← expectInt v
      return .float (← read fun _ => FormatSpec.floatOfInt n)
  | _ => wrongType

def makeZip (args : Arguments) : Run Value := do
  if args.named.any fun (k, _) => k != "strict" then wrongType
  let strict ← match args.named.find? fun (k, _) => k == "strict" with
    | some (_, v) => truth v
    | none => pure false
  return .cursor (← newCursor (.zip (← args.positional.mapM cursor) strict))

/-! ## Functions with a key -/

/-- The function that is given as the key, and the other arguments. -/
def keyOf (callback : Value → Callback) (args : Arguments) : Option Callback :=
  match args.named.find? fun (k, _) => k == "key" with
  | some (_, .none) | none => none
  | some (_, f) => some (callback f)

/-- Whether the order is to be descending. -/
def descending (args : Arguments) : Run Bool := do
  match args.named.find? fun (k, _) => k == "reverse" with
  | some (_, v) => return (← expectInt v) != 0
  | none => return false

def sortingOf (callback : Value → Callback) (args : Arguments) : Run (Option Callback × Bool) := do
  if args.named.any fun (k, _) => k != "key" && k != "reverse" then wrongType
  return (keyOf callback args, ← descending args)

def callBuiltin (callback : Value → Callback) (b : Builtin) (args : Arguments) : Run Value := do
  let one : Run Value := do
    match ← args.exactly 1 with
    | [v] => return v
    | _ => wrongType
  match b with
  | .len => lengthOf (← one)
  | .range => makeRange args
  | .enumerate =>
    match ← args.assign (.free ["iterable"] ["start"]) with
    | [some v, start] =>
      let start ← match start with
        | none => pure 0
        | some n => expectInt n
      return .cursor (← newCursor (.enumerate (← cursor v) start))
    | _ => wrongType
  | .sorted =>
    match args.positional with
    | [v] =>
      let all ← items v
      let (key, down) ← sortingOf callback args
      newList (← sortedItems key down all)
    | _ => wrongType
  | .reversed => makeReversed (← one)
  | .zip => makeZip args
  | .min => extremeOf .lt (keyOf callback args) args
  | .max => extremeOf .gt (keyOf callback args) args
  | .sum => sumOf args
  | .abs => absoluteOf (← one)
  | .round => roundOf args
  | .str => makeText args
  | .int => makeInt args
  | .float => makeFloat args
  | .bool =>
    match ← args.assign (.positional [] ["x"]) with
    | [some v] => return .bool (← truth v)
    | _ => return .bool false
  | .list =>
    match ← args.assign (.positional [] ["iterable"]) with
    | [some v] => newList (← items v)
    | _ => newList []
  | .dict => newDict (← entriesOfArguments args)

def callHelper (host : Host) (h : Helper) (args : Arguments) : Run Value := do
  match h with
  | .includePartial =>
    match ← args.assign (.free ["path"] ["context"]) with
    | [some path, context] => host.renderPartial path (context.getD .none)
    | _ => wrongType
  | .entitle =>
    match ← args.assign (.free ["title", "context"] []) with
    | [some title, some context] => entitle title context
    | _ => wrongType
  | .active =>
    match ← args.assign (.free ["prefix", "context"] []) with
    | [some directory, some context] =>
      return .text (if ← isActive host.cwd directory context then "active" else "")
    | _ => wrongType
  | .act =>
    match ← args.assign (.free ["prefix", "context"] []) with
    | [some directory, some context] =>
      return .text (if ← isActive host.cwd directory context then "class=\"active\"" else "")
    | _ => wrongType

/-! ## Methods -/

/-- Calls a method of a value. -/
def callMethod (callback : Value → Callback) (v : Value) (name : String) (args : Arguments) : Run Value := do
  match v with
  | .text t => callText t name args
  | .bytes bs => callBytes bs name args
  | .bool b => callInt (if b then 1 else 0) name args
  | .int n => callInt n name args
  | .float x => callFloat x name args
  | .complex re im => discard <| args.exactly 0; return .complex re (-im)
  | .date d => callMoment d.midnight true name args
  | .moment m => callMoment m false name args
  | .tuple vs => callTuple vs name args
  | .list p =>
    if name == "sort" then
      if !args.positional.isEmpty then wrongType
      let (key, down) ← sortingOf callback args
      setList p (← sortedItems key down (← list p))
      return .none
    else callList p name args
  | .dict p => callDict p name args
  | .set p => callSet p name args
  | .range .. => callRange v name args
  | .view kind p => callView kind p name args
  | .legend p => callLegend p name args
  | .metadata p => callMetadata p name args
  | _ => wrongType

/-- Whether a value is an instance of a type. -/
def isInstance (v : Value) (type : String) : Run Bool := do
  match v, type with
  | .bool _, "int" => return true
  | v, type => return v.typeName (← store) == type

/-- Calls a method of a type; its first argument is the receiver. -/
def callTypeMethod (callback : Value → Callback) (type name : String) (args : Arguments) : Run Value := do
  if type == "str" && name == "maketrans" then TextMethod.table args
  else
    match args.positional with
    | v :: rest =>
        if ← isInstance v type then callMethod callback v name { args with positional := rest } else wrongType
    | [] => wrongType

/-- Calls a method whose receiver is a type. -/
def callClassMethod (type name : String) (args : Arguments) : Run Value := do
  match type, name with
  | "dict", "fromkeys" => fromKeys args
  | _, _ => wrongType

/-- Calls a value; `callback` calls the keys that it is given. -/
def callWith (callback : Value → Callback) (host : Host) (f : Value) (args : Arguments) : Run Value := do
  match f with
  | .builtin b => callBuiltin callback b args
  | .helper h => callHelper host h args
  | .method v name => callMethod callback v name args
  | .typeMethod type name => callTypeMethod callback type name args
  | .classMethod type name => callClassMethod type name args
  | .foreignType _ => wrongType
  | f => throw (.notCallable (f.typeName (← store)))

/-- Calls a key with one argument. -/
def callKey (host : Host) (f : Value) : Callback := fun v => do
  record (.callKey f v)
  callWith (fun _ _ => wrongType) host f ⟨[v], []⟩

/-- Calls a value. -/
def call (host : Host) (f : Value) (args : Arguments) : Run Value := do
  record (.call f args.positional args.named)
  callWith (callKey host) host f args

/-- Refuses what cannot be called, and what templates must not call: types other than the builtin ones, and methods
whose receiver is a type. -/
def guardCall (f : Value) : Run Unit := do
  match f with
  | .classMethod _ name | .foreignType name => throw (.forbiddenCall name)
  | f => if f.isCallable then return () else throw (.notCallable (f.typeName (← store)))

end Run

end NestedSite
