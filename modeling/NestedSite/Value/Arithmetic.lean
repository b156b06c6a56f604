import NestedSite.Format.Percent
import NestedSite.Number.Operation
import NestedSite.Template.Expr

/-!
# Operators

`Run.binary` and `Run.unary` apply the operators of expressions, `Run.subscript` takes an item or a part of a value,
and `Run.compare` decides a comparison. Operators never change their operands.
-/

namespace NestedSite

open Number Template

/-- The power of ten above which no whole number is computed, in bits. -/
def bitLimit : Nat := 400000000

namespace Numeric

/-- A number that is not complex as a floating-point number. -/
def toFloat : Numeric → Except Fault Float
  | int n => FormatSpec.floatOfInt n
  | float x => pure x
  | complex .. => throw .wrongType

def complexParts : Numeric → Except Fault FloatPair
  | int n => return ⟨← FormatSpec.floatOfInt n, 0⟩
  | float x => pure ⟨x, 0⟩
  | complex re im => pure ⟨re, im⟩

def isComplex : Numeric → Bool
  | complex .. => true
  | _ => false

end Numeric

/-- A complex number as a value. -/
def Value.ofComplex (z : FloatPair) : Value := .complex z.re z.im

/-- A power of whole numbers. -/
def intPower (a b : Int) : Except Fault Value := do
  if b < 0 then
    if a == 0 then throw .divisionByZero
    let x ← FormatSpec.floatOfInt a
    let y ← FormatSpec.floatOfInt b
    match power x y with
    | .real r => return .float r
    | .overflow => throw .overflow
    | _ => throw .divisionByZero
  else
    if a.natAbs < 2 then return .int (Int.pow a (if a < 0 then b.toNat % 2 else min b.toNat 1))
    if bitLimit < a.natAbs.log2 * b.toNat then throw .tooLarge
    return .int (Int.pow a b.toNat)

def intOperation (op : BinaryOp) (a b : Int) : Except Fault Value := do
  match op with
  | .add => return .int (a + b)
  | .sub => return .int (a - b)
  | .mul => return .int (a * b)
  | .div =>
    if b == 0 then throw .divisionByZero
    let r := quotient a b
    if r.isInf then throw .overflow else return .float r
  | .floorDiv => if b == 0 then throw .divisionByZero else return .int (a.fdiv b)
  | .mod => if b == 0 then throw .divisionByZero else return .int (a.fmod b)
  | .pow => intPower a b
  | _ => wrongType

def floatOperation (op : BinaryOp) (x y : Float) : Except Fault Value := do
  match op with
  | .add => return .float (x + y)
  | .sub => return .float (x - y)
  | .mul => return .float (x * y)
  | .div => if y == 0 then throw .divisionByZero else return .float (x / y)
  | .floorDiv => if y == 0 then throw .divisionByZero else return .float (floorDivMod x y).1
  | .mod => if y == 0 then throw .divisionByZero else return .float (floorDivMod x y).2
  | .pow =>
    match power x y with
    | .real r => return .float r
    | .complex z => return .ofComplex z
    | .overflow => throw .overflow
    | .undefined => throw .divisionByZero
  | _ => wrongType

def complexOperation (op : BinaryOp) (a b : FloatPair) : Except Fault Value := do
  match op with
  | .add => return .ofComplex (a.add b)
  | .sub => return .ofComplex (a.sub b)
  | .mul => return .ofComplex (a.mul b)
  | .div => match a.div? b with
    | some z => return .ofComplex z
    | none => throw .divisionByZero
  | .pow => match a.pow? b with
    | some z => if z.re.isInf || z.im.isInf then throw .overflow else return .ofComplex z
    | none => throw .divisionByZero
  | _ => wrongType

def numericOperation (op : BinaryOp) (a b : Numeric) : Except Fault Value := do
  match a, b with
  | .int a, .int b => intOperation op a b
  | a, b =>
    if a.isComplex || b.isComplex then complexOperation op (← a.complexParts) (← b.complexParts)
    else floatOperation op (← a.toFloat) (← b.toFloat)

namespace Run

/-- A list written `n` times in a row, a negative number counting as zero; `excess` is the fault of a length beyond
all counting. -/
def times (excess : Fault) (items : List α) (n : Int) : Except Fault (List α) := do
  if twoTo 63 ≤ n.natAbs then throw .overflow
  if items.isEmpty then return []
  let size := items.length * n.toNat
  if twoTo 63 ≤ size then throw excess
  checkSize size
  return (List.replicate n.toNat items).flatten

/-- A sequence repeated, if `v` is one. -/
def repeated? (v : Value) (n : Int) : Run (Option Value) := do
  match v with
  | .text t => return some (.text (.ofList (← read fun _ => times .overflow t.toList n)))
  | .bytes bs => return some (.bytes (← read fun _ => times .overflow bs n))
  | .tuple vs => return some (.tuple (← read fun _ => times .tooLarge vs n))
  | .list p =>
    let items ← list p
    return some (← newList (← read fun _ => times .tooLarge items n))
  | _ => return none

def binary (op : BinaryOp) (a b : Value) : Run Value := do
  match op, a, b with
  | .add, .text x, .text y => return .text (x ++ y)
  | .add, .bytes x, .bytes y => return .bytes (x ++ y)
  | .add, .tuple x, .tuple y => return .tuple (x ++ y)
  | .add, .list p, .list q => newList ((← list p) ++ (← list q))
  | .mod, .text t, v => return .text (← read fun s => s.fillIn t v)
  | .mod, .bytes bs, v => return .bytes (← read fun s => s.fillInBytes bs v)
  | op, a, b =>
    match a.numeric?, b.numeric? with
    | some m, some n => liftExcept (numericOperation op m n)
    | _, _ => sequence op a b
where
  liftExcept (r : Except Fault Value) : Run Value := read fun _ => r
  sequence (op : BinaryOp) (a b : Value) : Run Value := do
    match op with
    | .mul =>
      match b.int?, a.int? with
      | some n, _ => match ← repeated? a n with
        | some v => return v
        | none => wrongType
      | _, some n => match ← repeated? b n with
        | some v => return v
        | none => wrongType
      | _, _ => wrongType
    | .sub =>
      match a, b with
      | .set _, .set _ | .set _, .view .keys _ | .set _, .view .items _ | .view .keys _, _ | .view .items _, _ =>
        let kept ← (← items a).mapM Value.key
        let removed ← items b
        newSet (kept.filter fun x => !hasKey removed x)
      | _, _ => wrongType
    | _ => wrongType

def unary (op : UnaryOp) (v : Value) : Run Value := do
  match op with
  | .not => return .bool (!(← store).truth v)
  | .plus =>
    match v.numeric? with
    | some (.int n) => return .int n
    | some (.float x) => return .float x
    | some (.complex re im) => return .complex re im
    | none => wrongType
  | .minus =>
    match v.numeric? with
    | some (.int n) => return .int (-n)
    | some (.float x) => return .float (-x)
    | some (.complex re im) => return .complex (-re) (-im)
    | none => wrongType
  -- the operator tables have no entry for it
  | .invert => throw .missingKey

def compare (op : CompareOp) (a b : Value) : Run Bool := do
  match op with
  | .eq => read fun s => s.equal a b
  | .ne => return !(← read fun s => s.equal a b)
  | .lt => read fun s => s.ordered .lt a b
  | .le => read fun s => s.ordered .le a b
  | .gt => read fun s => s.ordered .gt a b
  | .ge => read fun s => s.ordered .ge a b
  | .in => contains b a
  | .notIn => return !(← contains b a)
  | .is => return a.identical b
  | .isNot => return !a.identical b

/-! ## Items and parts -/

/-- The bound of a part: a whole number, or nothing. -/
def bound? (v : Value) : Run (Option Int) := do
  match v with
  | .none => return none
  | v => match v.int? with
    | some n => return some n
    | none => wrongType

/-- The step of a part: 1 if there is none, and never 0. -/
def stride (v : Value) : Run Int := do
  match ← bound? v with
  | none => return 1
  | some step => if step == 0 then throw .badValue else return step

/-- The positions of a part of `length` items: the first one and the one before which it ends. -/
def positions (length : Nat) (lower upper : Option Int) (step : Int) : Int × Int :=
  let len : Int := length
  let low : Int := if step < 0 then -1 else 0
  let high : Int := if step < 0 then len - 1 else len
  let clip := fun (n : Int) => if n < 0 then max low (n + len) else min high n
  let start := (lower.map clip).getD (if step < 0 then high else low)
  let stop := (upper.map clip).getD (if step < 0 then low else high)
  (start, stop)

/-- The items at the positions of a range. -/
def itemsAt (items : Array α) (start step : Int) : Nat → List α
  | 0 => []
  | n + 1 =>
    let rest := itemsAt items (start + step) step n
    match items[start.toNat]? with
    | some x => x :: rest
    | none => rest

/-- The part of a list of items. -/
def part (items : List α) (lower upper step : Value) : Run (List α) := do
  let step ← stride step
  let lower ← bound? lower
  let upper ← bound? upper
  let (start, stop) := positions items.length lower upper step
  return itemsAt items.toArray start step (Value.rangeLength start stop step)

/-- The item at a position, which counts from the end if it is negative. -/
def item (items : List α) (index : Value) : Run α := do
  match index.int? with
  | some n =>
    let n := if n < 0 then n + items.length else n
    if n < 0 then throw .missingIndex
    match items[n.toNat]? with
    | some v => return v
    | none => throw .missingIndex
  | none => wrongType

def subscript (v index : Value) : Run Value := do
  match v, index with
  | .list p, .slice a b c => newList (← part (← list p) a b c)
  | .tuple vs, .slice a b c => return .tuple (← part vs a b c)
  | .text t, .slice a b c => return .text (.ofList (← part t.toList a b c))
  | .bytes bs, .slice a b c => return .bytes (← part bs a b c)
  | .range x y z, .slice a b c =>
    let length := Value.rangeLength x y z
    let step ← stride c
    let a ← bound? a
    let b ← bound? b
    let (start, stop) := positions length a b step
    return .range (x + start * z) (x + stop * z) (z * step)
  | .list p, i => item (← list p) i
  | .tuple vs, i => item vs i
  | .text t, i => return .text (.singleton (← item t.toList i))
  | .bytes bs, i => return .int (← item bs i).toNat
  | .range x y z, i =>
    match i.int? with
    | some n =>
      let length := Value.rangeLength x y z
      let n := if n < 0 then n + length else n
      if n < 0 || (length : Int) ≤ n then throw .missingIndex
      return .int (x + n * z)
    | none => wrongType
  | .dict p, k =>
    match (← dict p).find? (← k.key) with
    | some v => return v
    | none => missingKey k
  | _, _ => wrongType

end Run

end NestedSite
