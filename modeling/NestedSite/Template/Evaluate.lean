import NestedSite.Method.Call
import NestedSite.Template.Block

/-!
# Evaluating expressions

A name is looked up among what the template has assigned, then in the context, then in the base scope that the template
was compiled with (`Scope.find?`); a name that is nowhere means nothing. `Expr.eval` evaluates an expression from left
to right, and only as far as its value needs.
-/

namespace NestedSite.Template

open Text

/-- Names with their values; a later binding of a name takes the place of an earlier one. -/
abbrev Bindings := List (String × Value)

namespace Bindings

def find? (bs : Bindings) (name : String) : Option Value := (List.find? (fun b => b.1 == name) bs).map Prod.snd

def bind : Bindings → String → Value → Bindings
  | [], name, v => [(name, v)]
  | (n, w) :: rest, name, v => if n == name then (n, v) :: rest else (n, w) :: bind rest name v

/-- Binds the names of `others`, one after the other. -/
def bindAll (bs others : Bindings) : Bindings := others.foldl (fun all (n, v) => all.bind n v) bs

end Bindings

/-- The builtin functions and types by their names. -/
def builtinBindings : Bindings := Builtin.all.map fun b => (b.name, .builtin b)

/-- What the names of a template mean. -/
structure Scope where
  locals : Bindings := []
  /-- The place of the context, which is read as it is when a name is looked up. -/
  context : Option Nat := none
  base : Bindings := []

/-- What a name means. -/
def Scope.find? (s : Store) (scope : Scope) (name : String) : Option Value :=
  match scope.locals.find? name with
  | some v => some v
  | none =>
    match scope.context.bind fun p => (s.dict p).find? (.text name) with
    | some v => some v
    | none => scope.base.find? name

def Literal.value : Literal → Value
  | none => .none
  | bool b => .bool b
  | int n => .int n
  | float x => .float x
  | imaginary x => .complex 0 x
  | text s => .text s
  | bytes bs => .bytes bs
  | ellipsis => .ellipsis

/-- Turns a value into text as a replacement field asks. -/
def Conversion.apply (s : Store) : Conversion → Value → Except Fault Value
  | str, v => return .text (← s.text v)
  | repr, v => return .text (← s.show v)
  | ascii, v => return .text (asciiEscaped (← s.show v))

/-- Binds an argument that is passed by name; the last of several counts. -/
def bindArgument (named : List (String × Value)) (name : String) (v : Value) : List (String × Value) :=
  Bindings.bind named name v

mutual

def Expr.eval (host : Host) (scope : Scope) : Expr → Run Value
  | .literal value => return value.value
  | .name id => return (scope.find? (← Run.store) (scopeKey id)).getD .none
  | .attribute base attr => do Run.readAttribute (← base.eval host scope) (scopeKey attr)
  | .subscript base index => do
    let v ← base.eval host scope
    Run.subscript v (← index.eval host scope)
  | .slice lower upper step => do
    let a ← evalOption host scope lower
    let b ← evalOption host scope upper
    return .slice a b (← evalOption host scope step)
  | .call function arguments named => do
    let f ← function.eval host scope
    Run.guardCall f
    let positional ← evalAll host scope arguments
    Run.call host f ⟨positional, ← evalNamed host scope [] named⟩
  | .binary op left right => do
    Run.needRule op.hasRule (.binary op)
    let a ← left.eval host scope
    Run.binary op a (← right.eval host scope)
  | .unary op operand => do
    Run.needRule op.hasRule (.unary op)
    Run.unary op (← operand.eval host scope)
  | .boolean disjunction operands => evalUntil host scope disjunction .none operands
  | .compare first rest => do evalChain host scope (← first.eval host scope) rest
  | .conditional test body orElse => do
    if ← Run.truth (← test.eval host scope) then body.eval host scope else orElse.eval host scope
  | .list items => do Run.newList (← evalAll host scope items)
  | .tuple items => return .tuple (← evalAll host scope items)
  | .set items => do Run.newSet (← evalElements host scope [] items)
  | .dict entries => do Run.newDict (← evalEntries host scope [] entries)
  | .joined parts => return .text (String.join (← evalTexts host scope parts))
  | .formatted value conversion spec => do
    let v ← value.eval host scope
    let v ← match conversion with
      | some c => Run.read fun s => c.apply s v
      | none => pure v
    let spec ← match ← evalOption host scope spec with
      | .text t => pure t
      | _ => pure ""
    return .text (← Run.read fun s => s.format v spec)
  | .starred _ => Run.lack (.element "Starred")
  | .foreign kind => Run.lack (.element kind)

def evalOption (host : Host) (scope : Scope) : Option Expr → Run Value
  | none => return .none
  | some e => e.eval host scope

def evalAll (host : Host) (scope : Scope) : List Expr → Run (List Value)
  | [] => return []
  | e :: es => do
    let v ← e.eval host scope
    return v :: (← evalAll host scope es)

def evalNamed (host : Host) (scope : Scope) (done : List (String × Value)) :
    List (Option String × Expr) → Run (List (String × Value))
  | [] => return done
  | (name, e) :: es => do
    let v ← e.eval host scope
    evalNamed host scope (match name with
      | some n => bindArgument done n v
      | none => done) es

/-- The first operand that decides a chain of `and`s or `or`s, or the last one. -/
def evalUntil (host : Host) (scope : Scope) (disjunction : Bool) (last : Value) : List Expr → Run Value
  | [] => return last
  | e :: es => do
    let v ← e.eval host scope
    if (← Run.truth v) == disjunction then return v else evalUntil host scope disjunction v es

/-- Whether every comparison of a chain holds; none is made after one that does not. -/
def evalChain (host : Host) (scope : Scope) (left : Value) : List (CompareOp × Expr) → Run Value
  | [] => return .bool true
  | (op, e) :: es => do
    let right ← e.eval host scope
    if ← Run.compare op left right then evalChain host scope right es else return .bool false

def evalElements (host : Host) (scope : Scope) (done : List Value) : List Expr → Run (List Value)
  | [] => return done
  | e :: es => do
    let v ← (← e.eval host scope).key
    evalElements host scope (addKey done v) es

def evalEntries (host : Host) (scope : Scope) (done : Entries) : List (Option Expr × Expr) → Run Entries
  | [] => return done
  | (k, e) :: es => do
    let k ← evalOption host scope k
    let v ← e.eval host scope
    evalEntries host scope (done.insert (← k.key) v) es

def evalTexts (host : Host) (scope : Scope) : List Expr → Run (List String)
  | [] => return []
  | e :: es => do
    let t ← Run.text (← e.eval host scope)
    return t :: (← evalTexts host scope es)

end

end NestedSite.Template
