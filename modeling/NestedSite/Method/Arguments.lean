import NestedSite.Value.Arithmetic

/-!
# Arguments

The arguments of a call, by position and by name, and their assignment to the parameters of a function
(`Arguments.assign`).
-/

namespace NestedSite

structure Arguments where
  positional : List Value
  named : List (String × Value) := []
  deriving Inhabited

/-- How an argument reaches a parameter. -/
inductive Passing where
  | position | name | either
  deriving Repr, DecidableEq

structure Parameter where
  name : String
  passing : Passing
  required : Bool

abbrev Parameters := List Parameter

namespace Parameters

/-- Parameters that are passed by position. -/
def positional (required : List String) (optional : List String) : Parameters :=
  required.map (⟨·, .position, true⟩) ++ optional.map (⟨·, .position, false⟩)

/-- Parameters that are passed by position or by name. -/
def free (required : List String) (optional : List String) : Parameters :=
  required.map (⟨·, .either, true⟩) ++ optional.map (⟨·, .either, false⟩)

/-- Parameters that are passed by name and may be missing. -/
def named (names : List String) : Parameters := names.map (⟨·, .name, false⟩)

end Parameters

namespace Arguments

/-- Gives every parameter its argument, if there is one. No argument is left over, none is given twice, and no
required one is missing. -/
def assign (args : Arguments) (parameters : Parameters) : Run (List (Option Value)) := do
  if args.named.any fun (k, _) => !parameters.any fun p => p.name == k && p.passing != .position then wrongType
  go args.positional parameters
where
  go : List Value → Parameters → Run (List (Option Value))
    | [], [] => return []
    | _ :: _, [] => wrongType
    | vs, p :: ps => do
      let named := (args.named.find? fun (k, _) => k == p.name).map Prod.snd
      let byName := p.passing != .position
      match p.passing, vs with
      | .name, vs =>
        if p.required && named.isNone then wrongType
        return named :: (← go vs ps)
      | _, v :: vs =>
        if byName && named.isSome then wrongType
        return some v :: (← go vs ps)
      | _, [] =>
        let v := if byName then named else none
        if p.required && v.isNone then wrongType
        return v :: (← go [] ps)

/-- The arguments of a function that takes exactly `n` by position. -/
def exactly (args : Arguments) (n : Nat) : Run (List Value) := do
  if args.named.isEmpty && args.positional.length == n then return args.positional else wrongType

end Arguments

namespace Run

/-- A whole number, or a fault if the value's type is another one. -/
def expectInt (v : Value) : Run Int :=
  match v.int? with
  | some n => pure n
  | none => wrongType

def expectText (v : Value) : Run String :=
  match v with
  | .text t => pure t
  | _ => wrongType

/-- A whole number that counts something; one of any size that is not negative is allowed. -/
def expectSize (v : Value) : Run Int := do
  let n ← expectInt v
  if n.natAbs < Number.twoTo 63 then return n else throw .overflow

def truth (v : Value) : Run Bool := return (← store).truth v

def text (v : Value) : Run String := read fun s => s.text v

end Run

end NestedSite
