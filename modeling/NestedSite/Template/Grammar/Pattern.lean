import NestedSite.Template.Grammar.Expression

/-!
# The grammar of patterns

The patterns that the cases of a choice are compared with. None is ever evaluated, so a parser only says whether there
is one.
-/

namespace NestedSite.Template

namespace Parser

/-- A number with an optional sign, or a sum of a real and an imaginary one. -/
def signedNumber : Parser Unit := do
  let number : Parser Unit := fun
    | .number _ :: rest => some ((), rest)
    | _ => none
  let _ ← acceptOp "-"
  number
  if ← acceptOp "+" then number
  else if ← acceptOp "-" then number

/-- A name that a pattern binds. -/
def capture : Parser Unit := do
  let name ← identifier
  check (name ≠ "_")

/-- A name with attributes. -/
def dottedName (n : Nat) : Parser Unit := do
  let _ ← identifier
  let _ ← many n (do op "."; identifier)

/-- A literal that a pattern compares with. -/
def patternLiteral (n : Nat) : Parser Unit := do
  match ← peek with
  | some (.string ..) =>
    let e ← strings n
    check (match e with | .literal _ => true | _ => false)
  | some (.name w) => if ["None", "True", "False"].contains w then word w else failure
  | _ => signedNumber

mutual

/-- The cases of a `match` without their brackets. -/
def openPattern : Nat → Parser Unit
  | 0 => failure
  | fuel + 1 => do
    starPattern fuel
    if ← seesOp "," then
      let _ ← moreItems fuel (starPattern fuel)
      let _ ← acceptOp ","

def starPattern : Nat → Parser Unit
  | 0 => failure
  | fuel + 1 => do
    if ← acceptOp "*" then
      let _ ← identifier
    else pattern fuel

def pattern : Nat → Parser Unit
  | 0 => failure
  | fuel + 1 => do
    closedPattern fuel
    let _ ← many fuel (do op "|"; closedPattern fuel)
    if ← acceptWord "as" then capture

def closedPattern : Nat → Parser Unit
  | 0 => failure
  | fuel + 1 => do
    let separated := fun (p : Parser Unit) (closer : String) => do
      if ← acceptOp closer then pure ()
      else
        let _ ← items fuel p
        let _ ← acceptOp ","
        op closer
    if ← acceptOp "[" then separated (starPattern fuel) "]"
    else if ← acceptOp "(" then
      if ← acceptOp ")" then pure ()
      else
        openPattern fuel
        op ")"
    else if ← acceptOp "\x7b" then
      separated (do
        if ← acceptOp "**" then capture
        else
          patternLiteral fuel <|> dottedName fuel
          op ":"
          pattern fuel) "\x7d"
    else
      patternLiteral fuel <|> (do
        dottedName fuel
        if ← acceptOp "(" then
          separated (do
            (do
              let _ ← identifier
              op "="
              pattern fuel) <|> pattern fuel) ")")

end

end Parser

end NestedSite.Template
