import NestedSite.Fault
import NestedSite.Template.Dollar
import NestedSite.Template.Expr

/-!
# What templates may contain

`Expr.faults` lists what is not allowed in an expression, `targetFault?` says why something cannot be assigned. The
faults of an expression are ordered by their depth, and at one depth from left to right; the first of them is
reported.
-/

namespace NestedSite.Template

/-- The attributes that are never read. -/
def deniedAttributes : List String :=
  ["format", "format_map", "mro", "gi_frame", "gi_code", "cr_frame", "cr_code", "ag_frame", "ag_code", "f_globals",
    "f_locals", "f_builtins", "f_back", "tb_frame", "tb_next"]

/-- Names that begin with an underscore are kept from templates, but for those that stand for names with a `$`. -/
def isHidden (name : String) : Bool := name.startsWith "_" && !name.startsWith dollarMark

def isDeniedAttribute (name : String) : Bool :=
  !name.startsWith dollarMark && (name.startsWith "_" || deniedAttributes.contains name)

/-- Lists the items of two levels together, depth by depth. -/
def mergeLevels : List (List α) → List (List α) → List (List α)
  | [], bs => bs
  | as, [] => as
  | a :: as, b :: bs => (a ++ b) :: mergeLevels as bs

/-- What is wrong with the outermost form of an expression. -/
def Expr.ownFaults : Expr → List TemplateFault
  | .foreign kind => [.foreignExpression kind]
  | .starred _ => [.foreignExpression "Starred"]
  | .name id => if isHidden id then [.forbiddenName id] else []
  | .attribute _ attr => if isDeniedAttribute attr then [.forbiddenAttribute attr] else []
  | .binary op _ _ => if op.hasRule then [] else [.foreignOperator]
  | .dict entries => if entries.any (fun e => e.1.isNone) then [.unpackedEntry] else []
  | _ => []

mutual

/-- What is wrong in an expression, depth by depth. -/
def Expr.faultLevels : Expr → List (List TemplateFault)
  | e@(.attribute base _) => e.ownFaults :: base.faultLevels
  | e@(.subscript base index) => e.ownFaults :: mergeLevels base.faultLevels index.faultLevels
  | e@(.slice lower upper step) =>
    e.ownFaults :: mergeLevels (optionLevels lower) (mergeLevels (optionLevels upper) (optionLevels step))
  | e@(.call function arguments named) =>
    e.ownFaults :: mergeLevels function.faultLevels (mergeLevels (listLevels arguments) (namedLevels named))
  | e@(.binary _ left right) => e.ownFaults :: mergeLevels left.faultLevels right.faultLevels
  | e@(.unary _ operand) => e.ownFaults :: operand.faultLevels
  | e@(.boolean _ operands) => e.ownFaults :: listLevels operands
  | e@(.compare first rest) => e.ownFaults :: mergeLevels first.faultLevels (compareLevels rest)
  | e@(.conditional test body orElse) =>
    e.ownFaults :: mergeLevels test.faultLevels (mergeLevels body.faultLevels orElse.faultLevels)
  | e@(.list items) | e@(.tuple items) | e@(.set items) | e@(.joined items) => e.ownFaults :: listLevels items
  | e@(.dict entries) => e.ownFaults :: mergeLevels (keyLevels entries) (valueLevels entries)
  | e@(.formatted value _ spec) => e.ownFaults :: mergeLevels value.faultLevels (optionLevels spec)
  | e@(.starred value) => e.ownFaults :: value.faultLevels
  | e => [e.ownFaults]

def optionLevels : Option Expr → List (List TemplateFault)
  | none => []
  | some e => e.faultLevels

def listLevels : List Expr → List (List TemplateFault)
  | [] => []
  | e :: es => mergeLevels e.faultLevels (listLevels es)

/-- A named argument is a level of its own. -/
def namedLevels : List (Option String × Expr) → List (List TemplateFault)
  | [] => []
  | (name, e) :: es =>
    mergeLevels ((if name.isNone then [.unpackedArgument] else []) :: e.faultLevels) (namedLevels es)

def compareLevels : List (CompareOp × Expr) → List (List TemplateFault)
  | [] => []
  | (_, e) :: es => mergeLevels e.faultLevels (compareLevels es)

def keyLevels : List (Option Expr × Expr) → List (List TemplateFault)
  | [] => []
  | (k, _) :: es => mergeLevels (optionLevels k) (keyLevels es)

def valueLevels : List (Option Expr × Expr) → List (List TemplateFault)
  | [] => []
  | (_, e) :: es => mergeLevels e.faultLevels (valueLevels es)

end

/-- What is wrong in an expression, in the order in which it is reported. -/
def Expr.faults (e : Expr) : List TemplateFault := e.faultLevels.flatten

mutual

/-- Why something cannot be assigned: only names can, and tuples and lists of them. -/
def targetFault? : Expr → Option TemplateFault
  | .name id => if isHidden id then some (.forbiddenName id) else none
  | .tuple items | .list items => targetsFault? items
  | _ => some .badTarget

def targetsFault? : List Expr → Option TemplateFault
  | [] => none
  | e :: es => (targetFault? e).orElse fun _ => targetsFault? es

end

end NestedSite.Template
