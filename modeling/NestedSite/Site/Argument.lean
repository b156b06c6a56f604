import NestedSite.Method.Arguments
import NestedSite.Path

/-!
# Checking arguments and output paths

Arguments from outside are checked before they are used. An output path is valid if it leads to a place under the root
of the output and not to the root itself (`outputPath`); it is then given in its shortest spelling.
-/

namespace NestedSite

namespace Run

/-- A text; `label` names the argument in the fault. -/
def textArgument (label : String) (v : Value) : Run String := do
  match v with
  | .text t => return t
  | v => throw (.argument (.notText label (v.typeName (← store))))

/-- A text that is not empty. -/
def nonemptyArgument (label : String) (v : Value) : Run String := do
  let t ← textArgument label v
  if t.isEmpty then throw (.argument (.emptyText label)) else return t

/-- The place of a mapping. -/
def mappingArgument (label : String) (v : Value) : Run Nat := do
  match v with
  | .dict p => return p
  | v => throw (.argument (.notMapping label (v.typeName (← store))))

end Run

/-- Whether a path begins at a root or names a drive. -/
def isRooted (path : List Char) : Bool :=
  match path with
  | '/' :: _ => true
  | _ :: ':' :: _ => true
  | _ => false

/-- A valid output path in its shortest spelling. -/
def outputPath (path : String) : Except PathFault String :=
  if path.isEmpty then throw .empty
  else
    let unified := Path.unify path
    if isRooted unified.toList then throw (.absolute path)
    else
      let reduced := Path.reduce unified
      if reduced == "." || reduced == ".." || "../".isPrefixOf reduced then throw (.traversal path)
      else pure reduced

end NestedSite
