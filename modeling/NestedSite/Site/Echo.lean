import NestedSite.Site.Metadata

/-!
# Echoing a page

A page whose legend names a group is rendered once for every element of the group. `Run.branches` makes the contexts of
these renderings: copies of the page's context with the fields of one element each. The elements are legends, or
mappings that can be read as such.
-/

namespace NestedSite

namespace Run

/-- The group that a legend names, which must be a list and not empty. -/
def echoGroup (metadata : Option Nat) (l : Legend) : Run (String × List Value) := do
  let group ← match l.echo with
    | none => throw (.echo (.noEcho l.name))
    | some group => if group.isEmpty then throw (.echo (.noEcho l.name)) else pure group
  match metadata with
  | none => throw (.echo (.noMetadata l.name group))
  | some p =>
    match ← metadataGroup ((← store).metadataAt p) (.text group) with
    | .none => throw (.echo (.missingGroup l.name group))
    | .list q =>
      let elements ← list q
      if elements.isEmpty then throw (.echo (.emptyGroup group)) else return (group, elements)
    | v => throw (.echo (.notList group (v.typeName (← store))))

/-- An element of a group as a legend. -/
def echoLegend (group : String) (index : Nat) (element : Value) : Run Legend := do
  match element with
  | .legend p => return (← store).legend p
  | .dict _ =>
    match ← legendOf? element with
    | .ok (.legend p) => return (← store).legend p
    | _ => throw (.echo (.badLegend group index))
  | _ => throw (.echo (.notMapping group index))

/-- All elements of a group as legends. -/
def echoLegends (group : String) : Nat → List Value → Run (List Legend)
  | _, [] => return []
  | n, v :: vs => do
    let l ← echoLegend group n v
    return l :: (← echoLegends group (n + 1) vs)

/-- Puts the given fields of a legend into a mapping. -/
def mergeLegend (context : Nat) (l : Legend) : Run Unit := do
  match ← legendFields l with
  | .dict p => setDict context ((← dict context).merge (← dict p))
  | _ => return

/-- A copy of a context with the fields of a legend. -/
def branch (context : Nat) (l : Legend) : Run Nat := do
  match ← newDict (← dict context) with
  | .dict p => mergeLegend p l; return p
  | _ => wrongType

/-- The contexts of the renderings of a page, in the order of the group. -/
def branches (context : Nat) (metadata : Option Nat) (l : Legend) : Run (List Nat) := do
  let (group, elements) ← echoGroup metadata l
  (← echoLegends group 0 elements).mapM (branch context)

end Run

end NestedSite
