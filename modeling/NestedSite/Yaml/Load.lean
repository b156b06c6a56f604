import NestedSite.Yaml.Node
import NestedSite.Yaml.Scalar

/-!
# The values of documents

`Yaml.load` makes the value of a document. A collection gets its place before its items have theirs, so that it may
hold itself; a node that stands in several places is one value. The entries that a merge key brings come before those
of the mapping itself, which may rebind their keys.
-/

namespace NestedSite.Yaml

/-- How far the values of a document are made. -/
structure Making where
  nodes : Array Node
  /-- The values of the nodes that have one. -/
  made : List (Nat × Value) := []
  /-- Collections that have a place and no items yet. -/
  pending : List (Nat × Value) := []

abbrev Make := StateT Making Run

namespace Make

def malformed : Make α := throw .malformedYaml

def node (n : Nat) : Make Node := return ((← get).nodes[n]?).getD default

def setNode (n : Nat) (node : Node) : Make Unit := modify fun m => { m with nodes := m.nodes.setIfInBounds n node }

/-- The entries of a mapping; other nodes have none. -/
def entries (n : Nat) : Make (List (Nat × Nat)) := do
  match (← node n).content with
  | .mapping es => return es
  | _ => return []

/-- The text of a scalar, or of the value that stands for a mapping. -/
def scalarText (n : Nat) : Make String := do go (2 * (← get).nodes.size + 2) n
where
  go : Nat → Nat → Make String
    | 0, _ => throw .tooDeep
    | fuel + 1, n => do
      match (← node n).content with
      | .scalar t => return t
      | .sequence _ => malformed
      | .mapping es =>
        let tags ← es.mapM fun (k, v) => return ((← node k).tag, v)
        match tags.find? fun (t, _) => t == .default with
        | some (_, v) => go fuel v
        | none => malformed

/-! ## Merge keys -/

/-- The entries that merge keys bring into the mapping `n`, which loses these keys; `flatten` treats the mappings that
are merged. -/
def gather (flatten : Nat → Make Unit) (n : Nat) : Nat → Nat → List (Nat × Nat) → Make (List (Nat × Nat))
  | 0, _, merged => return merged
  | fuel + 1, i, merged => do
    let es ← entries n
    match es[i]? with
    | none => return merged
    | some (k, v) =>
      let key ← node k
      match key.tag with
      | .merge =>
        setNode n { ← node n with content := .mapping (es.eraseIdx i) }
        match (← node v).content with
        | .mapping _ =>
          flatten v
          gather flatten n fuel i (merged ++ (← entries v))
        | .sequence items =>
          let parts ← items.mapM fun item => do
            match (← node item).content with
            | .mapping _ =>
              flatten item
              entries item
            | _ => malformed
          gather flatten n fuel i (merged ++ parts.reverse.flatten)
        | .scalar _ => malformed
      | .default =>
        setNode k { key with tag := .text }
        gather flatten n fuel (i + 1) merged
      | _ => gather flatten n fuel (i + 1) merged

/-- Puts the entries that are merged into a mapping before its own. -/
def flatten : Nat → Nat → Make Unit
  | 0, _ => throw .tooDeep
  | fuel + 1, n => do
    let merged ← gather (flatten fuel) n ((← entries n).length + 1) 0 []
    if !merged.isEmpty then setNode n { ← node n with content := .mapping (merged ++ (← entries n)) }

/-! ## Values -/

/-- The value of a node that has none yet. A collection is still without its items. -/
def begin (n : Nat) : Make Value := do
  let scalar := fun (f : String → Except Fault Value) => do
    let t ← scalarText n
    Run.read fun _ => f t
  let collection := fun (v : Value) => do
    modify fun m => { m with pending := m.pending ++ [(n, v)] }
    return v
  match (← node n).tag with
  | .null => scalar fun _ => return .none
  | .bool => scalar fun t => return .bool (← Scalar.bool t)
  | .int => scalar fun t => return .int (← Scalar.int t)
  | .float => scalar fun t => return .float (← Scalar.float t)
  | .binary => scalar fun t => return .bytes (← Scalar.binary t)
  | .text => scalar fun t => return .text t
  | .timestamp =>
    let t ← scalarText n
    match (← node n).content with
    | .scalar _ => Run.read fun _ => Scalar.timestamp t
    | _ => throw .wrongType
  | .sequence | .orderedMapping | .pairs => collection (← Run.newList [])
  | .mapping => collection (← Run.newDict [])
  | .set => collection (← Run.newSet [])
  | .merge | .default | .unknown => malformed

/-- The value of a node. -/
def value (n : Nat) : Make Value := do
  match (← get).made.find? fun (m, _) => m == n with
  | some (_, v) => return v
  | none =>
    let v ← begin n
    modify fun m => { m with made := (n, v) :: m.made }
    return v

/-- Meets the faults of the parts of a collection, as they come; parts that have values are sound. No collection is a
key. -/
def visitParts : Nat → Nat → Make Unit
  | 0, _ => malformed
  | fuel + 1, n => do
    let visit := fun (m : Nat) => do
      if !(← get).made.any fun (k, _) => k == m then
        discard <| begin m
        visitParts fuel m
    let node ← node n
    match node.tag, node.content with
    | .sequence, .sequence items => items.forM visit
    | .orderedMapping, .sequence items | .pairs, .sequence items =>
      items.forM fun item => do
        match ← entries item with
        | [(k, v)] => visit k; visit v
        | _ => malformed
    | .mapping, .mapping _ | .set, .mapping _ =>
      flatten ((← get).nodes.size + 1) n
      (← entries n).forM fun (k, v) => do
        visit k
        if (← Make.node k).tag.isCollection then malformed
        visit v
    | tag, _ => if tag.isCollection then malformed

/-- The entries of a mapping node. -/
def mapping (n : Nat) : Make Entries := do
  match (← node n).content with
  | .mapping _ =>
    flatten ((← get).nodes.size + 1) n
    (← entries n).foldlM (fun (all : Entries) (k, v) => do
      let key ← value k
      if !key.isKey then
        visitParts ((← get).nodes.size + 1) k
        malformed
      return all.insert key (← value v)) []
  | _ => malformed

/-- Gives a collection its items. -/
def finish (n : Nat) (v : Value) : Make Unit := do
  let node ← node n
  match node.tag, v, node.content with
  | .sequence, .list p, .sequence items => Run.setList p (← items.mapM value)
  | .orderedMapping, .list p, .sequence items | .pairs, .list p, .sequence items =>
    let pairs ← items.mapM fun item => do
      match ← entries item with
      | [(k, v)] => return .tuple [← value k, ← value v]
      | _ => malformed
    Run.setList p pairs
  | .mapping, .dict p, _ => Run.setDict p (← mapping n)
  | .set, .set p, _ => Run.setSet p (← mapping n).keys
  | _, _, _ => malformed

/-- Gives all collections their items, those that came first first. -/
def finishAll : Nat → Make Unit
  | 0 => pure ()
  | fuel + 1 => do
    match (← get).pending with
    | [] => pure ()
    | (n, v) :: pending =>
      modify fun m => { m with pending }
      finish n v
      finishAll fuel

end Make

/-- The value of the document of a text; nothing if there is no document. -/
def load (text : String) : Run Value := do
  match Document.ofText text with
  | .error f => throw f
  | .ok none => return .none
  | .ok (some d) =>
    let make : Make Value := do
      let root ← Make.value d.root
      Make.finishAll (d.nodes.size + 1)
      return root
    make.run' { nodes := d.nodes }

end NestedSite.Yaml
