import NestedSite.Yaml.Layout
import NestedSite.Yaml.Tag

/-!
# The nodes of a document

`Document.ofText` reads the one document of a text. Its nodes are numbered, since a node may stand in several places,
even within itself: an alias is the number of the node that has the anchor.
-/

namespace NestedSite.Yaml

inductive Content where
  | scalar (text : String)
  | sequence (items : List Nat)
  | mapping (entries : List (Nat × Nat))
  deriving Repr, DecidableEq, Inhabited

structure Node where
  tag : Tag
  content : Content
  deriving Repr, DecidableEq, Inhabited

structure Document where
  nodes : Array Node
  root : Nat

/-- How far the tokens of a document are read. -/
structure Reading where
  rest : List Token
  /-- The fault that ends the tokens. -/
  fault : Option Fault
  /-- What the handles of tags stand for. -/
  handles : List (String × String) := []
  nodes : Array Node := #[]
  anchors : List (String × Nat) := []

abbrev Read := StateT Reading (Except Fault)

namespace Read

def malformed : Read α := throw .malformedYaml

/-- The next token, if the text does not end. -/
def peek : Read (Option Token) := do
  let r ← get
  match r.rest, r.fault with
  | t :: _, _ => return some t
  | [], none => return none
  | [], some f => throw f

def skip : Read Unit := modify fun r => { r with rest := r.rest.drop 1 }

/-- Takes a token if it comes next. -/
def accept (t : Token) : Read Bool := do
  if (← peek) != some t then return false
  skip
  return true

def expect (t : Token) : Read Unit := do if !(← accept t) then malformed

/-- Whether one of some tokens comes next. -/
def isNext (ts : List Token) : Read Bool := do
  match ← peek with
  | some t => return ts.contains t
  | none => return false

def newNode (tag : Tag) (content : Content) : Read Nat := do
  let r ← get
  set { r with nodes := r.nodes.push ⟨tag, content⟩ }
  return r.nodes.size

/-- A place where nothing is written. -/
def emptyNode : Read Nat := newNode .null (.scalar "")

def setContent (n : Nat) (content : Content) : Read Unit :=
  modify fun r => { r with nodes := r.nodes.modify n fun node => { node with content } }

/-- The properties of a node: its anchor, and its full tag. -/
structure Properties where
  anchor : Option String := none
  tag : Option String := none

/-- The name that a tag stands for. -/
def fullTag (handle : Option String) (suffix : String) : Read String := do
  match handle with
  | none => return suffix
  | some h =>
    match (← get).handles.find? fun (name, _) => name == h with
    | some (_, leading) => return leading ++ suffix
    | none => malformed

/-- An anchor and a tag in either order, both optional. -/
def properties : Read Properties := do
  match ← peek with
  | some (.anchor name) =>
    skip
    match ← peek with
    | some (.tag handle suffix) =>
      skip
      return ⟨some name, some (← fullTag handle suffix)⟩
    | _ => return ⟨some name, none⟩
  | some (.tag handle suffix) =>
    skip
    match ← peek with
    | some (.anchor name) =>
      skip
      return ⟨some name, some (← fullTag handle suffix)⟩
    | _ => return ⟨none, some (← fullTag handle suffix)⟩
  | _ => return {}

/-- The tag of a node; without a name, or with the mark alone, it is `otherwise`. -/
def tagOr (otherwise : Tag) : Option String → Tag
  | none => otherwise
  | some name => if name == "!" then otherwise else Tag.ofName name

/-- A new node. Its anchor is known within the node itself, and must not be known before. -/
def placed (p : Properties) (tag : Tag) (content : Content) : Read Nat := do
  let n ← newNode tag content
  match p.anchor with
  | none => return n
  | some name =>
    if (← get).anchors.any fun (a, _) => a == name then malformed
    modify fun r => { r with anchors := (name, n) :: r.anchors }
    return n

mutual

/-- A node. Blocks may begin where `block` holds, a sequence that is no further to the right than the key before it
where `flush` holds. -/
def node (block flush : Bool) : Nat → Read Nat
  | 0 => throw .tooDeep
  | n + 1 => do
    if let some (.alias name) ← peek then
      skip
      match (← get).anchors.find? fun (a, _) => a == name with
      | some (_, i) => return i
      | none => malformed
    let p ← properties
    let sequence := fun (items : Read (List Nat)) => do
      let i ← placed p (tagOr .sequence p.tag) (.sequence [])
      setContent i (.sequence (← items))
      return i
    let mapping := fun (entries : Read (List (Nat × Nat))) => do
      let i ← placed p (tagOr .mapping p.tag) (.mapping [])
      setContent i (.mapping (← entries))
      return i
    match ← peek with
    | some .item =>
      if flush then sequence (flushItems n) else emptyWith p
    | some (.scalar text plain) =>
      skip
      let isPlain := (plain && p.tag.isNone) || p.tag == some "!"
      placed p (tagOr (if isPlain then Tag.ofPlain text else .text) p.tag) (.scalar text)
    | some .flowSequence =>
      skip
      sequence (flowItems true n)
    | some .flowMapping =>
      skip
      mapping (flowEntries true n)
    | some .blockSequence =>
      if block then
        skip
        sequence (blockItems n)
      else emptyWith p
    | some .blockMapping =>
      if block then
        skip
        mapping (blockEntries n)
      else emptyWith p
    | _ => emptyWith p
where
  /-- A node of which only properties are written. -/
  emptyWith (p : Properties) : Read Nat :=
    if p.anchor.isNone && p.tag.isNone then malformed else placed p (tagOr .null p.tag) (.scalar "")

/-- A node, or nothing before one of some tokens. -/
def nodeUnless (ends : List Token) (block flush : Bool) : Nat → Read Nat
  | 0 => throw .tooDeep
  | n + 1 => do if ← isNext ends then emptyNode else node block flush n

/-- The items of a block sequence. -/
def blockItems : Nat → Read (List Nat)
  | 0 => throw .tooDeep
  | n + 1 => do
    if ← accept .item then
      let first ← nodeUnless [.item, .blockEnd] true false n
      return first :: (← blockItems n)
    expect .blockEnd
    return []

/-- The items of a sequence that is no further to the right than the key before it. -/
def flushItems : Nat → Read (List Nat)
  | 0 => throw .tooDeep
  | n + 1 => do
    if ← accept .item then
      let first ← nodeUnless [.item, .key, .value, .blockEnd] true false n
      return first :: (← flushItems n)
    return []

/-- The entries of a block mapping. -/
def blockEntries : Nat → Read (List (Nat × Nat))
  | 0 => throw .tooDeep
  | n + 1 => do
    if ← accept .key then
      let key ← nodeUnless [.key, .value, .blockEnd] true true n
      let value ← if ← accept .value then nodeUnless [.key, .value, .blockEnd] true true n else emptyNode
      return (key, value) :: (← blockEntries n)
    expect .blockEnd
    return []

/-- The items of a flow sequence. An entry among them is a mapping of its own. -/
def flowItems (first : Bool) : Nat → Read (List Nat)
  | 0 => throw .tooDeep
  | n + 1 => do
    if ← accept .flowSequenceEnd then return []
    if !first then expect .comma
    if ← accept .key then
      let i ← newNode .mapping (.mapping [])
      let key ← nodeUnless [.value, .comma, .flowSequenceEnd] false false n
      let value ← if ← accept .value then nodeUnless [.comma, .flowSequenceEnd] false false n else emptyNode
      setContent i (.mapping [(key, value)])
      return i :: (← flowItems false n)
    if ← accept .flowSequenceEnd then return []
    let i ← node false false n
    return i :: (← flowItems false n)

/-- The entries of a flow mapping. -/
def flowEntries (first : Bool) : Nat → Read (List (Nat × Nat))
  | 0 => throw .tooDeep
  | n + 1 => do
    if ← accept .flowMappingEnd then return []
    if !first then expect .comma
    if ← accept .key then
      let key ← nodeUnless [.value, .comma, .flowMappingEnd] false false n
      let value ← if ← accept .value then nodeUnless [.comma, .flowMappingEnd] false false n else emptyNode
      return (key, value) :: (← flowEntries false n)
    if ← accept .flowMappingEnd then return []
    let key ← node false false n
    let value ← emptyNode
    return (key, value) :: (← flowEntries false n)

end

/-- The directives before a document. Only the first version of the notation is read. -/
def directives (version : Bool) (handles : List (String × String)) : Nat → Read (List (String × String))
  | 0 => return handles
  | n + 1 => do
    match ← peek with
    | some (.directive d) =>
      skip
      match d with
      | .version major => if version || major != 1 then malformed else directives true handles n
      | .tagHandle h leading =>
        if handles.any fun (name, _) => name == h then malformed
        directives version ((h, leading) :: handles) n
      | .other => directives version handles n
    | _ => return handles

/-- What the handles of tags stand for unless a directive says otherwise. -/
def defaultHandles : List (String × String) := [("!", "!"), ("!!", Tag.leading)]

def skipAll (t : Token) : Nat → Read Unit
  | 0 => pure ()
  | n + 1 => do if ← accept t then skipAll t n

/-- The root of the document, if there is one; nothing may follow it. -/
def document : Read (Option Nat) := do
  let fuel := 4 * (← get).rest.length + 4
  match ← peek with
  | none => return none
  | some t =>
    let isExplicit := match t with
      | .directive _ | .documentStart => true
      | _ => false
    let root ←
      if isExplicit then
        let handles ← directives false [] fuel
        modify fun r => { r with handles := handles ++ defaultHandles }
        expect .documentStart
        match ← peek with
        | some (.directive _) | some .documentStart | some .documentEnd | none => emptyNode
        | _ => node true false fuel
      else do
        modify fun r => { r with handles := defaultHandles }
        node true false fuel
    skipAll .documentEnd fuel
    if (← peek).isSome then malformed
    return some root

end Read

/-- The document of a text; an empty text has none. -/
def Document.ofText (text : String) : Except Fault (Option Document) := do
  let scanned := Token.scan text
  let (root, r) ← Read.document.run { rest := scanned.tokens, fault := scanned.fault }
  return root.map fun root => ⟨r.nodes, root⟩

end NestedSite.Yaml
