import NestedSite.Fault
import NestedSite.Value.Date

/-!
# Values and the store

Templates compute with values. The simple ones stand for themselves; lists, mappings, sets, cursors, legends and
metadata are held in a store, and the value is the place where the store holds them, so that a change is seen wherever
the value went. A computation is a `Run`: it ends with a result or a fault and hands on the store in both cases.
-/

namespace NestedSite

/-- The most items, or characters, that are ever put into one value. -/
def sizeLimit : Nat := 20000000

/-- Refuses a number of items, or of characters, that no value may have. -/
def checkSize (n : Nat) : Except Fault Unit := if sizeLimit < n then throw .tooLarge else pure ()

/-- The functions and types that every template may name. -/
inductive Builtin where
  | len | range | enumerate | sorted | reversed | zip | min | max | sum | abs | round
  | str | int | float | bool | list | dict
  deriving Repr, DecidableEq

/-- The functions of the site that templates may name. -/
inductive Helper where
  | includePartial | entitle | active | act
  deriving Repr, DecidableEq

/-- What a view on a mapping shows. -/
inductive ViewKind where
  | keys | values | items
  deriving Repr, DecidableEq

inductive Value where
  | none
  | bool (b : Bool)
  | int (n : Int)
  | float (x : Float)
  | complex (re im : Float)
  | text (s : String)
  | bytes (bs : List UInt8)
  | date (d : Date)
  | moment (m : Moment)
  | ellipsis
  | tuple (items : List Value)
  | range (start stop step : Int)
  | slice (lower upper step : Value)
  /-- The place of a list. -/
  | list (place : Nat)
  /-- The place of a mapping. -/
  | dict (place : Nat)
  /-- The place of a set. -/
  | set (place : Nat)
  /-- The place of a cursor. -/
  | cursor (place : Nat)
  /-- A view on the mapping at a place. -/
  | view (kind : ViewKind) (place : Nat)
  /-- The place of a legend. -/
  | legend (place : Nat)
  /-- The place of a directory's metadata. -/
  | metadata (place : Nat)
  | builtin (b : Builtin)
  | helper (h : Helper)
  /-- A type that is not to be called. -/
  | foreignType (name : String)
  /-- A method with its receiver. -/
  | method (receiver : Value) (name : String)
  /-- A method of a type without a receiver. -/
  | typeMethod (type name : String)
  /-- A method whose receiver is a type. -/
  | classMethod (type name : String)
  /-- A field of a type without a receiver. -/
  | typeField (type name : String)
  deriving Inhabited

/-- The entries of a mapping in the order of their first insertion. -/
abbrev Entries := List (Value × Value)

/-- An entry of a directory's metadata: the file it is about, the group it is multiplied over, and other fields. -/
structure Legend where
  name : String
  echo : Option String := none
  /-- Whether `echo` was given, be it without a value. -/
  echoGiven : Bool := false
  extras : List (String × Value) := []
  deriving Inhabited

/-- Whether a legend names a group to echo. -/
def Legend.echoes (l : Legend) : Bool := l.echo.any fun group => !group.isEmpty

/-- The metadata of a directory. -/
structure Metadata where
  /-- A pattern for the names of files that are not rendered. -/
  ignore : Option String := none
  /-- The place of the list of legends. -/
  files : Nat
  /-- The echo groups, and whatever else was written. -/
  extras : List (String × Value) := []
  deriving Inhabited

/-- A position within a sequence that is read item by item. -/
inductive Cursor where
  /-- The items of the list at `place`, from `next` on, as they are when they are reached. -/
  | list (place next : Nat)
  /-- The first `left` items of the list at `place`, last first. -/
  | listBack (place left : Nat)
  /-- What `kind` shows of the mapping at `place`, which must keep its `size`. -/
  | dict (kind : ViewKind) (place next size : Nat)
  /-- As `dict`, last first. -/
  | dictBack (kind : ViewKind) (place left size : Nat)
  /-- The numbers from `next` on, `step` apart, `left` of them. -/
  | range (next step : Int) (left : Nat)
  /-- Items that cannot change; `type` names the sequence. -/
  | items (type : String) (rest : List Value)
  /-- The items of another cursor, numbered. -/
  | enumerate (inner : Nat) (count : Int)
  /-- The items of other cursors side by side; `strict` if they must end together. -/
  | zip (inner : List Nat) (strict : Bool)
  | done (type : String)
  deriving Inhabited

/-- Where the values are held that have a place. -/
structure Store where
  lists : Array (List Value) := #[]
  dicts : Array Entries := #[]
  sets : Array (List Value) := #[]
  cursors : Array Cursor := #[]
  /-- Legends do not change. -/
  legends : Array Legend := #[]
  metadata : Array Metadata := #[]
  deriving Inhabited

namespace Store

def list (s : Store) (place : Nat) : List Value := (s.lists[place]?).getD []

def dict (s : Store) (place : Nat) : Entries := (s.dicts[place]?).getD []

def set (s : Store) (place : Nat) : List Value := (s.sets[place]?).getD []

def cursor (s : Store) (place : Nat) : Cursor := (s.cursors[place]?).getD (.done "")

def legend (s : Store) (place : Nat) : Legend := (s.legends[place]?).getD default

/-- Where no metadata is, its legends are an empty list. -/
def metadataAt (s : Store) (place : Nat) : Metadata := (s.metadata[place]?).getD { files := s.lists.size }

end Store

/-- What happens to a template. -/
inductive EventKind where
  | ignored | rendered | failed | written
  deriving Repr, DecidableEq, Inhabited

def EventKind.name : EventKind → String
  | ignored => "template_ignored"
  | rendered => "template_rendered"
  | failed => "template_failed"
  | written => "output_written"

def EventKind.ofName? (name : String) : Option EventKind :=
  [ignored, rendered, failed, written].find? fun k => k.name == name

/-- Something that happened, as observers learn of it. -/
structure Event where
  kind : EventKind
  template : Option String := none
  output : Option String := none
  /-- The fault that the event reports. -/
  fault : Option Fault := none
  metadata : List (String × Value) := []
  deriving Inhabited

inductive Level where
  | debug | info | warning | error
  deriving Repr, DecidableEq, Inhabited

def Level.name : Level → String
  | debug => "DEBUG"
  | info => "INFO"
  | warning => "WARNING"
  | error => "ERROR"

/-- What a run leaves behind for those who watch it, in the order of time. -/
inductive Note where
  | log (level : Level) (source message : String)
  | event (e : Event)
  deriving Inhabited

/-- What a template does beyond computing: it reads an attribute, it has a value called, or it cannot go on. -/
inductive Deed where
  | read (v : Value) (name : String)
  /-- A call that is written in a template, with its arguments by position and by name. -/
  | call (f : Value) (positional : List Value) (named : List (String × Value))
  /-- The call of a key, which was given to something that is called, for one item. -/
  | callKey (f item : Value)
  /-- There is no rule for what comes next. -/
  | lack (gap : Template.Gap)
  /-- A loop is broken off. -/
  | breakOff
  deriving Inhabited

/-- The state of a run. -/
structure World where
  store : Store := {}
  notes : Array Note := #[]
  /-- The deeds of the templates so far, the last one first. -/
  deeds : List Deed := []
  deriving Inhabited

/-- A computation on the store. A fault does not undo the changes made before it. -/
abbrev Run := ExceptT Fault (StateM World)

namespace Run

def store : Run Store := return (← getThe World).store

/-- Takes what only reads the store. -/
def read (f : Store → Except Fault α) : Run α := do
  match f (← store) with
  | .ok a => return a
  | .error e => throw e

def setStore (s : Store) : Run Unit := modifyThe World fun w => { w with store := s }

def modifyStore (f : Store → Store) : Run Unit := modifyThe World fun w => { w with store := f w.store }

def note (n : Note) : Run Unit := modifyThe World fun w => { w with notes := w.notes.push n }

def record (d : Deed) : Run Unit := modifyThe World fun w => { w with deeds := d :: w.deeds }

/-- Fails at something that there is no rule for. -/
def lack (gap : Template.Gap) : Run α := do
  record (.lack gap)
  throw gap.fault

/-- Goes on only if there is a rule. -/
def needRule (there : Bool) (gap : Template.Gap) : Run Unit := if there then pure () else lack gap

/-! ## New places -/

def newList (items : List Value) : Run Value := do
  let s ← store
  setStore { s with lists := s.lists.push items }
  return .list s.lists.size

def newDict (entries : Entries) : Run Value := do
  let s ← store
  setStore { s with dicts := s.dicts.push entries }
  return .dict s.dicts.size

def newSet (items : List Value) : Run Value := do
  let s ← store
  setStore { s with sets := s.sets.push items }
  return .set s.sets.size

def newCursor (c : Cursor) : Run Nat := do
  let s ← store
  setStore { s with cursors := s.cursors.push c }
  return s.cursors.size

def newLegend (l : Legend) : Run Value := do
  let s ← store
  setStore { s with legends := s.legends.push l }
  return .legend s.legends.size

def newMetadata (m : Metadata) : Run Value := do
  let s ← store
  setStore { s with metadata := s.metadata.push m }
  return .metadata s.metadata.size

/-! ## Reading and writing places -/

def list (place : Nat) : Run (List Value) := return (← store).list place

def dict (place : Nat) : Run Entries := return (← store).dict place

def set (place : Nat) : Run (List Value) := return (← store).set place

def setList (place : Nat) (items : List Value) : Run Unit :=
  modifyStore fun s => { s with lists := s.lists.setIfInBounds place items }

def setDict (place : Nat) (entries : Entries) : Run Unit :=
  modifyStore fun s => { s with dicts := s.dicts.setIfInBounds place entries }

def setSet (place : Nat) (items : List Value) : Run Unit :=
  modifyStore fun s => { s with sets := s.sets.setIfInBounds place items }

def setCursor (place : Nat) (c : Cursor) : Run Unit :=
  modifyStore fun s => { s with cursors := s.cursors.setIfInBounds place c }

end Run

/-- How deep values and templates may nest. -/
def depthLimit : Nat := 1000

namespace Builtin

def name : Builtin → String
  | len => "len" | range => "range" | enumerate => "enumerate" | sorted => "sorted" | reversed => "reversed"
  | zip => "zip" | min => "min" | max => "max" | sum => "sum" | abs => "abs" | round => "round" | str => "str"
  | int => "int" | float => "float" | bool => "bool" | list => "list" | dict => "dict"

/-- All of them, in the order in which a scope lists them. -/
def all : List Builtin :=
  [len, range, enumerate, sorted, reversed, zip, min, max, sum, abs, round, str, int, float, bool, list, dict]

/-- Whether it is a type. -/
def isType : Builtin → Bool
  | range | enumerate | reversed | zip | str | int | float | bool | list | dict => true
  | _ => false

end Builtin

/-- The name of the type of a cursor. -/
def Cursor.type : Cursor → String
  | list .. => "list_iterator"
  | listBack .. => "list_reverseiterator"
  | dict .keys .. => "dict_keyiterator"
  | dict .values .. => "dict_valueiterator"
  | dict .items .. => "dict_itemiterator"
  | dictBack .keys .. => "dict_reversekeyiterator"
  | dictBack .values .. => "dict_reversevalueiterator"
  | dictBack .items .. => "dict_reverseitemiterator"
  | range .. => "range_iterator"
  | items type _ => type
  | enumerate .. => "enumerate"
  | zip .. => "zip"
  | done type => type

namespace Value

/-- The name of the type of a value. -/
def typeName (s : Store) : Value → String
  | none => "NoneType"
  | bool _ => "bool"
  | int _ => "int"
  | float _ => "float"
  | complex .. => "complex"
  | text _ => "str"
  | bytes _ => "bytes"
  | date _ => "date"
  | moment _ => "datetime"
  | ellipsis => "ellipsis"
  | tuple _ => "tuple"
  | range .. => "range"
  | slice .. => "slice"
  | list _ => "list"
  | dict _ => "dict"
  | set _ => "set"
  | cursor place => (s.cursor place).type
  | view .keys _ => "dict_keys"
  | view .values _ => "dict_values"
  | view .items _ => "dict_items"
  | legend _ => "Legend"
  | metadata _ => "Metadata"
  | builtin b => if b.isType then "type" else "builtin_function_or_method"
  | helper .includePartial => "method"
  | helper _ => "function"
  | foreignType "Legend" | foreignType "Metadata" => "ModelMetaclass"
  | foreignType _ => "type"
  | method (legend _) _ | method (metadata _) _ => "method"
  | method .. => "builtin_function_or_method"
  | typeMethod "Legend" _ | typeMethod "Metadata" _ => "function"
  | typeMethod "str" "maketrans" => "builtin_function_or_method"
  | typeMethod .. => "method_descriptor"
  | classMethod "Legend" _ | classMethod "Metadata" _ => "method"
  | classMethod .. => "builtin_function_or_method"
  | typeField "range" _ => "member_descriptor"
  | typeField .. => "getset_descriptor"

/-- Whether a value may be called at all. -/
def isCallable : Value → Bool
  | builtin _ | helper _ | foreignType _ | method .. | typeMethod .. | classMethod .. => true
  | _ => false

end Value

/-- Fails as an operation does that has no rule for the values at hand. -/
def wrongType {m : Type → Type} [MonadExceptOf Fault m] {α : Type} : m α := throw Fault.wrongType

end NestedSite
