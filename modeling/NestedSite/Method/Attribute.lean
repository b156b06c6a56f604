import NestedSite.Method.Collection
import NestedSite.Method.Number
import NestedSite.Method.Record
import NestedSite.Method.Text

/-!
# Attributes

`Run.readAttribute` reads an attribute as templates do: of a mapping it is the entry with that key or one of the methods
that look at the mapping, of any other value a field or method of its type. What is not there is nothing; only nothing
itself has no attributes at all.
-/

namespace NestedSite

/-- The methods and fields of a type, as they are read from the type itself. -/
def typeAttribute? (type name : String) : Option Value :=
  let among := fun (methods fields classMethods : List String) =>
    if methods.contains name then some (Value.typeMethod type name)
    else if fields.contains name then some (.typeField type name)
    else if classMethods.contains name then some (.classMethod type name)
    else none
  match type with
  | "str" => among textMethods [] []
  | "int" | "bool" => among intMethods intFields ["from_bytes"]
  | "float" => among floatMethods floatFields ["fromhex"]
  | "list" => among listMethods [] []
  | "dict" => among dictMethods [] ["fromkeys"]
  | "range" => among rangeMethods ["start", "stop", "step"] []
  | "Legend" => among (legendMethods.filter fun m => !recordClassMethods.contains m) [] recordClassMethods
  | "Metadata" => among (metadataMethods.filter fun m => !recordClassMethods.contains m) [] recordClassMethods
  | _ => none

/-- An attribute of a legend: a declared field, else a method, else another field. -/
def Legend.attribute? (place : Nat) (l : Legend) (name : String) : Option Value :=
  if name == "name" then some (.text l.name)
  else if name == "echo" then some ((l.echo.map Value.text).getD .none)
  else if recordClassMethods.contains name then some (.classMethod "Legend" name)
  else if legendMethods.contains name then some (.method (.legend place) name)
  else (l.extras.find? fun (k, _) => k == name).map Prod.snd

/-- An attribute of a directory's metadata. -/
def Metadata.attribute? (place : Nat) (m : Metadata) (name : String) : Option Value :=
  if name == "ignore" then some ((m.ignore.map Value.text).getD .none)
  else if name == "files" then some (.list m.files)
  else if recordClassMethods.contains name then some (.classMethod "Metadata" name)
  else if metadataMethods.contains name then some (.method (.metadata place) name)
  else (m.extras.find? fun (k, _) => k == name).map Prod.snd

namespace Run

/-- An attribute of a value that is no mapping. -/
def ownAttribute? (v : Value) (name : String) : Run (Option Value) := do
  let among := fun (methods : List String) (fields : String → Option Value) =>
    if methods.contains name then some (Value.method v name) else fields name
  let named := fun (names : List String) (field : String → Value) (n : String) =>
    if names.contains n then some (field n) else none
  let classMethod := fun (type : String) (names : List String) (n : String) =>
    if names.contains n then some (Value.classMethod type n) else none
  match v with
  | .text _ => return if name == "maketrans" then some (.typeMethod "str" name) else among textMethods fun _ => none
  | .bytes _ => return among bytesMethods fun _ => none
  | .bool b =>
    let n : Int := if b then 1 else 0
    return among intMethods fun f =>
      (named intFields (intField n) f).orElse fun _ => classMethod "bool" ["from_bytes"] f
  | .int n =>
    return among intMethods fun f =>
      (named intFields (intField n) f).orElse fun _ => classMethod "int" ["from_bytes"] f
  | .float x =>
    return among floatMethods fun f =>
      (named floatFields (floatField x) f).orElse fun _ => classMethod "float" ["fromhex"] f
  | .complex re im =>
    return among ["conjugate"] fun
      | "real" => some (.float re)
      | "imag" => some (.float im)
      | _ => none
  | .date d => return among dateMethods (dateField? d)
  | .moment m => return among momentMethods (momentField? m)
  | .tuple _ => return among tupleMethods fun _ => none
  | .list _ => return among listMethods fun _ => none
  | .set _ => return among setMethods fun _ => none
  | .range a b c =>
    return among rangeMethods fun
      | "start" => some (.int a)
      | "stop" => some (.int b)
      | "step" => some (.int c)
      | _ => none
  | .view kind _ => return among (viewMethods kind) fun _ => none
  | .legend p =>
    let l := (← store).legend p
    if name == "model_extra" then some <$> newRecord l.extras else return l.attribute? p name
  | .metadata p =>
    let m := (← store).metadataAt p
    if name == "model_extra" then some <$> newRecord m.extras else return m.attribute? p name
  | .builtin b => return if b.isType then typeAttribute? b.name name else none
  | .foreignType t => return typeAttribute? t name
  | _ => return none

/-- An attribute as templates read it. -/
def readAttribute (v : Value) (name : String) : Run Value := do
  record (.read v name)
  match v with
  | .none => throw (.attributeOfNone name)
  | .dict p =>
    match (← dict p).find? (.text name) with
    | some w => return w
    | none => return if safeDictMethods.contains name then .method v name else .none
  | v => return (← ownAttribute? v name).getD .none

end Run

end NestedSite
