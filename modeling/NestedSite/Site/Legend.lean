import NestedSite.Method.Record

/-!
# Reading legends

A legend is read from a mapping with a `name`, which is a text and not empty, an `echo`, which is a text or nothing,
and any other fields (`Run.legendOf`). All issues of a mapping are found: those of the declared fields first, then
those of its keys.
-/

namespace NestedSite

/-- How a key is named in the place of an issue. -/
def Store.keyName (s : Store) (k : Value) : String :=
  match k with
  | .text t => t
  | .bool b => if b then "1" else "0"
  | k => ((s.show k).toOption).getD ""

/-- The issues of a field, or its value. -/
abbrev Checked (α : Type) := Except (List Issue) α

namespace Checked

def issues : Checked α → List Issue
  | .ok _ => []
  | .error es => es

/-- A single defect of a field. -/
def defect (place : List String) (d : Defect) : Checked α := .error [⟨place, d⟩]

/-- A text. Bytes that write one are one. -/
def text (place : List String) : Value → Checked String
  | .text t => pure t
  | .bytes bs =>
    match String.fromUTF8? ⟨bs.toArray⟩ with
    | some t => pure t
    | none => defect place .notText
  | _ => defect place .notText

def textOrNone (place : List String) : Option Value → Checked (Option String)
  | none | some .none => pure none
  | some v => some <$> text place v

end Checked

/-- The fields with text keys, and the issues of the other keys. -/
def splitKeys (s : Store) (entries : Entries) : List (String × Value) × List Issue :=
  entries.foldr (fun (k, v) (fields, issues) => match k with
    | .text t => ((t, v) :: fields, issues)
    | k => (fields, ⟨[s.keyName k], .badKey⟩ :: issues)) ([], [])

/-- What a field is bound to. -/
def fieldOf? (fields : List (String × Value)) (name : String) : Option Value :=
  (fields.find? fun (k, _) => k == name).map Prod.snd

def Legend.ofEntries (s : Store) (entries : Entries) : Checked Legend :=
  let (fields, badKeys) := splitKeys s entries
  let name : Checked String :=
    match fieldOf? fields "name" with
    | none => .defect ["name"] .missing
    | some v => do
      let t ← Checked.text ["name"] v
      if t.isEmpty then .defect ["name"] .emptyText else pure t
  let echo := Checked.textOrNone ["echo"] (fieldOf? fields "echo")
  match name, echo, badKeys with
  | .ok name, .ok echo, [] =>
    .ok { name, echo, echoGiven := (fieldOf? fields "echo").isSome
          extras := fields.filter fun (k, _) => k != "name" && k != "echo" }
  | name, echo, badKeys => .error (name.issues ++ echo.issues ++ badKeys)

namespace Run

/-- A legend, or the issues of what should be one. What is a legend already stays as it is. -/
def legendOf? (v : Value) : Run (Checked Value) := do
  match v with
  | .legend _ => return .ok v
  | .dict p =>
    match Legend.ofEntries (← store) (← dict p) with
    | .ok l => return .ok (← newLegend l)
    | .error issues => return .error issues
  | _ => return .defect [] .notRecord

def legendOf (v : Value) : Run Value := do
  match ← legendOf? v with
  | .ok l => return l
  | .error issues => throw (.invalid issues)

end Run

end NestedSite
