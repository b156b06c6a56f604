import NestedSite.Pattern.Replacement
import NestedSite.Site.Argument
import NestedSite.Site.Legend

/-!
# The metadata of directories

Metadata is read from a mapping: `ignore`, a pattern or nothing, `files`, a sequence of legends, and any other fields,
which are groups to echo (`Run.metadataOf`). A `Directories` value says which metadata the directories of a site have;
the legend of a file is the first one of its directory that has the file's name.
-/

namespace NestedSite

namespace Checked

/-- A pattern that can be used for searching, or an empty text. -/
def patternText (place : List String) (t : String) : Except Fault (Checked String) :=
  match Pattern.parse t with
  | .ok _ => pure (.ok t)
  | .error .malformed => pure (.defect place .unacceptable)
  | .error .tooLarge => throw .overflow

end Checked

namespace Run

/-- The items of a value that may stand for a list: anything that can be gone through, but for texts and mappings. -/
def sequenceOf? (v : Value) : Run (Option (List Value)) := do
  match v with
  | .text _ | .bytes _ | .dict _ => return none
  | .list _ | .tuple _ | .set _ | .range .. | .view .. | .cursor _ | .legend _ | .metadata _ => some <$> items v
  | _ => return none

/-- The legends of a sequence, and the issues of all its items. -/
def legendsOf (place : List String) : Nat → List Value → Run (List Value × List Issue)
  | _, [] => return ([], [])
  | n, v :: vs => do
    let first ← legendOf? v
    let (rest, issues) ← legendsOf place (n + 1) vs
    match first with
    | .ok l => return (l :: rest, issues)
    | .error own =>
      let placed := own.map fun i => { i with place := place ++ toString n :: i.place }
      return (rest, placed ++ issues)

/-- The list of legends of a field; a missing field is an empty list. -/
def filesOf (field : Option Value) : Run (Checked (List Value)) := do
  match field with
  | none => return .ok []
  | some v =>
    match ← sequenceOf? v with
    | none => return .defect ["files"] .notList
    | some vs =>
      match ← legendsOf ["files"] 0 vs with
      | (legends, []) => return .ok legends
      | (_, issues) => return .error issues

/-- The pattern of files that are not rendered. -/
def ignoreOf (field : Option Value) : Run (Checked (Option String)) := do
  match Checked.textOrNone ["ignore"] field with
  | .ok (some t) =>
    if t.isEmpty then return .ok (some t)
    else match ← read fun _ => Checked.patternText ["ignore"] t with
      | .ok t => return .ok (some t)
      | .error issues => return .error issues
  | r => return r

def metadataOf? (v : Value) : Run (Checked Value) := do
  match v with
  | .metadata _ => return .ok v
  | .dict p =>
    let (fields, badKeys) := splitKeys (← store) (← dict p)
    let ignore ← ignoreOf (fieldOf? fields "ignore")
    let files ← filesOf (fieldOf? fields "files")
    match ignore, files, badKeys with
    | .ok ignore, .ok legends, [] =>
      match ← newList legends with
      | .list place =>
        let extras := fields.filter fun (k, _) => k != "ignore" && k != "files"
        return .ok (← newMetadata { ignore, files := place, extras })
      | _ => return .defect [] .notRecord
    | ignore, files, badKeys => return .error (ignore.issues ++ files.issues ++ badKeys)
  | _ => return .defect [] .notRecord

def metadataOf (v : Value) : Run Value := do
  match ← metadataOf? v with
  | .ok m => return m
  | .error issues => throw (.invalid issues)

end Run

/-- The places of the metadata of directories. -/
abbrev Directories := List (String × Nat)

namespace Directories

def find? (ds : Directories) (directory : String) : Option Nat :=
  (List.find? (fun d => d.1 == directory) ds).map Prod.snd

/-- The directory of a path; a path that ends in a slash is itself one. -/
def directoryOf (path : String) : String :=
  if path.endsWith "/" then Path.normalize (.ofList (Path.dropEndSlashes path.toList)) else Path.parent path

/-- The metadata of the directory of a path. -/
def metadataAt? (ds : Directories) (path : String) : Option Nat := ds.find? (directoryOf path)

/-- The legend of the file at a path. -/
def legendAt? (ds : Directories) (path : String) : Run (Option Nat) := do
  match ds.metadataAt? path with
  | none => return none
  | some p =>
    match ← Run.legendNamed ((← Run.store).metadataAt p) (.text (Path.name path)) with
    | .legend l => return some l
    | _ => return none

/-- Whether the file at a path is not rendered: the pattern of its directory is found in its name. -/
def ignores (ds : Directories) (path : String) : Run Bool := do
  match ds.metadataAt? path with
  | none => return false
  | some p =>
    match ((← Run.store).metadataAt p).ignore with
    | none => return false
    | some t =>
      if t.isEmpty then return false
      match Pattern.parse t with
      | .ok pattern => return pattern.occursIn (Path.name path)
      | .error _ => return false

end Directories

end NestedSite
