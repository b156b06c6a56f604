import NestedSite.Site.Event
import NestedSite.Site.Metadata
import NestedSite.Site.Rename

/-!
# Configurations

A configuration says where the sources of a site are and where its output goes, which sources are left out, the data
that all pages share, and how outputs are renamed. It is put together from layers of mappings by `Run.mergeDeep`, in
which a later layer wins key by key, and then read by `Run.configOf`.
-/

namespace NestedSite

structure BuildConfig where
  sourceDir : String := "src"
  outputDir : String := "dist"
  /-- The extension for outputs that have none, with its point. -/
  outputExtension : Option String := none
  exclude : List String := [".*"]
  data : List (String × Value) := []
  rename : List RenameRule := []
  deriving Inhabited

namespace BuildConfig

/-- How outputs are renamed, if anything renames them. -/
def renaming? (c : BuildConfig) : Option Renaming :=
  if c.rename.isEmpty && c.outputExtension.isNone then none else some ⟨c.rename, c.outputExtension⟩

/-- An extension with its point; an empty one is none. -/
def dotted (extension : String) : Option String :=
  if extension.isEmpty then none else if extension.startsWith "." then some extension else some ("." ++ extension)

end BuildConfig

/-- The issues for fields that are not known. -/
def unknownFields (known : List String) (fields : List (String × Value)) : List Issue :=
  fields.filterMap fun (k, _) => if known.contains k then none else some ⟨[k], .unknownField⟩

/-- The issues of the keys of a mapping in their order: keys that are no texts, and fields that are not known. -/
def keyIssues (s : Store) (known : List String) (entries : Entries) : List Issue :=
  entries.filterMap fun (k, _) => match k with
    | .text t => if known.contains t then none else some ⟨[t], .unknownField⟩
    | k => some ⟨[s.keyName k], .badKey⟩

namespace Checked

/-- A text that must be there. -/
def requiredText (name : String) (field : Option Value) : Checked String :=
  match field with
  | none => .defect [name] .missing
  | some v => text [name] v

/-- A text with a default. -/
def textOr (name default : String) (field : Option Value) : Checked String :=
  match field with
  | none => .ok default
  | some v => text [name] v

/-- The texts among values, and the issues of the others. -/
def texts (place : List String) (n : Nat) : List Value → List String × List Issue
  | [] => ([], [])
  | v :: vs =>
    let (ts, issues) := texts place (n + 1) vs
    match text (place ++ [toString n]) v with
    | .ok t => (t :: ts, issues)
    | .error own => (ts, own ++ issues)

end Checked

namespace Run

/-- The pattern of a rule, with its text. -/
def patternOf (field : Option Value) : Run (Checked (String × Pattern)) := do
  match Checked.requiredText "pattern" field with
  | .error issues => return .error issues
  | .ok t =>
    match Pattern.parse t with
    | .ok p => return .ok (t, p)
    | .error .malformed => return .defect ["pattern"] .unacceptable
    | .error .tooLarge => throw .overflow

def ruleOf (v : Value) : Run (Checked RenameRule) := do
  match v with
  | .dict p =>
    let entries ← dict p
    let s ← store
    let (fields, _) := splitKeys s entries
    let pattern ← patternOf (fieldOf? fields "pattern")
    let replacement := Checked.requiredText "replacement" (fieldOf? fields "replacement")
    match pattern, replacement, keyIssues s ["pattern", "replacement"] entries with
    | .ok (text, pattern), .ok replacement, [] => return .ok { text, pattern, replacement }
    | pattern, replacement, keys => return .error (pattern.issues ++ replacement.issues ++ keys)
  | _ => return .defect [] .notRecord

def rulesOf (n : Nat) : List Value → Run (List RenameRule × List Issue)
  | [] => return ([], [])
  | v :: vs => do
    let first ← ruleOf v
    let (rest, issues) ← rulesOf (n + 1) vs
    match first with
    | .ok r => return (r :: rest, issues)
    | .error own => return (rest, Issue.under "rename" (Issue.under (toString n) own) ++ issues)

/-- The texts of a field that should be a list of them. -/
def excludeOf (field : Option Value) : Run (Checked (List String)) := do
  match field with
  | none => return .ok ({} : BuildConfig).exclude
  | some v =>
    match ← sequenceOf? v with
    | none => return .defect ["exclude"] .notList
    | some vs =>
      match Checked.texts ["exclude"] 0 vs with
      | (ts, []) => return .ok ts
      | (_, issues) => return .error issues

/-- The data of a field; a missing field has none. -/
def dataOf (field : Option Value) : Run (Checked (List (String × Value))) := do
  match field with
  | none => return .ok []
  | some v => recordOf ["data"] v

/-- The rules of a field; a missing field has none. -/
def renameOf (field : Option Value) : Run (Checked (List RenameRule)) := do
  match field with
  | none => return .ok []
  | some v =>
    match ← sequenceOf? v with
    | none => return .defect ["rename"] .notList
    | some vs =>
      match ← rulesOf 0 vs with
      | (rules, []) => return .ok rules
      | (_, issues) => return .error issues

/-- The fields that a configuration has. -/
def configFields : List String := ["source_dir", "output_dir", "output_extension", "exclude", "data", "rename"]

/-- The configuration of entries, or the issues of what they should hold. -/
def configOfEntries (entries : Entries) : Run (Checked BuildConfig) := do
  let s ← store
  let (fields, _) := splitKeys s entries
  let field := fieldOf? fields
  let default : BuildConfig := {}
  let source := Checked.textOr "source_dir" default.sourceDir (field "source_dir")
  let output := Checked.textOr "output_dir" default.outputDir (field "output_dir")
  let extension := Checked.textOrNone ["output_extension"] (field "output_extension")
  let exclude ← excludeOf (field "exclude")
  let data ← dataOf (field "data")
  let rename ← renameOf (field "rename")
  match source, output, extension, exclude, data, rename, keyIssues s configFields entries with
  | .ok sourceDir, .ok outputDir, .ok extension, .ok exclude, .ok data, .ok rename, [] =>
    return .ok { sourceDir, outputDir, outputExtension := extension.bind BuildConfig.dotted, exclude, data, rename }
  | source, output, extension, exclude, data, rename, keys =>
    return .error (source.issues ++ output.issues ++ extension.issues ++ exclude.issues ++ data.issues ++
      rename.issues ++ keys)

/-- A configuration, or the issues of what should be one. -/
def configOf? (v : Value) : Run (Checked BuildConfig) := do
  match v with
  | .dict p => configOfEntries (← dict p)
  | _ => return .defect [] .notRecord

def configOf (v : Value) : Run BuildConfig := do
  match ← configOf? v with
  | .ok c => return c
  | .error issues => throw (.invalid issues)

/-! ## Layers -/

/-- Merges the entries of `overlay` into those of `base`, to the depth `n`: a mapping goes into a mapping, and any other
value takes the place of what was there. -/
def mergeEntries : Nat → Entries → Entries → Run Entries
  | 0, _, _ => throw .tooDeep
  | n + 1, base, overlay =>
    overlay.foldlM (fun (merged : Entries) (k, v) => do
      let v ← match v, merged.find? k with
        | .dict q, some (.dict p) => newDict (← mergeEntries n (← dict p) (← dict q))
        | v, _ => pure v
      return merged.insert k v) base

/-- A new mapping: `base` overlaid with `overlay`. -/
def mergeDeep (base overlay : Nat) : Run Value := do
  newDict (← mergeEntries depthLimit (← dict base) (← dict overlay))

/-- A configuration as a mapping. -/
def configRecord (c : BuildConfig) : Run Value := do
  let exclude ← newList (c.exclude.map Value.text)
  let data ← newRecord (← c.data.mapM fun (k, v) => return (k, ← dumped v))
  let rules ← c.rename.mapM fun r => newRecord [("pattern", .text r.text), ("replacement", .text r.replacement)]
  let rename ← newList rules
  newRecord
    [("source_dir", .text c.sourceDir), ("output_dir", .text c.outputDir),
      ("output_extension", (c.outputExtension.map Value.text).getD .none), ("exclude", exclude), ("data", data),
      ("rename", rename)]

end Run

end NestedSite
