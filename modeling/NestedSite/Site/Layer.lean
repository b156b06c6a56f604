import NestedSite.Site.Config
import NestedSite.Site.Disk
import NestedSite.Yaml.Load

/-!
# Loading configurations

The layers of a configuration are, from the lowest to the highest: the defaults, the file of the user, the file of the
project, and the values that are given on the spot. A file that is missing is an empty layer.
-/

namespace NestedSite.Run

/-- The logger of loading configurations. -/
def layerSource : String := "sitestack.application.config_loader"

/-- Where a configuration is found under a project or a home directory. -/
def configSteps : List String := [".sitestack", "config.yml"]

/-- The entries of a file. It may be missing if `optional` says so; otherwise it must be readable and hold a mapping, or
nothing. -/
def loadLayer (d : Disk) (p : Place) (isOptional : Bool) : Run Entries := do
  let refused := fun (f : ConfigFault) => Fault.config f (some p.path)
  match d.read p with
  | .error .notFound => if isOptional then return [] else throw (refused .missing)
  | .error _ => throw (refused .unreadable)
  | .ok content =>
    let text ← read fun _ => Disk.textOf content
    let loaded ← tryCatch (Yaml.load text) fun
      | .malformedYaml => throw (refused .malformed)
      | f => throw f
    match loaded with
    | .none => return []
    | .dict q =>
      note (.log .debug layerSource s!"Loaded config layer: {p.path}")
      dict q
    | _ => throw (refused .notMapping)

/-- The entries of all layers that are files. -/
def loadLayers (d : Disk) (project home : Place) : Run Entries := do
  match ← configRecord {} with
  | .dict p =>
    [home, project].foldlM (fun (merged : Entries) directory => do
      mergeEntries depthLimit merged (← loadLayer d (directory ++ configSteps) true)) (← dict p)
  | _ => wrongType

/-- The configuration of a project. Values on the spot that are nothing leave the other layers as they are. -/
def loadConfig (d : Disk) (project home : Place) (overrides : Entries) : Run BuildConfig := do
  let merged ← loadLayers d project home
  let given := overrides.filter fun (_, v) => match v with
    | .none => false
    | _ => true
  match ← configOf? (← newDict (← mergeEntries depthLimit merged given)) with
  | .ok c => return c
  | .error issues => throw (.config (.invalid issues.length) none)

end NestedSite.Run
