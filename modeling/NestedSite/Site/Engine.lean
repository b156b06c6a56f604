import NestedSite.Site.Document
import NestedSite.Site.Echo
import NestedSite.Site.Event
import NestedSite.Site.Rename
import NestedSite.Template.Render
import NestedSite.Yaml.Load

/-!
# The engine of a site

An `Engine` holds the templates and the metadata that are registered. A page is rendered through its ancestors: the
page itself first, then the index of its directory and those of the directories above, each of which finds what has
been put out so far as the content of the context (`Engine.renderThrough`). All of them share one context. A page whose
legend echoes a group is rendered once for every element of the group (`Engine.renderTemplate`).
-/

namespace NestedSite

structure Engine where
  /-- The directory at which relative paths start. -/
  workDir : String
  /-- The directory from which absolute paths are spelled. -/
  root : String
  /-- What templates may name beyond the builtin names and the helpers. -/
  imports : Template.Bindings := []
  rename : Option Renaming := none
  /-- The templates by their paths without extension, in the order of their first registration. -/
  templates : List (String × Template) := []
  directories : Directories := []
  /-- Who learns of what happens in a pass over all templates. -/
  observers : Observers := {}
  deriving Inhabited

namespace Engine

/-- The logger of the engine. -/
def source : String := "sitestack.application.site_engine"

/-- The logger of renderings. -/
def renderSource : String := "sitestack.application.hierarchical_renderer"

/-- The logger of passes over all templates. -/
def passSource : String := "sitestack.application.render_orchestrator"

def template? (e : Engine) (path : String) : Option Template :=
  (e.templates.find? fun t => t.1 == path).map Prod.snd

def paths (e : Engine) : List String := e.templates.map Prod.fst

/-- The scope that templates are compiled with. -/
def scope (e : Engine) : Template.Bindings :=
  Template.baseScope ((Helper.all.map fun h => (h.name, Value.helper h)) ++ e.imports)

/-! ## Registration -/

/-- The extensions of metadata. -/
def metadataExtensions : List String := [".yaml", ".yml", ".json"]

/-- The metadata of a directory, read from its source. -/
def readMetadata (directory text : String) : Run Nat := do
  let loaded ← tryCatch (Yaml.load text) fun
    | .malformedYaml => throw (.metadata .malformed directory)
    | f => throw f
  let fields ← match loaded with
    | .none => Run.newDict []
    | .dict p => pure (.dict p)
    | _ => throw (.metadata .notMapping directory)
  match ← Run.metadataOf? fields with
  | .ok (.metadata p) => return p
  | .ok _ => throw (.metadata .notMapping directory)
  | .error issues => throw (.metadata (.invalid issues.length) directory)

/-- Puts a template at a path, in the place of one that is there. -/
def putTemplate (e : Engine) (path : String) (t : Template) : Engine :=
  if e.templates.any fun u => u.1 == path then
    { e with templates := e.templates.map fun u => if u.1 == path then (path, t) else u }
  else { e with templates := e.templates ++ [(path, t)] }

/-- The metadata of a directory becomes known. There is one source of it at most. -/
def registerMetadata (e : Engine) (directory text : String) : Run Engine := do
  let p ← readMetadata directory text
  if (e.directories.find? directory).isSome then throw (.duplicateMetadata directory)
  Run.note (.log .debug source s!"Registered metadata for directory: {directory}")
  return { e with directories := e.directories ++ [(directory, p)] }

def registerTemplate (e : Engine) (path text : String) : Run Engine := do
  match Template.compile text with
  | .error f => throw (.compilation path f)
  | .ok t =>
    Run.note (.log .debug source s!"Registered template: {path}")
    return e.putTemplate path t

/-- Registers a source under its path. -/
def register (e : Engine) (text path : Value) : Run Engine := do
  let text ← Run.textArgument "source" text
  let path ← Run.nonemptyArgument "path" path
  let path := Path.relativeTo e.workDir e.root path
  if metadataExtensions.contains (Path.extension path) then e.registerMetadata (Path.parent path) text
  else e.registerTemplate (Path.withoutExtension path) text

/-! ## Looking up -/

/-- The metadata of the directory of a path. -/
def metadataAt (e : Engine) (path : Value) : Run Value := do
  let path ← Run.textArgument "path" path
  return ((e.directories.metadataAt? path).map Value.metadata).getD .none

/-- The legend of the file at a path. -/
def legendAt (e : Engine) (path : Value) : Run Value := do
  let path ← Run.textArgument "path" path
  return ((← e.directories.legendAt? path).map Value.legend).getD .none

/-- Whether the file at a path is not rendered. -/
def ignores (e : Engine) (path : Value) : Run Bool := do
  e.directories.ignores (← Run.textArgument "path" path)

/-! ## One template -/

/-- Binds a key of a context. -/
def setKey (context : Nat) (key : String) (v : Value) : Run Unit := do
  Run.setDict context ((← Run.dict context).insert (.text key) v)

/-- Binds a key of a context to the empty text, unless it is bound to a text. -/
def ensureText (context : Nat) (key : String) : Run Unit := do
  match (← Run.dict context).find? (.text key) with
  | some (.text _) => return
  | _ => setKey context key (.text "")

/-- The context of a rendering: the mapping that is given, or a new one. -/
def contextOf (v : Value) : Run Nat := do
  match v with
  | .dict p => return p
  | _ =>
    match ← Run.newDict [] with
    | .dict p => return p
    | _ => wrongType

/-- A new context with the entries of the mapping that is given. -/
def copiedContext (v : Value) : Run Nat := do
  match v with
  | .dict p => contextOf (← Run.newDict (← Run.dict p))
  | _ => contextOf .none

/-- Prepares a context for the template at a path: content and title are texts, the context knows itself and the
metadata of the directory, and it has the fields of the legend, unless the legend echoes a group. -/
def ensureDefaults (e : Engine) (path context : Value) : Run Unit := do
  let path ← Run.textArgument "path" path
  let p ← Run.mappingArgument "context" context
  ensureText p contentKey
  ensureText p titleKey
  setKey p selfKey (.dict p)
  if let some m := e.directories.metadataAt? path then setKey p metaKey (.metadata m)
  if let some l ← e.directories.legendAt? path then
    let legend := (← Run.store).legend l
    if !legend.echoes then Run.mergeLegend p legend

/-- Reports the path of a template whose rendering fails. -/
def reporting (path : String) (run : Run α) : Run α :=
  tryCatch run fun f => do
    Run.note (.log .error renderSource s!"Error when rendering template at path: {path}")
    throw f

/-- What a level without a template puts out: the content as it is. -/
def passedContent (context : Nat) : Run Value := do
  return ((← Run.dict context).find? (.text contentKey)).getD (.text "")

/-- How deep templates may include one another. -/
def includeLimit : Nat := 100

/-- Renders the template at a path by itself; templates include one another to the depth `n`. -/
def renderTo (e : Engine) : Nat → Value → Value → Run Value
  | 0, _, _ => throw .tooDeep
  | n + 1, path, context => do
    let path := Path.normalize (← Run.nonemptyArgument "path" path)
    let p ← contextOf context
    e.ensureDefaults (.text path) (.dict p)
    let host : Host :=
      { cwd := e.workDir,
        renderPartial := fun path context => do renderTo e n path (.dict (← copiedContext context)) }
    reporting path <|
      match e.template? (Path.withoutExtension path) with
      | some t => Value.text <$> t.render host e.scope (some p)
      | none => passedContent p

/-- Renders the template at a path by itself. -/
def renderOne (e : Engine) (path context : Value) : Run Value := e.renderTo includeLimit path context

/-- Renders a part of a page with a copy of its context. -/
def renderPartial (e : Engine) (path context : Value) : Run Value := do
  e.renderOne path (.dict (← copiedContext context))

/-- Renders a page through its ancestors. -/
def renderThrough (e : Engine) (path context : Value) : Run Value := do
  let path ← Run.nonemptyArgument "path" path
  let p ← contextOf context
  (Path.ancestorChain path).forM fun level => do
    setKey p contentKey (← e.renderOne (.text level) (.dict p))
  passedContent p

/-! ## Pages -/

/-- The context of a page: the given data, the fields of the legend, and the page's name. -/
def pageContext (path : String) (data : Value) (legend : Option Legend) : Run Nat := do
  let p ← copiedContext data
  if let some l := legend then Run.mergeLegend p l
  setKey p nameKey (.text (Path.name path))
  return p

/-- The contexts of the documents of a page: one, or one for each element of the group that is echoed. -/
def pageContexts (e : Engine) (path : String) (data : Value) : Run (List Nat) := do
  let place ← e.directories.legendAt? path
  let legend ← match place with
    | some l => pure (some ((← Run.store).legend l))
    | none => pure none
  let p ← pageContext path data legend
  match legend with
  | some l =>
    if l.echoes then reporting path (Run.branches p (e.directories.metadataAt? path) l) else return [p]
  | none => return [p]

/-- Renders a page for one context, and says where the document goes. -/
def renderBranch (e : Engine) (path : String) (context : Nat) : Run (String × Value) := do
  let name ← match (← Run.dict context).find? (.text nameKey) with
    | some v => Run.text v
    | none => throw .missingKey
  let place := Path.join (Path.parent path) [name]
  setKey context pathKey (.text place)
  let document ← e.renderThrough (.text path) (.dict context)
  let target ← Run.read fun _ => Renaming.target e.rename place
  return (target, document)

/-- The documents of a page. -/
def renderTemplate (e : Engine) (path data : Value) : Run Documents := do
  let path ← Run.nonemptyArgument "path" path
  (← e.pageContexts path data).foldlM (fun (docs : Documents) context => do
    let (target, document) ← e.renderBranch path context
    return docs.put target document) []

/-! ## The whole site -/

/-- The documents of a pass so far, and the templates that they come from. -/
structure Pass where
  documents : Documents := []
  sources : List (String × String) := []

/-- Takes a document of the template at a path. It takes the place of another one with the same path. -/
def Pass.add (observers : Observers) (pass : Pass) (path : String) (doc : String × Value) : Run Pass := do
  let (target, content) := doc
  if let some (_, other) := pass.sources.find? fun s => s.1 == target then
    Run.note (.log .warning passSource s!"Output path '{target}' from '{path}' overwrites the one from '{other}'")
  Run.emit observers { kind := .rendered, template := some path, output := some target }
  return { documents := pass.documents.put target content, sources := (target, path) :: pass.sources }

/-- What the observers learn of a template that fails. -/
def failure (path : String) (f : Fault) (words : String) : Event :=
  { kind := .failed, template := some path, fault := some f, metadata := [("error", .text words)] }

/-- The observers learn of a template that fails, if the fault has words. -/
def announce (e : Engine) (path : String) (f : Fault) : Run Unit := do
  if let .ok words := f.wording then Run.emit e.observers (failure path f words)

/-- Renders one template of a pass, unless it is ignored. -/
def passOver (e : Engine) (data : Value) (pass : Pass) (path : String) : Run Pass := do
  if ← e.directories.ignores path then
    Run.note (.log .debug passSource s!"Ignoring template: {path}")
    Run.emit e.observers { kind := .ignored, template := some path }
    return pass
  let docs ← tryCatch (e.renderTemplate (.text path) data) fun f => do
    e.announce path f
    throw f
  docs.foldlM (fun pass doc => pass.add e.observers path doc) pass

/-- Renders all templates in the order of their registration. A fault without words gives way to what came of the
attempt to find them. -/
def renderAll (e : Engine) (data : Value) : Run Documents :=
  tryCatch (do return (← e.paths.foldlM (e.passOver data) {}).documents) fun f => throw f.told

end Engine

end NestedSite
