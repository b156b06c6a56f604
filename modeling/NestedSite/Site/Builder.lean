import NestedSite.Site.Config
import NestedSite.Site.Engine
import NestedSite.Site.Source

/-!
# Building a site

A `Builder` reads the sources of a site from the disk into an engine, renders all of them, and writes the documents.
The sources are read once; every further build renders them with other data.
-/

namespace NestedSite

/-- What building changes: the world of values and notes, and the disk. -/
structure Workplace where
  world : World := {}
  disk : Disk := {}

/-- A computation that may write to the disk. A fault does not undo what is written before it. -/
abbrev Work := ExceptT Fault (StateM Workplace)

namespace Work

def ofRun (run : Run α) : Work α := do
  let w ← getThe Workplace
  let (result, world) := (run.run).run w.world
  modifyThe Workplace fun w => { w with world }
  match result with
  | .ok a => return a
  | .error f => throw f

/-- Writes documents, and gives those that are written. -/
def ofWriter (writer : Writer Unit) : Work (List Written) := do
  let w ← getThe Workplace
  let (result, writing) := (writer.run).run { disk := w.disk }
  modifyThe Workplace fun w => { w with disk := writing.disk }
  ofRun (writing.written.forM fun f => Run.note (.log .debug fileSource s!"Wrote output: {f.path}"))
  match result with
  | .ok () => return writing.written
  | .error f => throw f

end Work

structure Builder where
  config : BuildConfig
  /-- The directory of the project, at which relative paths start. -/
  project : Place
  imports : Template.Bindings := []
  observers : Observers := {}
  engine? : Option Engine := none
  deriving Inhabited

namespace Builder

/-- The logger of builders. -/
def source : String := "sitestack.application.site_builder"

/-- The place that a path leads to from the directory of the project. -/
def placeOf (b : Builder) (path : String) : Work Place := do
  let steps := Place.ofPath path
  let p := if Path.isAbsolute path then steps else b.project ++ steps
  match (← getThe Workplace).disk.resolve p with
  | .ok q => return q
  | .error f => throw (.file f)

def sourcePlace (b : Builder) : Work Place := b.placeOf b.config.sourceDir

def outputPlace (b : Builder) : Work Place := b.placeOf b.config.outputDir

/-- A new engine with all sources. -/
def load (b : Builder) : Work Engine := do
  let root ← b.sourcePlace
  let d := (← getThe Workplace).disk
  Work.ofRun do
    let start : Engine :=
      { workDir := b.project.path, root := root.path, imports := b.imports, rename := b.config.renaming?,
        observers := b.observers }
    let sources ← Run.collectSources d root b.config.exclude
    let engine ← sources.foldlM (fun (e : Engine) s =>
      e.register (.text s.content) (.text (Path.join root.path [s.path]))) start
    Run.note (.log .info source s!"Loaded {sources.length} source files from {root.path}")
    return engine

/-- The engine; it is loaded when it is needed for the first time. -/
def ready (b : Builder) : Work (Builder × Engine) := do
  match b.engine? with
  | some e => return (b, e)
  | none =>
    let e ← b.load
    return ({ b with engine? := some e }, e)

/-- The data of the configuration, overlaid with the data of a build. -/
def context (b : Builder) (data : Value) : Run Value := do
  let given ← match data with
    | .dict p => Run.dict p
    | v => if ← Run.truth v then wrongType else pure []
  Run.newDict (Entries.merge (b.config.data.map fun (k, v) => (.text k, v)) given)

def render (b : Builder) (e : Engine) (data : Value) : Work Documents :=
  Work.ofRun do e.renderAll (← b.context data)

/-- Renders the site and writes all documents. -/
def build (b : Builder) (e : Engine) (data : Value) : Work (List Written) := do
  let docs ← b.render e data
  let output ← b.outputPlace
  let written ← Work.ofWriter (Writer.writeAll output docs)
  Work.ofRun do
    written.forM fun f =>
      Run.emit b.observers { kind := .written, output := some f.path, metadata := [("sha256", .text f.digest)] }
    Run.note (.log .info source s!"Wrote {written.length} files to {output.path}")
  return written

end Builder

end NestedSite
