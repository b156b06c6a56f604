import NestedSite.Site.Builder
import NestedSite.Site.Layer
import NestedSite.Text.Json

/-!
# Commands

A command builds the site or lists what it consists of. `Command.ofArguments` reads one from the arguments of the
command line, and `Command.run` carries it out and gives its report, which can be printed as text or as JSON.
-/

namespace NestedSite

/-- Why arguments make no command. -/
inductive UsageFault where
  | help
  | noCommand
  | unknownCommand (name : String)
  | unknownOption (name : String)
  | needsValue (name : String)
  | takesNoValue (name : String)
  | unexpected (argument : String)
  | noFile (path : String)
  | isDirectory (path : String)
  deriving Repr, DecidableEq

def UsageFault.message : UsageFault → String
  | help => ""
  | noCommand => "Missing command."
  | unknownCommand name => s!"No such command '{name}'."
  | unknownOption name => s!"No such option: {name}"
  | needsValue name => s!"Option '{name}' requires an argument."
  | takesNoValue name => s!"Option '{name}' does not take a value."
  | unexpected argument => s!"Got unexpected extra argument ({argument})"
  | noFile path => s!"Invalid value for '--data': File '{path}' does not exist."
  | isDirectory path => s!"Invalid value for '--data': File '{path}' is a directory."

inductive Task where
  | build | list
  deriving Repr, DecidableEq, Inhabited

def Task.name : Task → String
  | build => "build"
  | list => "list"

structure Command where
  task : Task := .build
  json : Bool := false
  verbose : Bool := false
  sourceDir : Option String := none
  outputDir : Option String := none
  dataFile : Option String := none
  /-- Whether events are shown. -/
  events : Bool := false
  deriving Repr, DecidableEq, Inhabited

namespace Command

/-! ## Arguments -/

/-- An option that is written with its value, or without one. -/
def splitOption (argument : String) : String × Option String :=
  match argument.splitOn "=" with
  | name :: part :: parts => (name, some ("=".intercalate (part :: parts)))
  | _ => (argument, none)

/-- Reads the options of a task. -/
def ofOptions (c : Command) : List String → Except UsageFault Command
  | [] => pure c
  | argument :: rest =>
    if argument == "--" then
      match rest with
      | [] => pure c
      | extra :: _ => throw (.unexpected extra)
    else if !argument.startsWith "-" || argument == "-" then throw (.unexpected argument)
    else
      let (name, value?) := splitOption argument
      let set? : Option (String → Command) :=
        if name == "--source" then some fun v => { c with sourceDir := some v }
        else if name == "--output" && c.task == .build then some fun v => { c with outputDir := some v }
        else if name == "--data" then some fun v => { c with dataFile := some v }
        else none
      match set?, value?, rest with
      | some set, some value, rest => ofOptions (set value) rest
      | some set, none, value :: rest => ofOptions (set value) rest
      | some _, none, [] => throw (.needsValue name)
      | none, value?, rest =>
        let isFlag := name == "--help" || (name == "--events" && c.task == .build)
        if !isFlag then throw (.unknownOption name)
        else if value?.isSome then throw (.takesNoValue name)
        else if name == "--help" then throw .help
        else ofOptions { c with events := true } rest

/-- Reads the arguments of the command line: the options for all tasks, a task, and its own options. -/
def ofArguments (c : Command) : List String → Except UsageFault Command
  | [] => throw .noCommand
  | argument :: rest =>
    if argument == "--json" then ofArguments { c with json := true } rest
    else if argument == "--verbose" || argument == "-v" then ofArguments { c with verbose := true } rest
    else if argument == "--help" then throw .help
    else if argument == Task.build.name then ofOptions { c with task := .build } rest
    else if argument == Task.list.name then ofOptions { c with task := .list } rest
    else if argument.startsWith "-" then throw (.unknownOption (splitOption argument).1)
    else throw (.unknownCommand argument)

end Command

/-! ## Reports -/

/-- What a command has to say. -/
inductive Report where
  | built (outputDir : String) (files : List Written)
  | listed (sourceDir : String) (templates outputs : List String)
  | failed (task : Task) (words : String)
  deriving Inhabited

namespace Report

open Text

def exitCode : Report → Nat
  | failed .. => 1
  | _ => 0

/-- The report in words, line by line. -/
def lines : Report → List String
  | built outputDir files => files.map Written.path ++ [s!"Wrote {files.length} files to {outputDir}"]
  | listed _ _ outputs => if outputs.isEmpty then ["No outputs found."] else outputs
  | failed _ words => ["Error: " ++ words]

def json (r : Report) : Json :=
  let texts := fun (ts : List String) => Json.list (ts.map Json.text)
  let written := fun (f : Written) => Json.object [("path", .text f.path), ("sha256", .text f.digest)]
  let start := fun (t : Task) =>
    [("schema_version", Json.number 1), ("command", .text t.name), ("exit_code", .number r.exitCode)]
  .object <| match r with
    | built outputDir files =>
      start .build ++
        [("output_dir", .text outputDir), ("files", .list (files.map written)), ("total", .number files.length)]
    | listed sourceDir templates outputs =>
      start .list ++
        [("source_dir", .text sourceDir), ("templates", texts templates), ("outputs", texts outputs),
          ("total", .number outputs.length)]
    | failed .build words => start .build ++ [("error", .text words), ("files", texts []), ("total", .number 0)]
    | failed .list words =>
      start .list ++
        [("error", .text words), ("templates", texts []), ("outputs", texts []), ("total", .number 0)]

end Report

/-! ## Carrying out -/

/-- What the command line leaves behind. -/
structure Outcome where
  exitCode : Nat
  stdout : String := ""
  stderr : String := ""
  disk : Disk
  deriving Inhabited

namespace Command

/-- The builder of a project. -/
def builder (c : Command) (project home : Place) : Work Builder := do
  let d := (← getThe Workplace).disk
  let given := fun (name : String) (v : Option String) => (Value.text name, (v.map Value.text).getD .none)
  let config ← Work.ofRun <|
    Run.loadConfig d project home [given "source_dir" c.sourceDir, given "output_dir" c.outputDir]
  return { config, project }

/-- The place of a file that an argument names. -/
def fileAt (project : Place) (path : String) : Place :=
  if Path.isAbsolute path then Place.ofPath path else project ++ Place.ofPath path

/-- The data that a file gives; no file gives none. -/
def data (c : Command) (project : Place) : Work Value := do
  match c.dataFile with
  | none => return .none
  | some path =>
    let d := (← getThe Workplace).disk
    Work.ofRun do
      let content ← match d.read (fileAt project path) with
        | .ok content => pure content
        | .error f => throw (.file f)
      match ← Yaml.load (← Run.read fun _ => Disk.textOf content) with
      | .none => return .none
      | .dict p => return .dict p
      | _ => throw (.dataRoot path)

/-- Carries out a command. -/
def perform (c : Command) (project home : Place) : Work Report := do
  let b ← c.builder project home
  match c.task with
  | .build =>
    let data ← c.data project
    let (b, e) ← b.ready
    let files ← b.build e data
    return .built (← b.outputPlace).path files
  | .list =>
    let e ← b.load
    let outputs := (← b.render e (← c.data project)).paths
    return .listed (← b.sourcePlace).path e.paths (sortedTexts outputs)

/-- The places that a command reads from and writes to, if `d` holds the files of the configuration. -/
def places (c : Command) (project home : Place) (d : Disk) : List Place :=
  let directories : Work (List Place) := do
    let b ← c.builder project home
    return [← b.sourcePlace, ← b.outputPlace]
  let found := ((directories.run).run { disk := d }).1
  (c.dataFile.map (fileAt project)).toList ++ (found.toOption.getD [])

/-- The line that shows a note, if the command shows it. -/
def noteLine? (c : Command) : Note → Run (Option String)
  | .log level source message =>
    if c.verbose then return some s!"{level.name} {source}: {message}"
    else return if level == .warning || level == .error then some message else none
  | .event e => do if c.events then return some (← Run.eventLine e) else return none

def text (lines : List String) : String := .join (lines.map fun l => l ++ "\n")

/-- Carries out a command on a disk, and puts its report and its notes where they are to be read. -/
def run (c : Command) (project home : Place) (d : Disk) : Outcome :=
  let (result, w) := ((c.perform project home).run).run { disk := d }
  let report := match result with
    | .ok r => r
    | .error f => .failed c.task f.words
  let shown := ((w.world.notes.toList.filterMapM c.noteLine?).run w.world).1
  let notes := match shown with
    | .ok lines => lines
    | .error _ => []
  let spoken := report.lines
  let (stdout, stderr) :=
    if c.json then ([report.json.compact], notes)
    else if report.exitCode == 0 then (spoken, notes)
    else ([], notes ++ spoken)
  { exitCode := report.exitCode, stdout := text stdout, stderr := text stderr, disk := w.disk }

/-- The text that explains how commands are written. -/
def usage : String := "Usage: sitestack [--json] [--verbose] build|list [OPTIONS]"

/-- What faulty arguments leave behind. -/
def refuse (f : UsageFault) (d : Disk) : Outcome :=
  match f with
  | .help => { exitCode := 0, stdout := text [usage], disk := d }
  | f => { exitCode := 2, stderr := text [usage, "", "Error: " ++ f.message], disk := d }

/-- The data file of a command must be there. -/
def checkData (c : Command) (project : Place) (d : Disk) : Except UsageFault Unit :=
  match c.dataFile with
  | none => pure ()
  | some path =>
    match d.find? (fileAt project path) with
    | .ok (_, .directory) => throw (.isDirectory path)
    | .ok _ => pure ()
    | .error _ => throw (.noFile path)

/-- Carries out the command that arguments describe. -/
def runArguments (arguments : List String) (project home : Place) (d : Disk) : Outcome :=
  match ofArguments {} arguments with
  | .error f => refuse f d
  | .ok c =>
    match c.checkData project d with
    | .error f => refuse f d
    | .ok () => c.run project home d

end Command

end NestedSite
