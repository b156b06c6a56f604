import NestedSite.Proofs.Relocation.Registration
import NestedSite.Proofs.Site.Loading
import NestedSite.Proofs.Site.Observers
import NestedSite.Site.Command

/-!
# Commands on what is moved

The steps of a command do not know which places are free. A configuration is read alike from entries that are moved
(`Run.configOfEntries_moves`), the sources and the data of a site are loaded alike (`Builder.loadEngine_moves`,
`Command.dataFrom_moves`), and a pass over all templates has the same documents (`Engine.renderAll_moves`).
-/

namespace NestedSite

variable {ρ : Relocation}

/-! ## Passes -/

theorem Run.emit_moves (o : Observers) (e : Event) : Moves ρ id (Run.emit o e) (Run.emit o e) := fun w w' hw => by
  unfold Run.outcome Run.after
  rw [Run.emit_run, Run.emit_run]
  exact ⟨rfl, hw, .refl _⟩

/-- What is folded over items that hold no places. -/
theorem Moves.foldlM_plain {α β γ : Type} {f : α → β} {k : α → γ → Run α} {k' : β → γ → Run β}
    (hk : ∀ a x, Moves ρ f (k a x) (k' (f a) x)) (xs : List γ) (a : α) :
    Moves ρ f (xs.foldlM k a) (xs.foldlM k' (f a)) := by
  have folded : Moves ρ f (xs.foldlM k a) ((xs.map id).foldlM k' (f a)) := Moves.foldlM hk a
  rwa [List.map_id] at folded

namespace Engine

/-- A pass whose documents are moved. -/
def Pass.moved (ρ : Relocation) (pass : Pass) : Pass := { pass with documents := movedFields ρ pass.documents }

theorem add_moves (observers : Observers) (pass : Pass) (path : String) (doc : String × Value) :
    Moves ρ (Pass.moved ρ) (pass.add observers path doc) ((pass.moved ρ).add observers path (movedDocument ρ doc)) := by
  have taken : Moves ρ (Pass.moved ρ)
      (do
        Run.emit observers { kind := .rendered, template := some path, output := some doc.1 }
        return { documents := pass.documents.put doc.1 doc.2, sources := (doc.1, path) :: pass.sources })
      (do
        Run.emit observers { kind := .rendered, template := some path, output := some doc.1 }
        return { documents := Documents.put (movedFields ρ pass.documents) doc.1 (doc.2.moved ρ),
                 sources := (doc.1, path) :: pass.sources }) := by
    refine (Run.emit_moves _ _).seq (.pure ?_)
    rw [put_moved]
    rfl
  unfold Pass.add
  dsimp only [Pass.moved, movedDocument]
  split
  · exact (Run.note_moves _ _).seq taken
  · exact taken

theorem announce_moves (e : Engine) (path : String) (f : Fault) :
    Moves ρ id (e.announce path f) ((e.moved ρ).announce path f) := by
  unfold announce
  split
  · exact Run.emit_moves _ _
  · exact .pure rfl

theorem passOver_moves (e : Engine) (data : Value) (pass : Pass) (path : String) :
    Moves ρ (Pass.moved ρ) (e.passOver data pass path)
      ((e.moved ρ).passOver (data.moved ρ) (pass.moved ρ) path) := by
  refine (Directories.ignores_moves e.directories path).bindPlain fun ignored => .ite (fun _ => ?_) fun _ => ?_
  · exact (Run.note_moves _ _).seq ((Run.emit_moves _ _).seq (.pure rfl))
  · refine Moves.bind (f := movedFields ρ) ?_ fun docs => ?_
    · exact (renderTemplate_moves e (.text path) data).tryCatch fun f => (announce_moves e path f).seq .throw
    · exact Moves.foldlM (f := Pass.moved ρ) (h := movedDocument ρ)
        (fun pass doc => add_moves e.observers pass path doc)
        pass

/-- All templates have the same documents where the engine and the data are moved. -/
theorem renderAll_moves (e : Engine) (data : Value) :
    Moves ρ (movedFields ρ) (e.renderAll data) ((e.moved ρ).renderAll (data.moved ρ)) := by
  have pass : Moves ρ (Pass.moved ρ) (e.paths.foldlM (e.passOver data) {})
      ((e.moved ρ).paths.foldlM ((e.moved ρ).passOver (data.moved ρ)) {}) :=
    Moves.foldlM_plain (passOver_moves e data) e.paths {}
  have documents : Moves ρ (movedFields ρ) (do return (← e.paths.foldlM (e.passOver data) {}).documents)
      (do return (← (e.moved ρ).paths.foldlM ((e.moved ρ).passOver (data.moved ρ)) {}).documents) :=
    pass.bind fun _ => .pure rfl
  exact documents.tryCatch fun _ => .throw

end Engine

/-! ## Sources -/

namespace Run

theorem directoryAt_moves (d : Disk) (p : Place) : Moves ρ id (directoryAt d p) (directoryAt d p) := by
  unfold directoryAt
  cases d.resolve p with
  | error f => exact .throw
  | ok q => exact .ite (fun _ => .pure rfl) fun _ => .throw

theorem sourceOf?_moves (globs : List String) (file : Place × List UInt8) :
    Moves ρ id (sourceOf? globs file) (sourceOf? globs file) := by
  refine .ite (fun _ => (note_moves _ _).seq (.pure rfl)) fun _ => ?_
  exact (read_moves fun _ _ _ => (congrFun Except.map_id _).symm).bindPlain fun _ => .pure rfl

theorem sourcesOf_moves (globs : List String) (files : List (Place × List UInt8)) :
    Moves ρ id (files.filterMapM (sourceOf? globs)) (files.filterMapM (sourceOf? globs)) := by
  induction files with
  | nil => exact .pure rfl
  | cons file files ih =>
    rw [List.filterMapM_cons]
    refine (sourceOf?_moves globs file).bindPlain fun found => ?_
    cases found with
    | none => exact ih
    | some _ => exact ih.bindPlain fun _ => .pure rfl

/-- The sources of a directory have no places. -/
theorem collectSources_moves (d : Disk) (p : Place) (globs : List String) :
    Moves ρ id (collectSources d p globs) (collectSources d p globs) :=
  (directoryAt_moves d p).bindPlain fun _ => (sourcesOf_moves globs _).bindPlain fun _ => .pure rfl

end Run

namespace Builder

/-- A source is registered under the path that it has from a place. -/
def registerUnder (root : Place) (e : Engine) (s : SourceFile) : Run Engine :=
  e.register (.text s.content) (.text (Path.join root.path [s.path]))

/-- A new engine with some sources, which are under a place. -/
def engineOf (b : Builder) (root : Place) (sources : List SourceFile) : Run Engine := do
  let engine ← sources.foldlM (registerUnder root) (b.start b.project.path root.path)
  Run.note (.log .info source s!"Loaded {sources.length} source files from {root.path}")
  return engine

/-- A new engine with all sources under a place of a disk. -/
def loadEngine (b : Builder) (d : Disk) (root : Place) : Run Engine := do
  b.engineOf root (← Run.collectSources d root b.config.exclude)

theorem loadEngine_moves {b b' : Builder} (d : Disk) (root : Place)
    (hstart : (b.start b.project.path root.path).moved ρ = b'.start b'.project.path root.path)
    (hexclude : b'.config.exclude = b.config.exclude) :
    Moves ρ (Engine.moved ρ) (b.loadEngine d root) (b'.loadEngine d root) := by
  unfold loadEngine engineOf
  rw [hexclude]
  refine (Run.collectSources_moves d root _).bindPlain fun sources => ?_
  have register (e : Engine) (s : SourceFile) :
      Moves ρ (Engine.moved ρ) (registerUnder root e s) (registerUnder root (e.moved ρ) s) :=
    Engine.register_moves e (.text s.content) (.text (Path.join root.path [s.path]))
  have registered := Moves.foldlM_plain register sources (b.start b.project.path root.path)
  rw [hstart] at registered
  exact registered.bind fun _ => (Run.note_moves _ _).seq (.pure rfl)

/-- The context of a site is made alike of data that is moved. -/
theorem context_moves {b b' : Builder} (hdata : b'.config.data = movedFields ρ b.config.data) (data : Value) :
    Moves ρ (Value.moved ρ) (b.context data) (b'.context (data.moved ρ)) := by
  have fields : (movedFields ρ b.config.data).map (fun e => (Value.text e.1, e.2)) =
      Entries.moved ρ (b.config.data.map fun e => (.text e.1, e.2)) := by
    simp [movedFields, Entries.moved, Function.comp_def, Value.moved]
  have made (given : Entries) : Moves ρ (Value.moved ρ)
      (Run.newDict (Entries.merge (b.config.data.map fun e => (.text e.1, e.2)) given))
      (Run.newDict (Entries.merge (b'.config.data.map fun e => (.text e.1, e.2)) (given.moved ρ))) := by
    rw [hdata, fields]
    exact Run.newDict_moves (Entries.merge_moved ρ _ given)
  cases data
  case dict p => exact (Run.dict_moves p).bind made
  all_goals exact (Run.truth_moves _).bindPlain fun _ => .ite (fun _ => .wrongType_bind) fun _ => made []

/-- The documents of a site with its own data overlaid. -/
def documents (b : Builder) (e : Engine) (data : Value) : Run Documents := do e.renderAll (← b.context data)

theorem documents_moves {b b' : Builder} (hdata : b'.config.data = movedFields ρ b.config.data) (e : Engine)
    (data : Value) : Moves ρ (movedFields ρ) (b.documents e data) (b'.documents (e.moved ρ) (data.moved ρ)) :=
  (context_moves hdata data).bind fun context => Engine.renderAll_moves e context

end Builder

/-! ## Data -/

namespace Command

/-- The data of a file that a path names; no path gives none. -/
def dataFrom (file : Option String) (project : Place) (d : Disk) : Run Value := do
  match file with
  | none => return .none
  | some path =>
    let content ← match d.read (fileAt project path) with
      | .ok content => pure content
      | .error f => throw (.file f)
    match ← Yaml.load (← Run.read fun _ => Disk.textOf content) with
    | .none => return .none
    | .dict p => return .dict p
    | _ => throw (.dataRoot path)

theorem dataFrom_moves (file : Option String) (project : Place) (d : Disk) :
    Moves ρ (Value.moved ρ) (dataFrom file project d) (dataFrom file project d) := by
  unfold dataFrom
  cases file with
  | none => exact .pure rfl
  | some path =>
    dsimp only
    cases d.read (fileAt project path) with
    | error f => exact .throw_bind
    | ok content =>
      refine (Moves.pure (f := id) rfl).bindPlain fun content => ?_
      refine (Run.read_moves fun _ _ _ => (congrFun Except.map_id _).symm).bindPlain fun text => ?_
      refine (Yaml.load_moves text).bind fun v => ?_
      cases v
      case none => exact .pure rfl
      case dict => exact .pure rfl
      all_goals exact .throw

end Command

/-! ## Configurations -/

/-- A configuration whose data is moved. -/
def BuildConfig.moved (ρ : Relocation) (c : BuildConfig) : BuildConfig := { c with data := movedFields ρ c.data }

theorem Checked.textOr_moved (name default : String) (field : Option Value) :
    Checked.textOr name default (field.map (Value.moved ρ)) = Checked.textOr name default field := by
  cases field with
  | none => rfl
  | some v => exact Checked.text_moved [name] v

theorem Checked.requiredText_moved (name : String) (field : Option Value) :
    Checked.requiredText name (field.map (Value.moved ρ)) = Checked.requiredText name field := by
  cases field with
  | none => rfl
  | some v => exact Checked.text_moved [name] v

theorem Checked.texts_moved (place : List String) : ∀ (n : Nat) (vs : List Value),
    Checked.texts place n (vs.map (Value.moved ρ)) = Checked.texts place n vs
  | _, [] => rfl
  | n, v :: vs => by
    rw [List.map_cons, Checked.texts, Checked.texts, Checked.texts_moved place (n + 1) vs, Checked.text_moved]

theorem filterMap_moved {α : Type} {f f' : Value × Value → Option α} (h : ∀ e, f' (e.1.moved ρ, e.2.moved ρ) = f e)
    (es : Entries) : (es.moved ρ).filterMap f' = es.filterMap f := by
  unfold Entries.moved
  rw [List.filterMap_map]
  exact congrArg (fun f => es.filterMap f) (funext h)

theorem keyIssues_moved {s s' : Store} (hs : ρ.Fits s s') (known : List String) (es : Entries) :
    keyIssues s' known (es.moved ρ) = keyIssues s known es := by
  refine filterMap_moved (fun e => ?_) es
  obtain ⟨k, v⟩ := e
  have name := Store.keyName_moved hs k
  cases k
  case text t => rfl
  all_goals
    dsimp only [Value.moved] at name ⊢
    rw [name]

namespace Run

theorem keysNotText_moved {s s' : Store} (hs : ρ.Fits s s') (place : List String) (es : Entries) :
    keysNotText s' place (es.moved ρ) = keysNotText s place es := by
  refine filterMap_moved (fun e => ?_) es
  obtain ⟨k, v⟩ := e
  have name := Store.keyName_moved hs k
  cases k
  case text t => rfl
  all_goals
    dsimp only [Value.moved] at name ⊢
    rw [name]

theorem textFields_moved (es : Entries) : textFields (es.moved ρ) = movedFields ρ (textFields es) := by
  unfold textFields movedFields
  rw [List.map_filterMap]
  exact filterMap_moved (fun ⟨k, v⟩ => by cases k <;> rfl) es

theorem recordOf_moves (place : List String) (v : Value) :
    Moves ρ (Except.map (movedFields ρ)) (recordOf place v) (recordOf place (v.moved ρ)) := by
  cases v
  case dict p =>
    refine store_bind_moves fun s s' hs => (dict_moves p).bind fun es => ?_
    rw [keysNotText_moved hs, textFields_moved]
    exact .ite (fun _ => .pure rfl) fun _ => .pure rfl
  all_goals exact .pure rfl

theorem patternOf_moves (field : Option Value) :
    Moves ρ id (patternOf field) (patternOf (field.map (Value.moved ρ))) := by
  unfold patternOf
  rw [Checked.requiredText_moved]
  split
  · exact .pure rfl
  · split
    · exact .pure rfl
    · exact .pure rfl
    · exact .throw

theorem ruleOf_moves (v : Value) : Moves ρ id (ruleOf v) (ruleOf (v.moved ρ)) := by
  cases v
  case dict p =>
    refine (dict_moves p).bind fun es => store_bind_moves fun s s' hs => ?_
    rw [splitKeys_moved hs, keyIssues_moved hs]
    obtain ⟨fields, badKeys⟩ := splitKeys s es
    dsimp only [Prod.map_apply, id]
    rw [fieldOf?_moved, fieldOf?_moved, Checked.requiredText_moved]
    refine (patternOf_moves _).bindPlain fun pattern => ?_
    generalize Checked.requiredText "replacement" _ = replacement
    generalize keyIssues _ _ _ = keys
    cases pattern <;> cases replacement <;> cases keys <;> exact .pure rfl
  all_goals exact .pure rfl

theorem rulesOf_moves : ∀ (n : Nat) (vs : List Value), Moves ρ id (rulesOf n vs) (rulesOf n (vs.map (Value.moved ρ)))
  | _, [] => .pure rfl
  | n, v :: vs => by
    refine (ruleOf_moves v).bindPlain fun first => (rulesOf_moves (n + 1) vs).bindPlain fun rest => ?_
    cases first <;> exact .pure rfl

theorem excludeOf_moves (field : Option Value) :
    Moves ρ id (excludeOf field) (excludeOf (field.map (Value.moved ρ))) := by
  cases field with
  | none => exact .pure rfl
  | some v =>
    refine (sequenceOf?_moves v).bind fun found => ?_
    cases found with
    | none => exact .pure rfl
    | some vs =>
      dsimp only [Option.map_some]
      rw [Checked.texts_moved]
      obtain ⟨ts, issues⟩ := Checked.texts ["exclude"] 0 vs
      cases issues <;> exact .pure rfl

theorem dataOf_moves (field : Option Value) :
    Moves ρ (Except.map (movedFields ρ)) (dataOf field) (dataOf (field.map (Value.moved ρ))) := by
  cases field with
  | none => exact .pure rfl
  | some v => exact recordOf_moves ["data"] v

theorem renameOf_moves (field : Option Value) :
    Moves ρ id (renameOf field) (renameOf (field.map (Value.moved ρ))) := by
  cases field with
  | none => exact .pure rfl
  | some v =>
    refine (sequenceOf?_moves v).bind fun found => ?_
    cases found with
    | none => exact .pure rfl
    | some vs =>
      refine (rulesOf_moves 0 vs).bindPlain fun found => ?_
      obtain ⟨rules, issues⟩ := found
      cases issues <;> exact .pure rfl

/-- Entries that are moved describe the configuration that they described, with its data moved. -/
theorem configOfEntries_moves (es : Entries) : Moves ρ (Except.map (BuildConfig.moved ρ)) (configOfEntries es)
    (configOfEntries (es.moved ρ)) := by
  refine store_bind_moves fun s s' hs => ?_
  rw [splitKeys_moved hs, keyIssues_moved hs]
  obtain ⟨fields, badKeys⟩ := splitKeys s es
  dsimp only [Prod.map_apply, id]
  simp only [fieldOf?_moved, Checked.textOr_moved, Checked.textOrNone_moved]
  refine (excludeOf_moves _).bindPlain fun exclude => (dataOf_moves _).bind fun data => ?_
  refine (renameOf_moves _).bindPlain fun rename => ?_
  generalize Checked.textOr "source_dir" _ _ = source
  generalize Checked.textOr "output_dir" _ _ = output
  generalize Checked.textOrNone _ _ = extension
  generalize keyIssues _ _ _ = keys
  cases data with
  | error issues => cases source <;> cases output <;> cases extension <;> cases exclude <;> exact .pure rfl
  | ok data =>
    cases source <;> cases output <;> cases extension <;> cases exclude <;> cases rename <;> cases keys <;>
      exact .pure rfl

end Run

end NestedSite
