import NestedSite.Proofs.Relocation.Growth
import NestedSite.Proofs.Site.Page
import NestedSite.Proofs.Site.Registry
import NestedSite.Proofs.Yaml.Making
import NestedSite.Site.Layer

/-!
# Sources that are no documents

Sources of metadata and layers of configurations go the same way from a text to a mapping. The readers tell of a
document that is malformed, of a root that is no mapping and of fields that are not valid; each other fault of the
document comes through to the caller. `Engine.registerMetadata_fails` and `Run.loadLayer_fails` say exactly which
faults there are, those the readers are documented to have (`Engine.Documented`) and those that escape
(`Engine.Undocumented`, `Disk.Undocumented`). `Engine.document_faults` is both at once: no text that is malformed
escapes, and each fault of `Yaml.Escaping` has a text that meets it.

Once there is a mapping, only `ignore` can fail otherwise, with a pattern that is too large (`Run.metadataOf?_cases`):
the fields of a document are data, and what is made of data always succeeds (`Run.Succeeds`).
-/

namespace NestedSite

namespace Run

/-- Started in `w`, the computation has no other faults than the documented ones and those that escape, and it has each
that escapes. -/
structure FailsAs {α : Type} (m : Run α) (w : World) (documented escaping : Fault → Prop) : Prop where
  faults : ∀ f, m.outcome w = .error f → documented f ∨ escaping f
  escapes : ∀ f, escaping f → m.outcome w = .error f

/-! ## Computations that never fail -/

/-- Wherever it is started, the computation succeeds. -/
def Succeeds {α : Type} (m : Run α) : Prop := ∀ w, ∃ a w', m.run.run w = (.ok a, w')

namespace Succeeds

variable {α β : Type} {m : Run α} {f : α → Run β}

theorem pure (a : α) : Succeeds (Pure.pure a) := fun w => ⟨a, w, rfl⟩

theorem bind (h : m.Succeeds) (k : ∀ a, (f a).Succeeds) : (m >>= f).Succeeds := fun w => by
  obtain ⟨a, w', hm⟩ := h w
  rw [run_bind, hm]
  exact k a w'

theorem outcome (h : m.Succeeds) (w : World) : ∃ a, m.outcome w = .ok a := by
  obtain ⟨a, w', hm⟩ := h w
  exact ⟨a, congrArg Prod.fst hm⟩

end Succeeds

theorem legendOf?_succeeds (v : Value) : (legendOf? v).Succeeds := by
  unfold legendOf?
  split
  · exact .pure _
  · refine Succeeds.bind (fun w => ⟨_, w, rfl⟩) fun s => Succeeds.bind (fun w => ⟨_, w, rfl⟩) fun es => ?_
    split
    · exact .bind (fun w => ⟨_, _, rfl⟩) fun _ => .pure _
    · exact .pure _
  · exact .pure _

theorem legendsOf_succeeds (place : List String) : ∀ (n : Nat) (vs : List Value), (legendsOf place n vs).Succeeds
  | _, [] => .pure _
  | n, v :: vs => by
    unfold legendsOf
    refine (legendOf?_succeeds v).bind fun first => (legendsOf_succeeds place (n + 1) vs).bind fun rest => ?_
    cases first with
    | ok l => exact .pure _
    | error own => exact .pure _

theorem sequenceOf?_succeeds {v : Value} (h : v.IsDatum) : (sequenceOf? v).Succeeds := by
  cases h
  case list p => exact fun w => ⟨_, w, rfl⟩
  case set p => exact fun w => ⟨_, w, rfl⟩
  all_goals exact .pure _

theorem filesOf_succeeds {field : Option Value} (h : ∀ v ∈ field, v.IsDatum) : (filesOf field).Succeeds := by
  cases field with
  | none => exact .pure _
  | some v =>
    refine (sequenceOf?_succeeds (h v rfl)).bind fun found => ?_
    cases found with
    | none => exact .pure _
    | some vs =>
      refine (legendsOf_succeeds _ 0 vs).bind fun (legends, issues) => ?_
      split <;> exact .pure _

/-! ## Metadata -/

/-- A field is a pattern that is too large. -/
def IsTooLarge (field : Option Value) : Prop :=
  ∃ t, Checked.textOrNone ["ignore"] field = .ok (some t) ∧ Pattern.parse t = .error .tooLarge

theorem ignoreOf_cases (field : Option Value) (w : World) :
    IsTooLarge field ∧ (ignoreOf field).run.run w = (.error .overflow, w) ∨
      ¬IsTooLarge field ∧ ∃ found, (ignoreOf field).run.run w = (.ok found, w) := by
  unfold ignoreOf IsTooLarge
  cases htext : Checked.textOrNone ["ignore"] field with
  | error issues => exact .inr ⟨nofun, _, rfl⟩
  | ok found =>
    cases found with
    | none => exact .inr ⟨nofun, _, rfl⟩
    | some t =>
      have hnot (hparse : Pattern.parse t ≠ .error .tooLarge) :
          ¬∃ u, (.ok (some t) : Checked (Option String)) = .ok (some u) ∧ Pattern.parse u = .error .tooLarge := by
        rintro ⟨_, ⟨⟩, hlarge⟩
        exact hparse hlarge
      cases hempty : t.isEmpty with
      | true =>
        refine .inr ⟨hnot fun hlarge => ?_, .ok (some t), by simp only [hempty, if_true]; rfl⟩
        have hparse : (Pattern.parse "").isOk = true := by decide +kernel
        rw [String.isEmpty_iff.1 hempty] at hlarge
        rw [hlarge] at hparse
        cases hparse
      | false =>
        simp only [hempty, Bool.false_eq_true, if_false, Checked.patternText]
        cases hparse : Pattern.parse t with
        | ok p => exact .inr ⟨hnot (by simp [hparse]), _, rfl⟩
        | error f =>
          cases f with
          | malformed => exact .inr ⟨hnot (by simp [hparse]), _, rfl⟩
          | tooLarge => exact .inl ⟨⟨t, rfl, hparse⟩, rfl⟩

/-- What a mapping has under `ignore`. -/
def ignoreField (s : Store) (p : Nat) : Option Value := fieldOf? (splitKeys s (s.dict p)).1 "ignore"

/-- Metadata that is made of a mapping with data fails only for a pattern that is too large. -/
theorem metadataOf?_cases {w : World} (h : w.store.HoldsData) (p : Nat) :
    IsTooLarge (ignoreField w.store p) ∧ (metadataOf? (.dict p)).outcome w = .error .overflow ∨
      ¬IsTooLarge (ignoreField w.store p) ∧ ∃ found, (metadataOf? (.dict p)).outcome w = .ok found := by
  have hfields {name : String} : ∀ v ∈ fieldOf? (splitKeys w.store (w.store.dict p)).1 name, v.IsDatum := by
    intro v hv
    obtain ⟨f, hf, rfl⟩ := Option.map_eq_some_iff.1 hv
    exact ((h.dicts p).data _ (mem_splitKeys (List.mem_of_find?_eq_some hf))).2.1
  unfold metadataOf? outcome
  rw [run_bind, store_run]
  dsimp only
  rw [run_bind, dict_run]
  dsimp only
  rw [run_bind]
  rcases ignoreOf_cases (ignoreField w.store p) w with ⟨hlarge, hignore⟩ | ⟨hlarge, ignore, hignore⟩
  · rw [show (ignoreOf (fieldOf? (splitKeys w.store (w.store.dict p)).1 "ignore")).run.run w = _ from hignore]
    exact .inl ⟨hlarge, rfl⟩
  · rw [show (ignoreOf (fieldOf? (splitKeys w.store (w.store.dict p)).1 "ignore")).run.run w = _ from hignore]
    refine .inr ⟨hlarge, Succeeds.outcome ?_ w⟩
    refine (filesOf_succeeds hfields).bind fun files => ?_
    split
    · refine .bind (fun w => ⟨_, _, rfl⟩) fun place => ?_
      split
      · exact .bind (fun w => ⟨_, _, rfl⟩) fun _ => .pure _
      · exact .pure _
    · exact .pure _

end Run

/-- What readers make of the fault of a document: one that is malformed has a fault of their own. -/
def retold (malformed : Fault) : Fault → Fault
  | .malformedYaml => malformed
  | f => f

theorem retold_of_escaping {malformed f : Fault} (h : Yaml.Escaping f) : retold malformed f = f := by
  cases h <;> rfl

/-! ## Reading metadata -/

namespace Engine

variable {e : Engine} {directory text : String}

/-- A text is a mapping whose `ignore` is a pattern that is too large. -/
def IgnoresTooMuch (text : String) : Prop :=
  ∃ p, (Yaml.load text).outcome {} = .ok (.dict p) ∧
    Run.IsTooLarge (Run.ignoreField ((Yaml.load text).after {}).store p)

/-- The metadata of a directory from a mapping. -/
def metadataFrom (directory : String) (fields : Value) : Run Nat := do
  match ← Run.metadataOf? fields with
  | .ok (.metadata p) => return p
  | .ok _ => throw (.metadata .notMapping directory)
  | .error issues => throw (.metadata (.invalid issues.length) directory)

/-- The metadata of a directory from the value of a document. -/
def metadataOfRoot (directory : String) : Value → Run Nat
  | .none => do metadataFrom directory (← Run.newDict [])
  | .dict p => metadataFrom directory (.dict p)
  | _ => throw (.metadata .notMapping directory)

theorem readMetadata_run (directory text : String) (w : World) :
    (readMetadata directory text).run.run w = match (Yaml.load text).run.run w with
      | (.ok v, w') => (metadataOfRoot directory v).run.run w'
      | (.error f, w') => (.error (retold (.metadata .malformed directory) f), w') := by
  unfold readMetadata
  rw [Run.run_bind, Run.run_tryCatch]
  rcases (Yaml.load text).run.run w with ⟨f | v, w'⟩
  · cases f <;> rfl
  · cases v <;> rfl

theorem metadataFrom_cases {w : World} (h : w.store.HoldsData) (directory : String) (p : Nat) :
    Run.IsTooLarge (Run.ignoreField w.store p) ∧ (metadataFrom directory (.dict p)).outcome w = .error .overflow ∨
      ¬Run.IsTooLarge (Run.ignoreField w.store p) ∧
        ∀ f, (metadataFrom directory (.dict p)).outcome w = .error f → ∃ g, f = .metadata g directory := by
  unfold metadataFrom Run.outcome
  rw [Run.run_bind]
  rcases hrun : (Run.metadataOf? (.dict p)).run.run w with ⟨r, w'⟩
  rcases Run.metadataOf?_cases h p with ⟨hlarge, hfault⟩ | ⟨hlarge, found, hfound⟩
  · obtain rfl : r = .error .overflow := (congrArg Prod.fst hrun).symm.trans hfault
    exact .inl ⟨hlarge, rfl⟩
  · obtain rfl : r = .ok found := (congrArg Prod.fst hrun).symm.trans hfound
    refine .inr ⟨hlarge, fun f hf => ?_⟩
    cases found with
    | error issues => cases hf; exact ⟨_, rfl⟩
    | ok v => cases v <;> cases hf <;> exact ⟨_, rfl⟩

theorem readMetadata_faults (directory text : String) :
    (∃ f, (Yaml.load text).outcome {} = .error f ∧
        (readMetadata directory text).outcome {} = .error (retold (.metadata .malformed directory) f)) ∨
      IgnoresTooMuch text ∧ (readMetadata directory text).outcome {} = .error .overflow ∨
      (∃ v, (Yaml.load text).outcome {} = .ok v) ∧ ¬IgnoresTooMuch text ∧
        ∀ f, (readMetadata directory text).outcome {} = .error f → ∃ g, f = .metadata g directory := by
  have hload := Yaml.load_ends text (w := {}) Store.empty_holdsData
  unfold IgnoresTooMuch Run.outcome Run.after at *
  rw [readMetadata_run]
  rcases hrun : (Yaml.load text).run.run {} with ⟨f | v, w⟩
  · exact .inl ⟨f, rfl, rfl⟩
  · refine .inr ?_
    rw [hrun] at hload
    cases hload with
    | ok hload =>
      obtain ⟨-, ⟨hdatum, -⟩, hdata⟩ := hload
      cases v
      case dict p =>
        refine (metadataFrom_cases hdata directory p).imp (And.imp_left fun h => ⟨p, rfl, h⟩) ?_
        refine fun h => ⟨⟨_, rfl⟩, ?_, h.2⟩
        rintro ⟨_, ⟨⟩, hlarge⟩
        exact h.1 hlarge
      case none =>
        rcases metadataFrom_cases (w := { w with store := { w.store with dicts := w.store.dicts.push [] } })
          hdata.pushDict directory w.store.dicts.size with ⟨hlarge, -⟩ | h
        · obtain ⟨t, ht, -⟩ := hlarge
          rw [Run.ignoreField, Store.dict_push, if_pos rfl] at ht
          cases ht
        · exact .inr ⟨⟨_, rfl⟩, nofun, h.2⟩
      all_goals exact .inr ⟨⟨_, rfl⟩, nofun, fun f hf => by cases hf; exact ⟨_, rfl⟩⟩

/-- The faults that registering metadata of a directory is documented to have. -/
inductive Documented (e : Engine) (directory : String) : Fault → Prop
  | metadata (f : MetadataFault) : Documented e directory (.metadata f directory)
  | duplicate (h : (e.directories.find? directory).isSome) : Documented e directory (.duplicateMetadata directory)

/-- The other faults of metadata: those of a document that is not malformed, and that of a pattern. -/
inductive Undocumented (text : String) : Fault → Prop
  | document {f : Fault} (h : (Yaml.load text).outcome {} = .error f) (hf : Yaml.Escaping f) : Undocumented text f
  | pattern (h : IgnoresTooMuch text) : Undocumented text .overflow

theorem readMetadata_fails (directory text : String) (w : World) :
    (readMetadata directory text).FailsAs w (fun f => ∃ g, f = .metadata g directory) (Undocumented text) := by
  have houtcome {f : Fault} : (readMetadata directory text).outcome w = .error f ↔
      (readMetadata directory text).outcome {} = .error f := (readMetadata_moves directory text).outcome_eq_error_iff
  rcases readMetadata_faults directory text with ⟨g, hload, hg⟩ | ⟨hlarge, hg⟩ | ⟨⟨v, hload⟩, hsmall, hdocumented⟩
  · refine ⟨fun f hf => ?_, fun f hf => houtcome.2 ?_⟩
    · obtain rfl := Except.error.inj (hg.symm.trans (houtcome.1 hf))
      obtain rfl | hescaping := Yaml.known_iff.2 ⟨text, hload⟩
      · exact .inl ⟨_, rfl⟩
      · rw [retold_of_escaping hescaping]
        exact .inr (.document hload hescaping)
    · cases hf with
      | document h hescaping =>
        obtain rfl := Except.error.inj (h.symm.trans hload)
        rw [hg, retold_of_escaping hescaping]
      | pattern h =>
        obtain ⟨p, hok, -⟩ := h
        cases hload.symm.trans hok
  · refine ⟨fun f hf => ?_, fun f hf => houtcome.2 ?_⟩
    · obtain rfl := Except.error.inj (hg.symm.trans (houtcome.1 hf))
      exact .inr (.pattern hlarge)
    · cases hf with
      | document h _ =>
        obtain ⟨p, hok, -⟩ := hlarge
        cases h.symm.trans hok
      | pattern _ => exact hg
  · refine ⟨fun f hf => .inl (hdocumented f (houtcome.1 hf)), fun f hf => ?_⟩
    cases hf with
    | document h _ => cases hload.symm.trans h
    | pattern h => exact absurd h hsmall

theorem registerMetadata_outcome (e : Engine) (directory text : String) (w : World) :
    (e.registerMetadata directory text).outcome w = match (readMetadata directory text).outcome w with
      | .ok p => if (e.directories.find? directory).isSome then .error (.duplicateMetadata directory)
        else .ok (e.addDirectory directory p)
      | .error f => .error f := by
  unfold registerMetadata Run.outcome
  rw [Run.run_bind]
  rcases (readMetadata directory text).run.run w with ⟨f | p, w'⟩
  · rfl
  · dsimp only
    split <;> rfl

theorem registerMetadata_malformed (e : Engine) (directory : String)
    (h : (Yaml.load text).outcome {} = .error .malformedYaml) (w : World) :
    (e.registerMetadata directory text).outcome w = .error (.metadata .malformed directory) := by
  have hread : (readMetadata directory text).outcome w = .error (.metadata .malformed directory) := by
    unfold Run.outcome at *
    rw [readMetadata_run]
    rcases hrun : (Yaml.load text).run.run w with ⟨r, w'⟩
    obtain rfl : r = .error .malformedYaml :=
      (congrArg Prod.fst hrun).symm.trans ((Yaml.load_moves text).outcome_eq_error_iff.2 h)
    rfl
  rw [registerMetadata_outcome, hread]

theorem registerMetadata_fails (e : Engine) (directory text : String) (w : World) :
    (e.registerMetadata directory text).FailsAs w (e.Documented directory) (Undocumented text) := by
  have hread := readMetadata_fails directory text w
  refine ⟨fun f hf => ?_, fun f hf => by rw [registerMetadata_outcome, hread.escapes f hf]⟩
  rw [registerMetadata_outcome] at hf
  cases houtcome : (readMetadata directory text).outcome w with
  | error g =>
    rw [houtcome] at hf
    cases hf
    refine (hread.faults f houtcome).imp_left ?_
    rintro ⟨g, rfl⟩
    exact .metadata g
  | ok p =>
    rw [houtcome] at hf
    dsimp only at hf
    split at hf
    · cases hf
      exact .inl (.duplicate ‹_›)
    · cases hf

end Engine

/-! ## Layers -/

/-- The faults of a file that are no faults of a configuration: its bytes write no text, or the document is not
malformed. -/
inductive Disk.Undocumented (d : Disk) (p : Place) : Fault → Prop
  | coding {content : List UInt8} (hread : d.read p = .ok content) (h : textOf content = .error .undecodable) :
    Undocumented d p .undecodable
  | document {content : List UInt8} {text : String} {f : Fault} (hread : d.read p = .ok content)
    (htext : textOf content = .ok text) (h : (Yaml.load text).outcome {} = .error f) (hf : Yaml.Escaping f) :
    Undocumented d p f

theorem Disk.textOf_fault {content : List UInt8} {f : Fault} (h : textOf content = .error f) : f = .undecodable := by
  unfold textOf at h
  split at h
  · cases h
  · cases h
    rfl

namespace Run

theorem loadLayer_outcome (d : Disk) (p : Place) (isOptional : Bool) (w : World) :
    (loadLayer d p isOptional).outcome w = match d.read p with
      | .error .notFound => if isOptional then .ok [] else .error (.config .missing (some p.path))
      | .error _ => .error (.config .unreadable (some p.path))
      | .ok content => match Disk.textOf content with
        | .error f => .error f
        | .ok text => match (Yaml.load text).outcome w with
          | .error f => .error (retold (.config .malformed (some p.path)) f)
          | .ok .none => .ok []
          | .ok (.dict q) => .ok (((Yaml.load text).after w).store.dict q)
          | .ok _ => .error (.config .notMapping (some p.path)) := by
  unfold loadLayer
  cases d.read p with
  | error f => cases f <;> cases isOptional <;> rfl
  | ok content =>
    dsimp only
    cases Disk.textOf content with
    | error f => rfl
    | ok text =>
      unfold outcome after
      rw [run_bind, show (read fun _ => (.ok text : Except Fault String)).run.run w = (.ok text, w) from rfl]
      dsimp only
      rw [run_bind, run_tryCatch]
      rcases (Yaml.load text).run.run w with ⟨f | v, w'⟩
      · cases f <;> rfl
      · cases v <;> rfl

theorem loadLayer_fails (d : Disk) (p : Place) (isOptional : Bool) (w : World) :
    (loadLayer d p isOptional).FailsAs w (fun f => ∃ c, f = .config c (some p.path)) (d.Undocumented p) := by
  have hload {text : String} {f : Fault} :
      (Yaml.load text).outcome w = .error f ↔ (Yaml.load text).outcome {} = .error f :=
    (Yaml.load_moves text).outcome_eq_error_iff
  refine ⟨fun f hf => ?_, fun f hf => ?_⟩
  · rw [loadLayer_outcome] at hf
    cases hread : d.read p with
    | error g =>
      rw [hread] at hf
      cases g <;> cases isOptional <;> cases hf <;> exact .inl ⟨_, rfl⟩
    | ok content =>
      rw [hread] at hf
      dsimp only at hf
      cases htext : Disk.textOf content with
      | error g =>
        rw [htext] at hf
        cases hf
        obtain rfl := Disk.textOf_fault htext
        exact .inr (.coding hread htext)
      | ok text =>
        rw [htext] at hf
        dsimp only at hf
        cases houtcome : (Yaml.load text).outcome w with
        | error g =>
          rw [houtcome] at hf
          cases hf
          obtain rfl | hescaping := Yaml.known_iff.2 ⟨text, hload.1 houtcome⟩
          · exact .inl ⟨_, rfl⟩
          · rw [retold_of_escaping hescaping]
            exact .inr (.document hread htext (hload.1 houtcome) hescaping)
        | ok v =>
          rw [houtcome] at hf
          cases v <;> cases hf <;> exact .inl ⟨_, rfl⟩
  · rw [loadLayer_outcome]
    cases hf with
    | coding hread h => rw [hread]; dsimp only; rw [h]
    | document hread htext h hescaping =>
      rw [hread]
      dsimp only
      rw [htext]
      dsimp only
      rw [hload.2 h]
      dsimp only
      rw [retold_of_escaping hescaping]

end Run

/-! ## Both readers -/

namespace Engine

/-- Of a text that is no document, metadata and layers of configurations are refused as documented. Each fault of a
document that is not malformed comes through to the caller instead, and there is a text for each. -/
theorem document_faults {e : Engine} {path : String} (h : path ≠ "")
    (hext : metadataExtensions.contains (Path.extension (Path.relativeTo e.workDir e.root path)) = true) (w : World)
    (d : Disk) (p : Place) (isOptional : Bool) :
    (∀ text : String,
      (e.register (.text text) (.text path)).FailsAs w
          (e.Documented (Path.parent (Path.relativeTo e.workDir e.root path))) (Undocumented text) ∧
        ((Yaml.load text).outcome {} = .error .malformedYaml → (e.register (.text text) (.text path)).outcome w =
          .error (.metadata .malformed (Path.parent (Path.relativeTo e.workDir e.root path))))) ∧
      (Run.loadLayer d p isOptional).FailsAs w (fun f => ∃ c, f = .config c (some p.path)) (d.Undocumented p) ∧
      (∀ content text, d.read p = .ok content → Disk.textOf content = .ok text →
        (Yaml.load text).outcome {} = .error .malformedYaml →
          (Run.loadLayer d p isOptional).outcome w = .error (.config .malformed (some p.path))) ∧
      ∀ f, Yaml.Escaping f → ∃ text, (Yaml.load text).outcome {} = .error f := by
  refine ⟨fun text => ?_, Run.loadLayer_fails d p isOptional w, fun content text hread htext hload => ?_,
    fun f hf => Yaml.known_iff.1 (.inr hf)⟩
  · rw [register_text text h, if_pos hext]
    exact ⟨registerMetadata_fails e _ text w, fun hload => registerMetadata_malformed e _ hload w⟩
  · rw [Run.loadLayer_outcome, hread]
    dsimp only
    rw [htext]
    dsimp only
    rw [(Yaml.load_moves text).outcome_eq_error_iff.2 hload]
    rfl

/-- What is tagged as a number and is none is a bad value to the caller of `register`, and no fault of metadata. -/
theorem document_faults_number :
    (bare.register (.text "!!int x") (.text "docs/meta.yaml")).outcome {} = .error .badValue :=
  have hfault : (Yaml.load "!!int x").outcome {} = .error .badValue := Yaml.fault?_eq_some.1 (by decide +kernel)
  ((document_faults (by decide) (by decide +kernel) {} {} [] true).1 _).1.escapes _ (.document hfault .badValue)

end Engine

end NestedSite
