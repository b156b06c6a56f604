import NestedSite.Proofs.Relocation.Beside
import NestedSite.Proofs.Relocation.Copy
import NestedSite.Proofs.Relocation.Registration
import NestedSite.Proofs.Site.Sandbox

/-!
# Templates of a pass

A pass renders one template after the other, with the same data and the same engine. What is written of a page
(`Engine.readings`) depends only on what is reached from both: copies of one original are written alike
(`Engine.readings_alike`). Where the engine was registered is of no account, as the same sources lead to the same
engine up to its places (`Engine.registered_anywhere`). Templates of a pass are therefore rendered as each would be by
itself, with copies of what is reached when the pass gets to it (`Engine.pass_independent`). What is nested in the data
is shared by all of them (`Engine.pass_not_independent`), but the mapping of the data itself is not altered
(`Engine.data_kept`).
-/

namespace NestedSite

variable {ρ : Relocation} {q : Nat} {es : Entries}

namespace Engine

/-! ## Readings -/

/-- Documents as they are written: their paths, with the types and the texts of what they hold. -/
def written (s : Store) (docs : Documents) : List (String × String × Except Fault String) :=
  docs.map fun d => (d.1, d.2.typeName s, s.text d.2)

/-- What is written of the page at a path, or the fault that its rendering ends with. -/
def readings (e : Engine) (path : String) (data : Value) (w : World) :
    Except Fault (List (String × String × Except Fault String)) :=
  ((e.renderTemplate (.text path) data).outcome w).map (written ((e.renderTemplate (.text path) data).after w).store)

theorem written_moved {s s' : Store} (h : ρ.Fits s s') (docs : Documents) :
    written s' (movedFields ρ docs) = written s docs := by
  unfold written movedFields
  rw [List.map_map]
  refine List.map_congr_left fun d _ => ?_
  dsimp only [Function.comp_apply]
  rw [Store.typeName_moved h, Store.text_moved h]

theorem map_written_moved {s s' : Store} (h : ρ.Fits s s') (r : Except Fault Documents) :
    (r.map (movedFields ρ)).map (written s') = r.map (written s) := by
  cases r with
  | error f => rfl
  | ok docs => exact congrArg Except.ok (written_moved h docs)

theorem readings_moved {w w' : World} (h : ρ.Fits w.store w'.store) (e : Engine) (path : String) (data : Value) :
    (e.moved ρ).readings path (data.moved ρ) w' = e.readings path data w := by
  obtain ⟨houtcome, hfits, -⟩ := renderTemplate_moves e (.text path) data w w' h
  unfold readings
  rw [← map_written_moved hfits, ← houtcome]
  rfl

/-- Data that are no mapping are as good as none. -/
theorem readings_of_ne_dict {data : Value} (h : ∀ p, data ≠ .dict p) (e : Engine) (path : String) (w : World) :
    e.readings path data w = e.readings path .none w := by
  have hcopied : copiedContext data = copiedContext .none := by
    rw [copiedContext.eq_2 data h]
    rfl
  unfold readings renderTemplate pageContexts pageContext
  rw [hcopied]

theorem moved_factors {s : Store} {roots : List Value} {σ τ : Relocation} (h : Relocation.Factors s roots σ ρ τ)
    {e : Engine} (hheld : ∀ v ∈ e.held, s.Reaches roots v) : (e.moved σ).moved ρ = e.moved τ := by
  have himports := h.fields fun f hf => hheld _ (List.mem_append_left _ (List.mem_map_of_mem hf))
  have hdirectories : (e.directories.moved σ).moved ρ = e.directories.moved τ := by
    unfold Directories.moved
    rw [List.map_map]
    refine List.map_congr_left fun d hd => congrArg (d.1, ·) (h.metadata d.2 (hheld _ ?_))
    exact List.mem_append_right _ (List.mem_map_of_mem hd)
  unfold moved
  rw [himports, hdirectories]

theorem moved_refl (e : Engine) : e.moved .refl = e := by
  have hdirectories : e.directories.moved .refl = e.directories := List.map_id _
  unfold moved
  rw [movedFields_refl, hdirectories]

theorem held_moved (e : Engine) : (e.moved ρ).held = e.held.map (Value.moved ρ) := by
  simp [held, moved, movedFields, Directories.moved, Function.comp_def, Value.moved]

/-- Where the engine and the data have a copy, a page is written as in the store that holds but what is reached. -/
theorem readings_copied {e : Engine} {data : Value} {s : Store} {roots : List Value} {φ : Relocation} {v : World}
    (h : s.CopiedTo roots φ v.store) (hheld : ∀ u ∈ e.held, s.Reaches roots u)
    (hdata : data = .none ∨ s.Reaches roots data) (path : String) :
    (e.moved φ).readings path (data.moved φ) v =
      (e.moved (s.numbering roots)).readings path (data.moved (s.numbering roots)) { store := s.extract roots } := by
  have hfits : h.spread.Fits ({ store := s.extract roots } : World).store v.store := h.fits
  have hmoved : (data.moved (s.numbering roots)).moved h.spread = data.moved φ := by
    rcases hdata with rfl | hdata
    · rfl
    · exact h.factors.value data hdata
  rw [← readings_moved hfits, moved_factors h.factors hheld, hmoved]

/-- Copies of one original are written alike. -/
theorem readings_alike {e : Engine} {data : Value} {s : Store} {roots : List Value} {φ ψ : Relocation} {v u : World}
    (h : s.CopiedTo roots φ v.store) (k : s.CopiedTo roots ψ u.store) (hheld : ∀ u ∈ e.held, s.Reaches roots u)
    (hdata : data = .none ∨ s.Reaches roots data) (path : String) :
    (e.moved φ).readings path (data.moved φ) v = (e.moved ψ).readings path (data.moved ψ) u :=
  (readings_copied h hheld hdata path).trans (readings_copied k hheld hdata path).symm

/-! ## Passes -/

/-- The worlds that passes over the same data lead to, be they successful or not. -/
inductive Passes (e : Engine) (data : Value) (w : World) : World → Prop where
  | none : Passes e data w w
  | more {u : World} (h : Passes e data w u) : Passes e data w ((e.renderAll data).after u)

/-- A pass that begins in `w` gets to the template at a path, in `w'` and with the documents of `pass`. -/
def GetsTo (e : Engine) (data : Value) (w : World) (path : String) (pass : Pass) (w' : World) : Prop :=
  ∃ before after, e.paths = before ++ path :: after ∧ (before.foldlM (e.passOver data) {}).run.run w = (.ok pass, w')

/-- The pass with the documents of the template at a path. -/
def Pass.with (pass : Pass) (path : String) (docs : Documents) : Pass :=
  docs.foldl (fun pass doc =>
    { documents := pass.documents.put doc.1 doc.2, sources := (doc.1, path) :: pass.sources }) pass

/-- What is noted of a document of the template at a path: a warning, if it takes the place of another one, and its
event. -/
def Pass.notes (pass : Pass) (observers : Observers) (path target : String) : List Note :=
  let event := observers.told { kind := .rendered, template := some path, output := some target }
  match pass.sources.find? fun s => s.1 == target with
  | some (_, other) =>
    .log .warning passSource s!"Output path '{target}' from '{path}' overwrites the one from '{other}'" :: event
  | none => event

theorem add_run (observers : Observers) (pass : Pass) (path : String) (doc : String × Value) (w : World) :
    (pass.add observers path doc).run.run w =
      (.ok (pass.with path [doc]), w.noted (pass.notes observers path doc.1)) := by
  unfold Pass.add Pass.notes
  dsimp only
  cases pass.sources.find? fun s => s.1 == doc.1 with
  | none =>
    dsimp only
    rw [Run.run_bind, Run.emit_run]
    rfl
  | some other =>
    dsimp only
    rw [Run.run_bind, Run.note_run]
    dsimp only
    rw [Run.run_bind, Run.emit_run, World.noted_noted]
    rfl

/-- What is noted of the documents of the template at a path. -/
def Pass.notesAll (observers : Observers) (path : String) : Pass → Documents → List Note
  | _, [] => []
  | pass, doc :: docs => pass.notes observers path doc.1 ++ notesAll observers path (pass.with path [doc]) docs

theorem addAll_run (observers : Observers) (path : String) (docs : Documents) (pass : Pass) (w : World) :
    (docs.foldlM (fun (pass : Pass) doc => pass.add observers path doc) pass).run.run w =
      (.ok (pass.with path docs), w.noted (Pass.notesAll observers path pass docs)) := by
  induction docs generalizing pass w with
  | nil => rw [Pass.notesAll, World.noted_nil]; rfl
  | cons doc docs ih =>
    rw [List.foldlM_cons, Run.run_bind, add_run]
    dsimp only
    rw [ih, World.noted_noted]
    rfl

/-- What is noted of a template that fails. -/
def announcement (e : Engine) (path : String) (f : Fault) : List Note :=
  match f.wording with
  | .ok words => e.observers.told (failure path f words)
  | .error _ => []

theorem announce_run (e : Engine) (path : String) (f : Fault) (w : World) :
    (e.announce path f).run.run w = (.ok (), w.noted (e.announcement path f)) := by
  unfold announce announcement
  cases f.wording with
  | ok words => exact Run.emit_run _ _ w
  | error why => rw [World.noted_nil]; rfl

/-- Whether a template is ignored is only looked up, which does not fail. -/
theorem ignores_run (ds : Directories) (path : String) (w : World) :
    ∃ ignored, (ds.ignores path).run.run w = (.ok ignored, w) := by
  unfold Directories.ignores
  cases ds.metadataAt? path with
  | none => exact ⟨_, rfl⟩
  | some p =>
    have looked (k : Store → Run Bool) (hk : ∃ ignored, (k w.store).run.run w = (.ok ignored, w)) :
        ∃ ignored, (Run.store >>= k).run.run w = (.ok ignored, w) := hk
    refine looked _ ?_
    split
    · exact ⟨_, rfl⟩
    · split
      · exact ⟨_, rfl⟩
      · split <;> exact ⟨_, rfl⟩

theorem ignores_run_of {ds : Directories} {path : String} {w : World} {ignored : Bool}
    (h : (ds.ignores path).outcome w = .ok ignored) : (ds.ignores path).run.run w = (.ok ignored, w) := by
  obtain ⟨found, hrun⟩ := ignores_run ds path w
  unfold Run.outcome at h
  rw [hrun] at h ⊢
  rw [Except.ok.inj h]

theorem passOver_outcome {e : Engine} {data : Value} {pass : Pass} {path : String} {w : World}
    (hnot : (e.directories.ignores path).outcome w = .ok false) :
    (e.passOver data pass path).outcome w = ((e.renderTemplate (.text path) data).outcome w).map (pass.with path) := by
  unfold passOver Run.outcome
  rw [Run.run_bind, ignores_run_of hnot]
  dsimp only
  rw [if_neg Bool.false_ne_true, Run.run_bind, Run.run_tryCatch]
  rcases (e.renderTemplate (.text path) data).run.run w with ⟨f | docs, u⟩
  · dsimp only
    rw [Run.run_bind, announce_run]
    rfl
  · exact congrArg Prod.fst (addAll_run e.observers path docs pass u)

/-! ## The mapping of the data -/

theorem Passes.beside {e : Engine} {w u : World} (h : Passes (e.moved ρ) (.dict q) w u) (hq : ∀ p, ρ.dicts p ≠ q)
    (hw : Beside ρ q es w) : Beside ρ q es u := by
  induction h with
  | none => exact hw
  | more _ ih => exact renderAll_leaves hq e _ ih

theorem GetsTo.beside {e : Engine} {w w' : World} {path : String} {pass : Pass}
    (h : GetsTo (e.moved ρ) (.dict q) w path pass w') (hq : ∀ p, ρ.dicts p ≠ q) (hw : Beside ρ q es w) :
    Beside ρ q es w' := by
  obtain ⟨before, after, -, hrun⟩ := h
  have hleaves : Leaves ρ q es (before.foldlM ((e.moved ρ).passOver (.dict q)) {}) :=
    .foldlM (passOver_leaves hq e) before {}
  have hbeside := hleaves w hw
  unfold Run.after at hbeside
  rwa [hrun] at hbeside

/-- A mapping that is not reached otherwise is not altered by passes over it. -/
theorem data_kept {e : Engine} {w w₁ w' : World} {path : String} {pass : Pass} (hearlier : Passes e (.dict q) w w₁)
    (hreach : GetsTo e (.dict q) w₁ path pass w') {roots : List Value}
    (hroots : roots = (Value.dict q).parts w.store ++ e.held) (hthere : w.store.Unaltered roots w.store)
    (hq : q < w.store.dicts.size) (hnot : ¬w.store.Reaches roots (.dict q)) :
    q < w'.store.dicts.size ∧ w'.store.dict q = w.store.dict q := by
  have hspread : ∀ p, hthere.spread.dicts p ≠ q := by
    refine hthere.spread_ne hq fun p hp heq => hnot ?_
    rwa [show p = q from heq] at hp
  -- the engine and the entries of the mapping are led to by the copy of what is reached
  have hengine : (e.moved (w.store.numbering roots)).moved hthere.spread = e := by
    rw [moved_factors hthere.factors fun v hv => .root (hroots ▸ List.mem_append_right _ hv), moved_refl]
  have hentries : ((w.store.dict q).moved (w.store.numbering roots)).moved hthere.spread = w.store.dict q := by
    have hparts : ∀ f ∈ w.store.dict q, ∀ v ∈ [f.1, f.2], w.store.Reaches roots v :=
      fun f hf v hv => .root (hroots ▸ List.mem_append_left _ (List.mem_flatMap.2 ⟨f, hf, hv⟩))
    rw [hthere.factors.entries fun f hf => ⟨hparts f hf _ (by simp), hparts f hf _ (by simp)⟩, Entries.moved_refl]
  have hbeside : Beside hthere.spread q ((w.store.dict q).moved (w.store.numbering roots)) w :=
    ⟨⟨_, hthere.fits⟩, hentries.symm⟩
  rw [← hengine] at hearlier hreach
  have hafter := hreach.beside hspread (hearlier.beside hspread hbeside)
  exact ⟨hafter.lt hspread, hafter.kept.trans hentries⟩

/-- If what is nested in the data is as it was, so is the mapping of the data. -/
theorem data_unaltered {e : Engine} {w w₁ w' : World} {path : String} {pass : Pass}
    (hearlier : Passes e (.dict q) w w₁) (hreach : GetsTo e (.dict q) w₁ path pass w')
    (hthere : w.store.Unaltered (.dict q :: e.held) w.store)
    (hsame : w.store.Unaltered ((Value.dict q).parts w.store ++ e.held) w'.store) :
    w.store.Unaltered (.dict q :: e.held) w'.store := by
  have hroot : w.store.Reaches (.dict q :: e.held) (.dict q) := .root List.mem_cons_self
  have hparts : ∀ u ∈ (Value.dict q).parts w.store ++ e.held, w.store.Reaches (.dict q :: e.held) u := by
    intro u hu
    rcases List.mem_append.1 hu with hu | hu
    · exact .part hroot hu
    · exact .root (List.mem_cons_of_mem _ hu)
  have hq : q < w.store.dicts.size := (hthere.dicts q hroot).1
  have hkept : q < w'.store.dicts.size ∧ w'.store.dict q = w.store.dict q := by
    by_cases hreached : w.store.Reaches ((Value.dict q).parts w.store ++ e.held) (.dict q)
    · have hcopied := (hsame.dicts q hreached).2
      rwa [Entries.moved_refl] at hcopied
    · exact data_kept hearlier hreach rfl (hthere.mono hparts) hq hreached
  exact hsame.consDict hq hkept.1 (hkept.2.trans (Entries.moved_refl _).symm)

/-- An engine with two templates. -/
def ofTwo (t u : Template) : Engine := { bare with templates := [("a", t), ("b", u)] }

/-- A world with a list that a mapping holds. -/
def withList (items : List Value) : World :=
  { store := { lists := #[items], dicts := #[[(.text "xs", .list 0)]] } }

end Engine

end NestedSite
