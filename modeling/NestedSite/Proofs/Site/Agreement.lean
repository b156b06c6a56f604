import NestedSite.Proofs.Site.Layering
import NestedSite.Proofs.Site.Loaded
import NestedSite.Proofs.Site.Merging
import NestedSite.Proofs.Site.OutputPath
import NestedSite.Proofs.Site.Pass

/-!
# Loading in another order

A site can be loaded before its data, or its data before the site. Either way a store grows by two blocks, of which
neither knows of the other one, and the orders differ in which block is below. Swapping the blocks takes what is loaded
in one order to what is loaded in the other, and rendering does not see where values are stored: so the documents have
the same paths (`Builder.building_of_listing`). The same holds of two commands that say alike where the sources and the
data are (`Command.paths_alike`), for the configurations that they come to differ in where the output goes alone
(`Command.configured_alike`).
-/

namespace NestedSite

variable {α β : Type} {w w' : World}

namespace Run

/-- What each step keeps holds at the end. -/
theorem Ensures.foldlM {f : β → α → Run β} {Q : β → Prop} (h : ∀ b x w, Q b → (f b x).Ensures w fun b _ => Q b)
    (xs : List α) {b : β} (hb : Q b) : (xs.foldlM f b).Ensures w fun b _ => Q b := by
  induction xs generalizing b w with
  | nil => exact .pure hb
  | cons x xs ih =>
    rw [List.foldlM_cons]
    exact (h b x w hb).bind fun _ _ hc => ih hc

end Run

/-- Where the second of two computations that go together succeeds, the first one does. -/
theorem Moves.exists_of_ok {ρ : Relocation} {f : α → β} {m : Run α} {m' : Run β} (h : Moves ρ f m m') {u u' : World}
    (hfits : ρ.Fits u.store w.store) {b : β} (hrun : m'.run.run w = (.ok b, u')) :
    ∃ a, m.run.run u = (.ok a, m.after u) ∧ b = f a := by
  have houtcome := (h u w hfits).1
  rw [show m'.outcome w = .ok b from congrArg Prod.fst hrun] at houtcome
  cases ha : m.outcome u with
  | error e =>
    rw [ha] at houtcome
    cases houtcome
  | ok a =>
    rw [ha] at houtcome
    cases houtcome
    exact ⟨a, Prod.ext ha rfl, rfl⟩

/-! ## The documents of a pass -/

namespace Engine

theorem Pass.nodup_with {pass : Pass} (h : pass.documents.paths.Nodup) (path : String) (docs : Documents) :
    (pass.with path docs).documents.paths.Nodup := by
  unfold Pass.with
  induction docs generalizing pass with
  | nil => exact h
  | cons doc docs ih => exact ih (Documents.nodup_put h doc.1 doc.2)

theorem passOver_nodup (e : Engine) (data : Value) (pass : Pass) (path : String) (w : World)
    (h : pass.documents.paths.Nodup) :
    (e.passOver data pass path).Ensures w fun pass _ => pass.documents.paths.Nodup := by
  refine (Run.Ensures.anything _ _).bind fun ignored u _ => ?_
  split
  · exact (Run.Ensures.anything _ _).bind fun _ _ _ => (Run.Ensures.anything _ _).bind fun _ _ _ => .pure h
  · refine (Run.Ensures.anything _ _).bind fun docs v _ => ?_
    exact .step (addAll_run e.observers path docs pass v) (Pass.nodup_with h path docs)

/-- A pass has one document for each path. -/
theorem renderAll_nodup (e : Engine) (data : Value) :
    (e.renderAll data).Ensures w fun docs _ => docs.paths.Nodup := by
  have hpass := Run.Ensures.foldlM (w := w) (passOver_nodup e data) e.paths (b := {}) List.nodup_nil
  exact (hpass.bind fun pass _ h => .pure h).tryCatch fun _ _ => .throw

end Engine

/-! ## The order of loading -/

namespace Builder

/-- The documents that are listed: the engine is loaded before the data. -/
def listing (b : Builder) (d : Disk) (root : Place) (file : Option String) : Run Documents := do
  let e ← b.loadEngine d root
  b.documents e (← Command.dataFrom file b.project d)

/-- The documents that are built: the data are loaded before the engine. -/
def building (b : Builder) (d : Disk) (root : Place) (file : Option String) : Run Documents := do
  let data ← Command.dataFrom file b.project d
  b.documents (← b.loadEngine d root) data

theorem building_nodup (b : Builder) (d : Disk) (root : Place) (file : Option String) (w : World) :
    (b.building d root file).Ensures w fun docs _ => docs.paths.Nodup :=
  (Run.Ensures.anything _ _).bind fun _ _ _ => (Run.Ensures.anything _ _).bind fun e _ _ =>
    (Run.Ensures.anything _ _).bind fun data _ _ => e.renderAll_nodup data

/-- The builders are set up alike, but for places of data, and for where the output goes. -/
structure Corresponds (ρ : Relocation) (b b' : Builder) : Prop where
  project : b'.project = b.project
  start : ∀ cwd root, (b.start cwd root).moved ρ = b'.start cwd root
  exclude : b'.config.exclude = b.config.exclude
  data : b'.config.data = movedFields ρ b.config.data

section

variable {ρ : Relocation} {b b' : Builder} (h : Corresponds ρ b b')

include h

theorem Corresponds.loadEngine (d : Disk) (root : Place) :
    Moves ρ (Engine.moved ρ) (b.loadEngine d root) (b'.loadEngine d root) :=
  loadEngine_moves d root (h.project ▸ h.start _ _) h.exclude

theorem Corresponds.listing (d : Disk) (root : Place) (file : Option String) :
    Moves ρ (movedFields ρ) (b.listing d root file) (b'.listing d root file) := by
  refine (h.loadEngine d root).bind fun e => ?_
  rw [h.project]
  exact (Command.dataFrom_moves file b.project d).bind fun v => documents_moves h.data e v

theorem Corresponds.building (d : Disk) (root : Place) (file : Option String) :
    Moves ρ (movedFields ρ) (b.building d root file) (b'.building d root file) := by
  unfold Builder.building
  rw [h.project]
  exact (Command.dataFrom_moves file b.project d).bind fun v => (h.loadEngine d root).bind fun e =>
    documents_moves h.data e v

end

theorem paths_movedFields (ρ : Relocation) (docs : Documents) : Documents.paths (movedFields ρ docs) = docs.paths := by
  simp [movedFields, Documents.paths, Function.comp_def]

/-- Without imports, a builder starts with an engine that holds no places. -/
theorem start_moved {b : Builder} (himports : b.imports = []) (ρ : Relocation) (cwd root : String) :
    (b.start cwd root).moved ρ = b.start cwd root := by
  unfold start Engine.moved
  rw [himports]
  rfl

/-- Documents have the same paths whether the engine or the data are loaded first. -/
theorem building_of_listing (hw : w.store.WellFormed) {b : Builder} (himports : b.imports = [])
    (hconfig : FieldsIn w.store.inUse b.config.data) (d : Disk) (root : Place) (file : Option String) :
    (b.listing d root file).Ensures w fun docs _ => (b.building d root file).Ensures w fun docs' _ =>
      docs'.paths = docs.paths := by
  intro docs _ hlisting docs' _ hbuilding
  obtain ⟨e₁, w₁, he₁, hlisting⟩ := Run.bind_eq_ok.1 hlisting
  obtain ⟨v₁, w₂, hv₁, hlisting⟩ := Run.bind_eq_ok.1 hlisting
  obtain ⟨v₂, u₁, hv₂, hbuilding⟩ := Run.bind_eq_ok.1 hbuilding
  obtain ⟨e₂, u₂, he₂, hbuilding⟩ := Run.bind_eq_ok.1 hbuilding
  have loaded (ρ : Relocation) : Moves ρ (Engine.moved ρ) (b.loadEngine d root) (b.loadEngine d root) :=
    loadEngine_moves d root (start_moved himports ρ _ _) rfl
  have given (ρ : Relocation) := Command.dataFrom_moves (ρ := ρ) file b.project d
  have hengine := loadEngine_settles (w := {}) Store.empty_wellFormed himports d root
  have hdata := Command.dataFrom_settles (w := {}) Store.empty_wellFormed file b.project d
  obtain ⟨-, hw₁, e, he, rfl, hsettled, hwell, h₁⟩ := (loaded (.behind w.store)).settles hw hengine e₁ w₁ he₁
  obtain ⟨-, -, v, hv, rfl, hin, hwell', h₂⟩ := (given (.behind w₁.store)).settles hw₁ hdata v₁ w₂ hv₁
  obtain ⟨-, hu₁, v', hv', rfl, -, -, k₂⟩ := (given (.behind w.store)).settles hw hdata v₂ u₁ hv₂
  obtain ⟨-, -, e', he', rfl, -, -, k₁⟩ := (loaded (.behind u₁.store)).settles hu₁ hengine e₂ u₂ he₂
  obtain rfl : v = v' := by simpa using hv.symm.trans hv'
  obtain rfl : e = e' := by simpa using he.symm.trans he'
  -- what the blocks hold is found where the other order has it
  have hfits := Store.Stacked.swap_fits h₁ h₂ k₂ k₁ hw hwell hwell'
  generalize hswap : Relocation.swap w.store _ _ = σ at hfits
  have hbase : Relocation.LeadsAs w.store .refl σ .refl := hswap ▸ Relocation.swap_leadsAs w.store _ _
  have hconfig : movedFields σ b.config.data = b.config.data := by simpa using hw.moved_fields hbase hconfig
  have hdocs := @documents_moves σ b b hconfig.symm (e.moved (.behind w.store)) (v.moved (.behind w₁.store)) _ _ hfits
  rw [hsettled.moved (hswap ▸ Store.Stacked.swap_first k₂),
    hwell'.moved_value (hswap ▸ Store.Stacked.swap_second h₁) hin] at hdocs
  have hoks : Except.ok docs' = Except.map (movedFields _) (Except.ok docs : Except Fault Documents) :=
    (congrArg Prod.fst hbuilding).symm.trans (hdocs.1.trans (congrArg (Except.map _) (congrArg Prod.fst hlisting)))
  cases hoks
  exact paths_movedFields _ docs

/-- Builders correspond that differ in where the output goes, if the data of the first one is not moved. -/
theorem corresponds_of_but_output {ρ : Relocation} {b : Builder} (himports : b.imports = [])
    (hdata : movedFields ρ b.config.data = b.config.data) (outputDir : String) :
    Corresponds ρ b { b with config := { b.config with outputDir } } :=
  ⟨rfl, start_moved himports ρ, rfl, hdata.symm⟩

end Builder

/-! ## The configurations of two commands -/

namespace Run

/-- Values that are no mappings are only put in their places. -/
theorem mergeEntries_plain (n : Nat) (base : Entries) {overlay : Entries} (h : ∀ e ∈ overlay, e.2.isMapping = false) :
    mergeEntries (n + 1) base overlay = pure (base.merge overlay) := by
  rw [mergeEntries_foldlM]
  induction overlay generalizing base with
  | nil => rfl
  | cons e rest ih =>
    obtain ⟨he, hrest⟩ := List.forall_mem_cons.1 h
    have hlaid : laid n (base.find? e.1) e.2 = pure e.2 := by
      unfold laid
      split
      · rename_i hv _
        rw [hv] at he
        cases he
      · rfl
    rw [List.foldlM_cons, hlaid, map_pure, pure_bind]
    exact ih (base.insert e.1 e.2) hrest

/-- The configuration comes of the files, with `values` in their places: it is read off the entries of all files, which
stand with the values in a mapping that comes last. -/
def Configured (d : Disk) (project home : Place) (values : Entries) (c : BuildConfig) (w : World) : Prop :=
  ∃ merged w₀, (loadLayers d project home).run.run {} = (.ok merged, w₀) ∧ w₀.store.WellFormed ∧
    w.store = { w₀.store with dicts := w₀.store.dicts.push (merged.merge values) } ∧
    Describes (fun name => (merged.merge values).find? (.text name)) w₀ c ∧ FieldsIn w₀.store.inUse c.data

/-- Behind a mapping of its entries, a configuration is read as it is without the mapping. -/
theorem configFrom_reads (hw : w.store.WellFormed) (hplain : ({} : Store).SameRecords w.store) {es : Entries}
    (hes : w.store.Admits es) {c : BuildConfig} {u w' : World}
    (hu : u.store = { w.store with dicts := w.store.dicts.push es })
    (hrun : (configFrom (.dict w.store.dicts.size)).run.run u = (.ok c, w')) :
    w' = u ∧ Describes (fun name => es.find? (.text name)) w c ∧ FieldsIn w.store.inUse c.data := by
  have hdict : (dict w.store.dicts.size).run.run u = (.ok es, u) := by
    rw [dict_run, hu, Store.dict_push, if_pos rfl]
  obtain ⟨found, v, hfound, hrun⟩ := bind_eq_ok.1 hrun
  obtain ⟨es', v', hes', hfound⟩ := bind_eq_ok.1 hfound
  cases hdict.symm.trans hes'
  cases found with
  | error issues => cases hrun
  | ok found =>
    cases hrun
    -- the store behind the mapping is read as the one without it
    have hpushed : u.store.WellFormed := hu ▸ hw.pushDict hes.within hes.distinct
    have hplain' : ({} : Store).SameRecords u.store := hu ▸ ⟨hplain.cursors, hplain.legends, hplain.metadata⟩
    have hkeeps : w.store.Keeps u.store := hu ▸ .pushDict w.store es
    obtain ⟨rfl, -⟩ := configOfEntries_reads hpushed hplain' (hkeeps.entries hes.within) _ _ hfound
    have hmoves := configOfEntries_moves (ρ := .skip w.store) es
    rw [hw.skip_entries hes.within] at hmoves
    obtain ⟨_ | c', hc', hmoved⟩ := hmoves.exists_of_ok (hu ▸ hw.skip_fits es) hfound
    · cases hmoved
    cases hmoved
    obtain ⟨-, hreads⟩ := configOfEntries_reads hw hplain hes.within _ _ hc'
    obtain ⟨hdescribes, hdata⟩ := hreads c' rfl
    have hmoved : c'.moved (.skip w.store) = c' := by
      unfold BuildConfig.moved
      rw [hw.skip_fields hdata]
    rw [hmoved]
    exact ⟨rfl, hdescribes, hdata⟩

theorem loadConfig_configured (d : Disk) (project home : Place) {overrides : Entries}
    (h : ∀ e ∈ given overrides, e.2.isMapping = false) (hin : ∀ s : Store, (given overrides).In s.inUse) :
    (loadConfig d project home overrides).Ensures {} (Configured d project home (given overrides)) := by
  rw [loadConfig_eq]
  unfold layered
  rw [bind_assoc]
  intro c w hrun
  obtain ⟨merged, w₀, hlayers, hrun⟩ := bind_eq_ok.1 hrun
  obtain ⟨own, user, base, -, -, -, hdecided⟩ :=
    loadLayers_decided d project home (w := {}) Store.empty_wellFormed _ _ hlayers
  have hmerged : mergeEntries depthLimit merged (given overrides) = pure (merged.merge (given overrides)) :=
    mergeEntries_plain 999 merged h
  rw [hmerged, pure_bind] at hrun
  obtain ⟨v, u, hnew, hrun⟩ := bind_eq_ok.1 hrun
  rw [newDict_run] at hnew
  cases hnew
  have hadmits : w₀.store.Admits (merged.merge (given overrides)) :=
    ⟨hdecided.admits.within.merge (hin _), hdecided.admits.distinct.merge _⟩
  have hgoes := hdecided.goesOn
  obtain ⟨rfl, hdescribes, hdata⟩ := configFrom_reads hgoes.wellFormed hgoes.records hadmits rfl hrun
  exact ⟨merged, w₀, hlayers, hgoes.wellFormed, rfl, hdescribes, hdata⟩

end Run

namespace Command

open Run (given Configured)

/-- What a command says about the configuration. -/
def overrides (c : Command) : Entries :=
  [(.text "source_dir", (c.sourceDir.map Value.text).getD .none),
    (.text "output_dir", (c.outputDir.map Value.text).getD .none)]

theorem given_overrides (c : Command) : given c.overrides =
    (c.sourceDir.map fun t => (Value.text "source_dir", Value.text t)).toList ++
      (c.outputDir.map fun t => (Value.text "output_dir", Value.text t)).toList := by
  unfold overrides
  cases c.sourceDir <;> cases c.outputDir <;> rfl

theorem isMapping_given (c : Command) : ∀ e ∈ given c.overrides, e.2.isMapping = false := by
  rw [given_overrides]
  cases c.sourceDir <;> cases c.outputDir <;> simp [Value.isMapping]

theorem given_in (c : Command) (r : Region) : (given c.overrides).In r := by
  rw [given_overrides]
  cases c.sourceDir <;> cases c.outputDir <;> simp [Entries.In]

/-- Commands with the same sources say the same, but for where the output goes. -/
theorem find?_merge_given {b c : Command} (hsource : b.sourceDir = c.sourceDir) (es : Entries) {name : String}
    (hname : name ≠ "output_dir") : (es.merge (given b.overrides)).find? (.text name) =
      (es.merge (given c.overrides)).find? (.text name) := by
  rw [given_overrides, given_overrides, hsource]
  cases c.sourceDir <;> cases b.outputDir <;> cases c.outputDir <;>
    simp [Entries.merge, Entries.find?_insert, hname.symm]

section

variable {l b : Command} {c c' : BuildConfig} {d : Disk} {project home : Place}
  (h : Configured d project home (given l.overrides) c w) (h' : Configured d project home (given b.overrides) c' w')

include h h'

/-- The configurations of two commands with the same sources differ in where the output goes. -/
theorem configured_alike (hsource : b.sourceDir = l.sourceDir) : c' = { c with outputDir := c'.outputDir } := by
  obtain ⟨merged, w₀, hlayers, -, -, hdescribes, -⟩ := h
  obtain ⟨merged', w₀', hlayers', -, -, hdescribes', -⟩ := h'
  cases hlayers.symm.trans hlayers'
  exact hdescribes.but_output hdescribes' fun name hname => find?_merge_given hsource merged hname

/-- The documents of two commands with the same sources and the same data have the same paths. -/
theorem paths_alike (hsource : b.sourceDir = l.sourceDir) {root : Place} {file : Option String} {docs docs' : Documents}
    {u u' : World} (hlisting : (Builder.listing { config := c, project } d root file).run.run w = (.ok docs, u))
    (hbuilding : (Builder.building { config := c', project } d root file).run.run w' = (.ok docs', u')) :
    docs'.paths = docs.paths := by
  rw [configured_alike h h' hsource] at hbuilding
  obtain ⟨merged, w₀, hlayers, hw, hstore, -, hdata⟩ := h
  obtain ⟨merged', w₀', hlayers', -, hstore', -⟩ := h'
  cases hlayers.symm.trans hlayers'
  have corresponds := Builder.corresponds_of_but_output (b := { config := c, project }) rfl (hw.skip_fields hdata)
  obtain ⟨listed, hlisted, rfl⟩ :=
    ((corresponds c.outputDir).listing d root file).exists_of_ok (hstore ▸ hw.skip_fits _) hlisting
  obtain ⟨built, hbuilt, rfl⟩ :=
    ((corresponds c'.outputDir).building d root file).exists_of_ok (hstore' ▸ hw.skip_fits _) hbuilding
  rw [Builder.paths_movedFields, Builder.paths_movedFields]
  exact Builder.building_of_listing hw rfl hdata d root file _ _ hlisted _ _ hbuilt

end

end Command

end NestedSite
