import NestedSite.Proofs.Relocation.Command
import NestedSite.Proofs.Relocation.Swapping
import NestedSite.Proofs.Site.Lookup
import NestedSite.Proofs.Site.Page
import NestedSite.Proofs.Store.Entries
import NestedSite.Proofs.Store.Iteration

/-!
# What is loaded into a well-formed store

Reading a configuration leaves the world as it is, and the data of the configuration are found in it
(`Run.configOfEntries_reads`). Metadata adds its legends to a well-formed store, which stays well-formed, and the places
that an engine knows are in use (`Builder.loadEngine_settles`). So do the values that come of a data file
(`Command.dataFrom_settles`). Where legends and metadata have come about already, this follows from what the same
computation does in the empty world (`Moves.settles`).
-/

namespace NestedSite

variable {α β : Type} {w : World}

namespace Run

/-- What follows a computation that leaves the world as it is. -/
theorem Ensures.bind_reads {m : Run α} {f : α → Run β} {Q : β → World → Prop} (h : m.Ensures w fun _ w' => w' = w)
    (k : ∀ a, m.run.run w = (.ok a, w) → (f a).Ensures w Q) : (m >>= f).Ensures w Q := by
  refine Ensures.bind (Q := fun a w' => w' = w ∧ m.run.run w = (.ok a, w)) (fun a w' hrun => ?_)
    fun a w' ⟨hw', hrun⟩ => ?_
  · obtain rfl := h a w' hrun
    exact ⟨rfl, hrun⟩
  · subst hw'
    exact k a hrun

/-! ## Sequences -/

/-- A store without cursors, legends and metadata is only read where a value stands for a list. -/
theorem sequenceOf?_reads (hw : w.store.WellFormed) (hplain : ({} : Store).SameRecords w.store) {v : Value}
    (hv : v.In w.store.inUse) :
    (sequenceOf? v).Ensures w fun found w' => w' = w ∧ ∀ vs ∈ found, ∀ u ∈ vs, u.In w.store.inUse := by
  have reads {vs : List Value} (h : ∀ u ∈ vs, u.In w.store.inUse) :
      ∀ us ∈ some vs, ∀ u ∈ us, u.In w.store.inUse := by
    rintro _ ⟨⟩
    exact h
  cases v
  case list p => exact .step rfl ⟨rfl, reads (hw.lists p hv)⟩
  case tuple vs => exact .step rfl ⟨rfl, reads (Value.in_tuple.1 hv)⟩
  case set p => exact .step rfl ⟨rfl, reads (hw.sets p hv)⟩
  case view kind p => exact .step rfl ⟨rfl, reads ((hw.dicts p hv).1.view kind)⟩
  case range a b c =>
    show (some <$> items (.range a b c)).Ensures w _
    unfold items
    dsimp only
    split
    · exact fun _ _ h => nomatch h
    · split
      · exact fun _ _ h => nomatch h
      · exact .step rfl ⟨rfl, reads (numbers_in _ _ _)⟩
  case cursor p => exact absurd hv (Nat.not_lt.2 (hplain.cursors.le.trans (Nat.zero_le p)))
  case legend p => exact absurd hv (Nat.not_lt.2 (hplain.legends.le.trans (Nat.zero_le p)))
  case metadata p => exact absurd hv (Nat.not_lt.2 (hplain.metadata.le.trans (Nat.zero_le p)))
  all_goals exact .pure ⟨rfl, nofun⟩

/-! ## Configurations -/

theorem recordOf_reads (hw : w.store.WellFormed) (place : List String) {v : Value} (hv : v.In w.store.inUse) :
    (recordOf place v).Ensures w fun found w' =>
      w' = w ∧ ∀ fields, found = .ok fields → FieldsIn w.store.inUse fields := by
  cases v
  case dict p =>
    refine .step_bind rfl (.step_bind rfl ?_)
    dsimp only
    split
    · refine .pure ⟨rfl, ?_⟩
      rintro _ ⟨⟩ f hf
      obtain ⟨⟨k, v⟩, he, hfield⟩ := List.mem_filterMap.1 hf
      cases k <;> cases hfield
      exact ((hw.dicts p hv).1 _ he).2
    · exact .pure ⟨rfl, nofun⟩
  all_goals exact .pure ⟨rfl, nofun⟩

theorem patternOf_reads (field : Option Value) : (patternOf field).Ensures w fun _ w' => w' = w := by
  unfold patternOf
  split
  · exact .pure rfl
  · split
    · exact .pure rfl
    · exact .pure rfl
    · exact .throw

theorem ruleOf_reads (v : Value) : (ruleOf v).Ensures w fun _ w' => w' = w := by
  cases v
  case dict p =>
    refine .step_bind rfl (.step_bind rfl (.bind_reads (patternOf_reads _) fun pattern _ => ?_))
    generalize Checked.requiredText "replacement" _ = replacement
    generalize keyIssues _ _ _ = keys
    cases pattern <;> cases replacement <;> cases keys <;> exact .pure rfl
  all_goals exact .pure rfl

theorem rulesOf_reads (n : Nat) (vs : List Value) : (rulesOf n vs).Ensures w fun _ w' => w' = w := by
  induction vs generalizing n with
  | nil => exact .pure rfl
  | cons v vs ih =>
    refine .bind_reads (ruleOf_reads v) fun first _ => .bind_reads (ih (n + 1)) fun rest _ => ?_
    cases first <;> exact .pure rfl

section Fields

variable (hw : w.store.WellFormed) (hplain : ({} : Store).SameRecords w.store) {field : Option Value}
  (hfield : ∀ v ∈ field, v.In w.store.inUse)

include hw hfield

theorem dataOf_reads : (dataOf field).Ensures w fun found w' =>
    w' = w ∧ ∀ fields, found = .ok fields → FieldsIn w.store.inUse fields := by
  cases field with
  | none =>
    refine .pure ⟨rfl, ?_⟩
    rintro _ ⟨⟩
    exact fun _ h => absurd h List.not_mem_nil
  | some v => exact recordOf_reads hw _ (hfield v rfl)

include hplain

theorem excludeOf_reads : (excludeOf field).Ensures w fun _ w' => w' = w := by
  cases field with
  | none => exact .pure rfl
  | some v =>
    refine .bind_reads ((sequenceOf?_reads hw hplain (hfield v rfl)).mono fun _ _ h => h.1) fun found _ => ?_
    cases found with
    | none => exact .pure rfl
    | some vs =>
      dsimp only
      obtain ⟨ts, issues⟩ := Checked.texts ["exclude"] 0 vs
      cases issues <;> exact .pure rfl

theorem renameOf_reads : (renameOf field).Ensures w fun _ w' => w' = w := by
  cases field with
  | none => exact .pure rfl
  | some v =>
    refine .bind_reads ((sequenceOf?_reads hw hplain (hfield v rfl)).mono fun _ _ h => h.1) fun found _ => ?_
    cases found with
    | none => exact .pure rfl
    | some vs =>
      refine .bind_reads (rulesOf_reads 0 vs) fun found _ => ?_
      obtain ⟨rules, issues⟩ := found
      cases issues <;> exact .pure rfl

end Fields

/-- A configuration is read off its fields, in a world that stays as it is. -/
structure Describes (field : String → Option Value) (w : World) (c : BuildConfig) : Prop where
  source : Checked.textOr "source_dir" ({} : BuildConfig).sourceDir (field "source_dir") = .ok c.sourceDir
  output : Checked.textOr "output_dir" ({} : BuildConfig).outputDir (field "output_dir") = .ok c.outputDir
  extension : (·.bind BuildConfig.dotted) <$> Checked.textOrNone ["output_extension"] (field "output_extension") =
    .ok c.outputExtension
  exclude : (excludeOf (field "exclude")).run.run w = (.ok (.ok c.exclude), w)
  data : (dataOf (field "data")).run.run w = (.ok (.ok c.data), w)
  rename : (renameOf (field "rename")).run.run w = (.ok (.ok c.rename), w)

/-- The other fields of a configuration do not depend on where the output goes. -/
theorem Describes.but_output {field field' : String → Option Value} {c c' : BuildConfig} (h : Describes field w c)
    (h' : Describes field' w c') (hfields : ∀ name, name ≠ "output_dir" → field' name = field name) :
    c' = { c with outputDir := c'.outputDir } := by
  obtain ⟨source, output, extension, exclude, data, rename⟩ := c
  obtain ⟨source', output', extension', exclude', data', rename'⟩ := c'
  have hsource := h'.source
  have hextension := h'.extension
  have hexclude := h'.exclude
  have hdata := h'.data
  have hrename := h'.rename
  rw [hfields _ (by decide)] at hsource hextension hexclude hdata hrename
  cases h.source.symm.trans hsource
  cases h.extension.symm.trans hextension
  cases h.exclude.symm.trans hexclude
  cases h.data.symm.trans hdata
  cases h.rename.symm.trans hrename
  rfl

/-- The fields with text keys are found as they are in the entries. -/
theorem fieldOf?_splitKeys (s : Store) (es : Entries) (name : String) :
    fieldOf? (splitKeys s es).1 name = es.find? (.text name) := by
  induction es with
  | nil => rfl
  | cons e es ih =>
    obtain ⟨k, v⟩ := e
    rw [Entries.find?_cons]
    have hfields (t : String) : (splitKeys s ((.text t, v) :: es)).1 = (t, v) :: (splitKeys s es).1 := rfl
    by_cases hk : k = .text name
    · rw [if_pos (Value.sameKey_text.2 hk), hk, hfields]
      simp [fieldOf?]
    · rw [if_neg (mt Value.sameKey_text.1 hk), ← ih]
      cases k
      case text t =>
        have ht : t ≠ name := mt (congrArg Value.text) hk
        rw [hfields]
        simp [fieldOf?, ht]
      all_goals rfl

theorem configOfEntries_reads (hw : w.store.WellFormed) (hplain : ({} : Store).SameRecords w.store) {es : Entries}
    (hes : es.In w.store.inUse) : (configOfEntries es).Ensures w fun found w' => w' = w ∧ ∀ c, found = .ok c →
      Describes (fun name => es.find? (.text name)) w c ∧ FieldsIn w.store.inUse c.data := by
  refine .step_bind rfl ?_
  dsimp only
  simp only [fieldOf?_splitKeys]
  have hfield (name : String) : ∀ v ∈ es.find? (.text name), v.In w.store.inUse := fun v hv => hes.find? hv
  have hdatum := dataOf_reads hw (hfield "data")
  refine .bind_reads (excludeOf_reads hw hplain (hfield _)) fun exclude hexclude => ?_
  refine .bind_reads (hdatum.mono fun _ _ h => h.1) fun data hdata => ?_
  refine .bind_reads (renameOf_reads hw hplain (hfield _)) fun rename hrename => ?_
  split
  · rename_i source output extension exclude data rename _ _
    refine .pure ⟨rfl, ?_⟩
    rintro _ ⟨⟩
    refine ⟨⟨‹_›, ‹_›, ?_, hexclude, hdata, hrename⟩, (hdatum _ _ hdata).2 _ rfl⟩
    rw [‹Checked.textOrNone _ _ = _›]
    rfl
  · exact .pure ⟨rfl, nofun⟩

/-! ## Metadata -/

/-- A computation that is started in a well-formed store leaves one that keeps what there was; what it gives is then
as `P` says. -/
def Settles (m : Run α) (w : World) (P : Store → α → Prop) : Prop :=
  m.Ensures w fun a w' => w.store.Keeps w'.store ∧ w'.store.WellFormed ∧ P w'.store a

theorem legendOf?_settles (hw : w.store.WellFormed) {v : Value} (hv : v.In w.store.inUse) :
    (legendOf? v).Settles w fun s found => ∀ l, found = .ok l → l.In s.inUse := by
  cases v
  case legend p =>
    refine .pure ⟨.refl _, hw, ?_⟩
    rintro _ ⟨⟩
    exact hv
  case dict p =>
    refine .step_bind rfl (.step_bind rfl ?_)
    split
    · rename_i l hl
      have hin : l.In w.store.inUse := Legend.ofEntries_in (hw.dicts p hv).1 hl
      refine .step_bind rfl (.pure ⟨.pushLegend w.store l, hw.pushLegend hin, ?_⟩)
      rintro _ ⟨⟩
      simp [Store.inUse]
    · exact .pure ⟨.refl _, hw, fun _ h => by cases h⟩
  all_goals exact .pure ⟨.refl _, hw, fun _ h => by cases h⟩

theorem legendsOf_settles (hw : w.store.WellFormed) (place : List String) {vs : List Value}
    (hvs : ∀ v ∈ vs, v.In w.store.inUse) (n : Nat) :
    (legendsOf place n vs).Settles w fun s found => ∀ l ∈ found.1, l.In s.inUse := by
  induction vs generalizing n w with
  | nil => exact .pure ⟨.refl _, hw, fun _ h => absurd h List.not_mem_nil⟩
  | cons v vs ih =>
    obtain ⟨hv, hvs⟩ := List.forall_mem_cons.1 hvs
    refine (legendOf?_settles hw hv).bind fun first u ⟨hkeeps, hu, hfirst⟩ => ?_
    refine (ih hu (fun v h => hkeeps.value (hvs v h)) (n + 1)).bind fun rest w' ⟨hkeeps', hw', hrest⟩ => ?_
    cases first with
    | ok l =>
      exact .pure ⟨hkeeps.trans hkeeps', hw', List.forall_mem_cons.2 ⟨hkeeps'.value (hfirst l rfl), hrest⟩⟩
    | error own => exact .pure ⟨hkeeps.trans hkeeps', hw', hrest⟩

theorem filesOf_settles (hw : w.store.WellFormed) (hplain : ({} : Store).SameRecords w.store) {field : Option Value}
    (hfield : ∀ v ∈ field, v.In w.store.inUse) :
    (filesOf field).Settles w fun s found => ∀ ls, found = .ok ls → ∀ l ∈ ls, l.In s.inUse := by
  cases field with
  | none =>
    refine .pure ⟨.refl _, hw, ?_⟩
    rintro _ ⟨⟩
    exact fun _ h => absurd h List.not_mem_nil
  | some v =>
    refine (sequenceOf?_reads hw hplain (hfield v rfl)).bind fun found u ⟨hu, hfound⟩ => ?_
    subst hu
    cases found with
    | none => exact .pure ⟨.refl _, hw, nofun⟩
    | some vs =>
      refine (legendsOf_settles hw _ (hfound vs rfl) 0).bind fun found w' ⟨hkeeps, hw', hlegends⟩ => ?_
      split
      · refine .pure ⟨hkeeps, hw', ?_⟩
        rintro _ ⟨⟩
        exact hlegends
      · exact .pure ⟨hkeeps, hw', nofun⟩

/-- Metadata of a mapping stands behind what there was. -/
theorem metadataOf?_settles (hw : w.store.WellFormed) (hplain : ({} : Store).SameRecords w.store) {p : Nat}
    (hp : p < w.store.dicts.size) :
    (metadataOf? (.dict p)).Settles w fun s found => ∀ q, found = .ok (.metadata q) → q < s.metadata.size := by
  have hfields := splitKeys_in w.store (hw.dicts p hp).1
  refine .step_bind rfl (.step_bind rfl ?_)
  refine .bind_reads ((ignoreOf_ensures _ w).mono fun _ _ h => h.1) fun ignore _ => ?_
  refine (filesOf_settles hw hplain fun v hv => hfields.find? hv).bind ?_
  rintro files u ⟨hkeeps, hu, hfiles⟩
  split
  · rename_i legends _ _
    have hlist := hu.pushList (hfiles legends rfl)
    refine .step_bind rfl (.step_bind rfl (.pure ⟨?_, hlist.pushMetadata ⟨?_, ?_⟩, ?_⟩))
    · exact hkeeps.trans ((Store.Keeps.pushList _ _).trans (.pushMetadata _ _))
    · simp [Store.inUse]
    · exact fun f hf => (hkeeps.trans (.pushList _ _)).value (hfields f (List.mem_filter.1 hf).1)
    · rintro q ⟨⟩
      simp
  · exact .pure ⟨hkeeps, hu, fun _ h => by cases h⟩

end Run

namespace Engine

theorem metadataFrom_settles (hw : w.store.WellFormed) (hplain : ({} : Store).SameRecords w.store) (directory : String)
    {p : Nat} (hp : p < w.store.dicts.size) :
    (metadataFrom directory (.dict p)).Settles w fun s q => q < s.metadata.size := by
  refine (Run.metadataOf?_settles hw hplain hp).bind ?_
  rintro found w' ⟨hkeeps, hw', hfound⟩
  cases found with
  | error issues => exact .throw
  | ok v =>
    cases v
    case metadata q => exact .pure ⟨hkeeps, hw', hfound q rfl⟩
    all_goals exact .throw

/-- In the empty world, the metadata of a source is all that there is afterwards. -/
theorem readMetadata_settles (directory text : String) :
    (readMetadata directory text).Settles {} fun s p => p < s.metadata.size := by
  have hload := Yaml.load_wellFormed text (w := {}) Store.empty_wellFormed
  intro q u hrun
  rw [readMetadata_run] at hrun
  rcases hrunLoad : (Yaml.load text).run.run {} with ⟨f | v, w⟩
  · rw [hrunLoad] at hrun
    cases hrun
  · rw [hrunLoad] at hrun
    obtain ⟨hw, hkeeps, hplain, hv⟩ := hload v w hrunLoad
    cases v
    case dict p =>
      obtain ⟨h, hsettled⟩ := metadataFrom_settles hw hplain directory hv q u hrun
      exact ⟨hkeeps.trans h, hsettled⟩
    case none =>
      have hpush := hw.pushDict Entries.in_nil Entries.distinct_nil
      have hsettles := metadataFrom_settles (w := { w with store := { w.store with dicts := w.store.dicts.push [] } })
        (p := w.store.dicts.size) hpush ⟨hplain.cursors, hplain.legends, hplain.metadata⟩ directory (by simp)
      obtain ⟨h, hsettled⟩ := hsettles q u hrun
      exact ⟨(hkeeps.trans (.pushDict _ [])).trans h, hsettled⟩
    all_goals cases hrun

end Engine

/-- What a computation does in the empty world, it does behind every other. -/
theorem Moves.settles {f : α → β} {m : Run α} {m' : Run β} (h : Moves (.behind w.store) f m m') (hw : w.store.WellFormed)
    {P : Store → α → Prop} (hm : m.Settles {} P) : m'.Settles w fun s b => ∃ a, m.outcome {} = .ok a ∧ b = f a ∧
      P (m.after {}).store a ∧ (m.after {}).store.WellFormed ∧ w.store.Stacked (m.after {}).store s := by
  intro b w' hrun
  obtain ⟨houtcome, hcarries, hkeeps⟩ := h.beginning
  obtain rfl : m'.after w = w' := congrArg Prod.snd hrun
  have hok : m'.outcome w = .ok b := congrArg Prod.fst hrun
  rw [houtcome] at hok
  cases ha : m.outcome {} with
  | error e =>
    rw [ha] at hok
    cases hok
  | ok a =>
    rw [ha] at hok
    cases hok
    obtain ⟨-, hwell, hP⟩ := hm a (m.after {}) (Prod.ext ha rfl)
    exact ⟨hkeeps, h.wellFormed hw hwell, a, rfl, rfl, hP, hwell, h.stacked⟩

namespace Engine

/-- The engine has no imports, and the metadata that it knows is there. -/
structure Settled (s : Store) (e : Engine) : Prop where
  imports : e.imports = []
  directories : ∀ d ∈ e.directories, d.2 < s.metadata.size

theorem Settled.keeps {s t : Store} {e : Engine} (h : e.Settled s) (hst : s.Keeps t) : e.Settled t :=
  ⟨h.imports, fun d hd => (hst.metadata d.2 (h.directories d hd)).1⟩

/-- Relocations that lead places in use alike move the engine alike. -/
theorem Settled.moved {s : Store} {e : Engine} {ρ σ τ : Relocation} (h : e.Settled s)
    (hleads : Relocation.LeadsAs s σ ρ τ) :
    (e.moved σ).moved ρ = e.moved τ := by
  have hdirectories : (e.directories.moved σ).moved ρ = e.directories.moved τ := by
    unfold Directories.moved
    rw [List.map_map]
    exact List.map_congr_left fun d hd => congrArg (d.1, ·) (hleads.metadata d.2 (h.directories d hd))
  unfold Engine.moved
  rw [hdirectories, h.imports]
  rfl

theorem putTemplate_settled {s : Store} {e : Engine} (h : e.Settled s) (path : String) (t : Template) :
    (e.putTemplate path t).Settled s := by
  unfold putTemplate
  split <;> exact ⟨h.imports, h.directories⟩

theorem registerMetadata_settles (hw : w.store.WellFormed) {e : Engine} (he : e.Settled w.store)
    (directory text : String) :
    (e.registerMetadata directory text).Settles w fun s e => e.Settled s := by
  refine ((readMetadata_moves directory text).settles hw (readMetadata_settles directory text)).bind ?_
  rintro _ w' ⟨hkeeps, hw', p, -, rfl, hp, -, hstacked⟩
  dsimp only
  split
  · exact .throw
  · refine .step_bind (u := { w' with notes := _ }) rfl (.pure ⟨hkeeps, hw', he.imports, ?_⟩)
    refine List.forall_mem_append.2 ⟨(he.keeps hkeeps).directories, List.forall_mem_singleton.2 ?_⟩
    exact (hstacked.fits.carries.metadata p hp).1

theorem registerTemplate_settles (hw : w.store.WellFormed) {e : Engine} (he : e.Settled w.store) (path text : String) :
    (e.registerTemplate path text).Settles w fun s e => e.Settled s := by
  unfold registerTemplate
  cases Template.compile text with
  | error f => exact .throw
  | ok t =>
    exact .step_bind (u := { w with notes := _ }) rfl (.pure ⟨.refl _, hw, putTemplate_settled he path t⟩)

theorem register_settles (hw : w.store.WellFormed) {e : Engine} (he : e.Settled w.store) (text path : String) :
    (e.register (.text text) (.text path)).Settles w fun s e => e.Settled s := by
  by_cases hpath : path = ""
  · subst hpath
    exact fun _ _ hrun => by cases hrun
  · rw [register_text text hpath]
    split
    · exact registerMetadata_settles hw he _ text
    · exact registerTemplate_settles hw he _ text

end Engine

/-! ## Engines and data -/

namespace Run

theorem filterMapM_store {f : α → Run (Option β)} (h : ∀ x w, (f x).Ensures w fun _ w' => w'.store = w.store)
    (xs : List α) : (xs.filterMapM f).Ensures w fun _ w' => w'.store = w.store := by
  induction xs generalizing w with
  | nil => exact .pure rfl
  | cons x xs ih =>
    rw [List.filterMapM_cons]
    refine (h x w).bind fun b u hu => ?_
    have hrest := (ih (w := u)).mono fun _ _ h => h.trans hu
    cases b with
    | none => exact hrest
    | some y => exact hrest.bind fun _ _ h => .pure h

/-- Sources are collected without a trace in the store. -/
theorem collectSources_store (d : Disk) (p : Place) (globs : List String) :
    (collectSources d p globs).Ensures w fun _ w' => w'.store = w.store := by
  unfold collectSources directoryAt
  cases d.resolve p with
  | error f => exact fun _ _ hrun => by cases hrun
  | ok q =>
    dsimp only
    split
    · refine .step_bind rfl ((filterMapM_store (fun file w => ?_) _).bind fun _ _ h => .pure h)
      unfold sourceOf?
      dsimp only
      split
      · exact .step_bind (u := { w with notes := _ }) rfl (.pure rfl)
      · exact (read_ensures _ w).bind fun _ _ h => .pure (congrArg World.store h.1)
    · exact fun _ _ hrun => by cases hrun

end Run

namespace Builder

theorem foldlM_registerUnder_settles (hw : w.store.WellFormed) (root : Place) {e : Engine} (he : e.Settled w.store)
    (sources : List SourceFile) : (sources.foldlM (registerUnder root) e).Settles w fun s e => e.Settled s := by
  induction sources generalizing e w with
  | nil => exact .pure ⟨.refl _, hw, he⟩
  | cons source sources ih =>
    rw [List.foldlM_cons]
    refine (Engine.register_settles hw he _ _).bind fun e' u ⟨hkeeps, hu, he'⟩ => ?_
    exact (ih hu he').mono fun _ _ ⟨h, hrest⟩ => ⟨hkeeps.trans h, hrest⟩

theorem loadEngine_settles (hw : w.store.WellFormed) {b : Builder} (himports : b.imports = []) (d : Disk)
    (root : Place) : (b.loadEngine d root).Settles w fun s e => e.Settled s := by
  unfold loadEngine engineOf
  refine (Run.collectSources_store d root _).bind fun sources u hu => ?_
  have hstart : (b.start b.project.path root.path).Settled u.store := ⟨himports, fun _ h => absurd h List.not_mem_nil⟩
  refine (foldlM_registerUnder_settles (hu ▸ hw) root hstart sources).bind fun e w' h => ?_
  exact .step_bind (u := { w' with notes := _ }) rfl (.pure (hu ▸ h))

end Builder

namespace Command

theorem dataFrom_settles (hw : w.store.WellFormed) (file : Option String) (project : Place) (d : Disk) :
    (dataFrom file project d).Settles w fun s v => v.In s.inUse := by
  unfold dataFrom
  cases file with
  | none => exact .pure ⟨.refl _, hw, trivial⟩
  | some path =>
    dsimp only
    cases d.read (fileAt project path) with
    | error f => exact fun _ _ hrun => by cases hrun
    | ok content =>
      refine .step_bind rfl ((Run.read_ensures _ w).bind ?_)
      rintro text w ⟨rfl, -⟩
      refine (Yaml.load_wellFormed text hw).bind ?_
      rintro v w' ⟨hw', hkeeps, -, hv⟩
      cases v
      case none => exact .pure ⟨hkeeps, hw', hv⟩
      case dict => exact .pure ⟨hkeeps, hw', hv⟩
      all_goals exact .throw

end Command

end NestedSite
