import NestedSite.Proofs.Ancestors
import NestedSite.Proofs.Site.Page
import NestedSite.Proofs.Site.Pass
import NestedSite.Proofs.Site.Registry
import NestedSite.Proofs.Template.Mention

/-!
# Locality of a document

A page is made of the templates of its own levels, with the metadata of their directories; whatever else is registered
is of no account, if none of these templates includes another one (`Engine.render_local`). An engine renders the page as
one does that has nothing but the levels of the page (`Engine.restrict`, `Engine.readings_restrict`): where no template
can be included, a template has nothing of its engine but the scope and the working directory (`Run.call_congr`), and it
does not get at the helper that includes others unless it names it (`Engine.scope_free`).
-/

namespace NestedSite

open Region (AllowsReads AllowsEdits)
open Template (AllowsTemplates Bindings)

variable {r : Region} {R : World → World → Prop} {start : World}

instance (r : Region) [r.Open] : AllowsTemplates r Anything :=
  .of_writes (fun _ => Run.step_confined (fun _ => rfl) fun _ hw => ⟨trivial, hw, trivial⟩)
    (fun _ _ _ _ _ => trivial) fun _ _ => Run.step_confined (fun _ => rfl) fun _ hw => ⟨trivial, hw, trivial⟩

/-! ## Directories -/

/-- An extension does not count for the metadata of a path. -/
theorem Directories.directoryOf_withoutExtension (path : String) :
    directoryOf (Path.withoutExtension path) = directoryOf path := by
  obtain hw | ⟨head, name, short, hpath, hw, ⟨hne, hname⟩, ⟨hne', hshort⟩, -⟩ := Path.withoutExtension_cases path
  · rw [hw]
  · unfold directoryOf
    rw [Path.not_endsWith_slash hpath hne hname, Path.not_endsWith_slash hw hne' hshort, Path.parent_withoutExtension,
      if_neg Bool.false_ne_true, if_neg Bool.false_ne_true]

theorem Directories.legendAt?_congr {ds ds' : Directories} {path : String}
    (h : ds'.metadataAt? path = ds.metadataAt? path) : ds'.legendAt? path = ds.legendAt? path := by
  unfold legendAt?
  rw [h]

namespace Engine

/-! ## What an engine hands to a page -/

/-- Two engines with the same imports hand the same to a level: its template, and the metadata of its directory. -/
structure AgreesAt (e e' : Engine) (level : String) : Prop where
  template : e'.template? (Path.withoutExtension level) = e.template? (Path.withoutExtension level)
  metadata : e'.directories.metadataAt? level = e.directories.metadataAt? level

theorem ensureDefaults_congr {e e' : Engine} {path : String}
    (h : e'.directories.metadataAt? path = e.directories.metadataAt? path) (context : Value) :
    e'.ensureDefaults (.text path) context = e.ensureDefaults (.text path) context := by
  unfold ensureDefaults
  simp only [Run.textArgument, pure_bind, h, Directories.legendAt?_congr h]

theorem pageContexts_congr {e e' : Engine} {path : String}
    (h : e'.directories.metadataAt? path = e.directories.metadataAt? path) (data : Value) :
    e'.pageContexts path data = e.pageContexts path data := by
  unfold pageContexts
  rw [h, Directories.legendAt?_congr h]

/-! ## Templates that include no others -/

/-- A template that does not mention the helper for including does not get at it by its names. -/
theorem scope_free {e : Engine} (hhelpers : ∀ h ≠ Helper.includePartial, r.helpers h) (hi : FieldsIn r e.imports)
    {name : String} (hname : name ≠ Helper.includePartial.name) : ∀ v ∈ e.scope.find? name, v.In r := by
  intro v hv
  obtain ⟨b, hb, rfl⟩ := Option.map_eq_some_iff.1 hv
  have hkey : b.1 = name := by simpa using List.find?_some hb
  rcases Template.mem_bindAll (List.mem_of_find?_eq_some hb) with hmem | hmem
  · exact Template.builtinBindings_in b hmem
  · rcases List.mem_append.1 hmem with hmem | hmem
    · obtain ⟨h, -, rfl⟩ := List.mem_map.1 hmem
      refine hhelpers h ?_
      rintro rfl
      exact hname hkey.symm
    · exact hi b hmem

/-- A host that includes nothing. -/
def alone (e : Engine) : Host where
  cwd := e.workDir
  renderPartial _ _ := wrongType

theorem render_alone [AllowsTemplates r R] {e : Engine} (hhelpers : ∀ h, r.helpers h ↔ h ≠ Helper.includePartial)
    (hi : FieldsIn r e.imports) {t : Template} (ht : t.Accepted)
    (hfree : t.mentions Helper.includePartial.name = false) {p : Nat} (hp : r.dicts p) {host : Host}
    (hcwd : host.cwd = e.workDir) :
    Concur r R start (t.render e.alone e.scope (some p)) (t.render host e.scope (some p)) fun _ => True := by
  have hnot : ¬r.helpers .includePartial := fun h => (hhelpers _).1 h rfl
  have halone : e.alone.Confined r R := fun _ _ _ _ => .wrongType
  refine Template.render_concur ht halone (fun hf ha => Run.call_congr hcwd hnot hf ha) fun {name w} hname _ hw => ?_
  refine ⟨rfl, fun v hv => ?_⟩
  have hne : name ≠ Helper.includePartial.name := by
    rintro rfl
    rw [hfree] at hname
    cases hname
  unfold Template.Scope.find? at hv
  dsimp only [Bindings.find?, List.find?_nil, Option.map_none, Option.bind_some] at hv
  split at hv
  · rename_i u hu
    cases hv
    exact (hw.dicts p hp).find? hu
  · exact scope_free (fun h hne => (hhelpers h).2 hne) hi hne v hv

/-! ## Levels -/

/-- A level in its shortest spelling, whose template is without faults and includes no others. -/
structure LevelIn (e : Engine) (level : String) : Prop where
  normal : Path.IsNormal level
  accepted : ∀ t ∈ e.template? (Path.withoutExtension level), t.Accepted
  free : ∀ t ∈ e.template? (Path.withoutExtension level), t.mentions Helper.includePartial.name = false

theorem renderOne_local [AllowsTemplates r R] {e e' : Engine} (hhelpers : ∀ h, r.helpers h ↔ h ≠ Helper.includePartial)
    (hi : FieldsIn r e.imports) (hd : DirectoriesIn r e.directories) (himports : e'.imports = e.imports)
    (hdir : e'.workDir = e.workDir) {level : String} (hl : LevelIn e level) (h : AgreesAt e e' level) {p : Nat}
    (hp : Fresh r p) :
    Concur r R start (e.renderOne (.text level) (.dict p)) (e'.renderOne (.text level) (.dict p)) (·.In r) := by
  rw [renderOne_eq hl.normal, renderOne_eq hl.normal]
  unfold renderLevel levelKey
  rw [hl.normal.normalize_eq, ensureDefaults_congr h.metadata, h.template]
  refine (ensureDefaults_confined hd hp.writable).concur.seq (.tryCatch ?_ fun _ => ?_)
  · cases ht : e.template? (Path.withoutExtension level) with
    | none => exact (passedContent_confined hp.1).concur
    | some t =>
      have hscope : e'.scope = e.scope := by
        unfold scope
        rw [himports]
      have hrender (host : Host) (hcwd : host.cwd = e.workDir) :
          Concur r R start (t.render e.alone e.scope (some p)) (t.render host e.scope (some p)) fun _ => True :=
        render_alone hhelpers hi (hl.accepted t ht) (hl.free t ht) hp.1 hcwd
      dsimp only
      rw [hscope]
      exact ((hrender _ rfl).join (hrender _ hdir)).map fun _ _ => Value.in_text
  · exact (AllowsTemplates.errors.bind fun _ _ => .throw).concur

/-- Engines that hand the same to all levels of a page render it alike. -/
theorem branchDocuments_local [AllowsTemplates r R] {e e' : Engine}
    (hhelpers : ∀ h, r.helpers h ↔ h ≠ Helper.includePartial) (hi : FieldsIn r e.imports)
    (hd : DirectoriesIn r e.directories) (himports : e'.imports = e.imports) (hdir : e'.workDir = e.workDir)
    (hrename : e'.rename = e.rename) {path : String} (hpath : Path.IsNormal path)
    (hlevels : ∀ level ∈ Path.ancestorChain path, LevelIn e level)
    (hagree : ∀ level ∈ Path.ancestorChain path, AgreesAt e e' level) {data : Value} (hdata : data.In r) :
    Concur r R start (e.branchDocuments (.text path) data) (e'.branchDocuments (.text path) data)
      fun docs => ∀ d ∈ docs, d.2.In r := by
  -- the directory of the page is that of its first level
  have hown : e'.directories.metadataAt? path = e.directories.metadataAt? path := by
    have hfirst := (hagree _ (Path.withoutExtension_mem_ancestorChain hpath)).metadata
    unfold Directories.metadataAt? at *
    rwa [Directories.directoryOf_withoutExtension] at hfirst
  refine branchDocuments_concur hrename (pageContexts_congr hown data) (pageContexts_confined hd path hdata) ?_
  exact fun level hlevel p hp =>
    renderOne_local hhelpers hi hd himports hdir (hlevels level hlevel) (hagree level hlevel) hp

/-! ## Engines with nothing but some levels -/

/-- What a table has for some keys. -/
def entriesFor {α : Type} (table : String → Option α) (keys : List String) : List (String × α) :=
  keys.filterMap fun k => (table k).map (k, ·)

theorem find?_entriesFor {α : Type} (table : String → Option α) {keys : List String} {k : String} (h : k ∈ keys) :
    ((entriesFor table keys).find? fun e => e.1 == k).map Prod.snd = table k := by
  induction keys with
  | nil => cases h
  | cons first rest ih =>
    unfold entriesFor at *
    rw [List.filterMap_cons]
    by_cases heq : first = k
    · subst heq
      cases hf : table first with
      | some a => simp
      | none =>
        -- the key may come again, but is not found then either
        rw [Option.map_none]
        refine Option.map_eq_none_iff.2 (List.find?_eq_none.2 fun e he => ?_)
        obtain ⟨other, -, hother⟩ := List.mem_filterMap.1 he
        obtain ⟨a, ha, rfl⟩ := Option.map_eq_some_iff.1 hother
        intro hkey
        obtain rfl : other = first := beq_iff_eq.1 hkey
        rw [hf] at ha
        cases ha
    · have hrest := ih ((List.mem_cons.1 h).resolve_left (Ne.symm heq))
      cases table first with
      | none => exact hrest
      | some a => simpa [heq] using hrest

theorem entriesFor_congr {α : Type} {table table' : String → Option α} {keys : List String}
    (h : ∀ k ∈ keys, table' k = table k) : entriesFor table' keys = entriesFor table keys :=
  List.filterMap_congr fun k hk => by rw [h k hk]

theorem entriesFor_map {α : Type} (table : String → Option α) (f : α → α) (keys : List String) :
    entriesFor (fun k => (table k).map f) keys = (entriesFor table keys).map fun e => (e.1, f e.2) := by
  unfold entriesFor
  rw [List.map_filterMap]
  refine List.filterMap_congr fun k _ => ?_
  cases h : table k <;> simp [h]

/-- The engine with the templates of some levels, and the metadata of their directories, only. -/
def restrict (e : Engine) (levels : List String) : Engine where
  workDir := e.workDir
  root := e.workDir
  imports := e.imports
  rename := e.rename
  templates := entriesFor e.template? (levels.map Path.withoutExtension)
  directories := entriesFor e.directories.find? (levels.map Directories.directoryOf)

theorem agreesAt_restrict (e : Engine) {levels : List String} {level : String} (h : level ∈ levels) :
    AgreesAt (e.restrict levels) e level where
  template := (find?_entriesFor e.template? (List.mem_map_of_mem h)).symm
  metadata := (find?_entriesFor e.directories.find? (List.mem_map_of_mem h)).symm

/-- A page is rendered as if there were nothing but its levels. -/
theorem renderTemplate_restrict {e : Engine} (he : e.Reached) {path : String} (hpath : path ∈ e.paths)
    (hfree : ∀ level ∈ Path.ancestorChain path, ∀ t ∈ e.template? (Path.withoutExtension level),
      t.mentions Helper.includePartial.name = false)
    {data : Value} {w : World} {roots : List Value} (hdata : w.store.Reaches roots data)
    (hheld : ∀ v ∈ (e.restrict (Path.ancestorChain path)).held, w.store.Reaches roots v)
    (hnone : ¬w.store.Reaches roots (.helper .includePartial)) :
    (e.renderTemplate (.text path) data).run.run w =
      ((e.restrict (Path.ancestorChain path)).renderTemplate (.text path) data).run.run w := by
  have hreached : Region.IsReached (.reachedWith (· ≠ .includePartial) w.store roots) w.store roots :=
    Region.reachedWith_isReached fun h hh => by rintro rfl; exact hnone hh
  have himports : FieldsIn (.reachedWith (· ≠ .includePartial) w.store roots)
      (e.restrict (Path.ancestorChain path)).imports := fun f hf =>
    hreached.value f.2 (hheld _ (List.mem_append_left _ (List.mem_map_of_mem hf)))
  have hdirectories : DirectoriesIn (.reachedWith (· ≠ .includePartial) w.store roots)
      (e.restrict (Path.ancestorChain path)).directories := fun d hd =>
    .inl (hheld _ (List.mem_append_right _ (List.mem_map_of_mem hd)))
  have hnormal := he.isNormal hpath
  obtain ⟨u, hu, rfl⟩ := List.mem_map.1 hpath
  have hagree : ∀ level ∈ Path.ancestorChain u.1, AgreesAt (e.restrict (Path.ancestorChain u.1)) e level :=
    fun _ => agreesAt_restrict e
  have hlevels : ∀ level ∈ Path.ancestorChain u.1, LevelIn (e.restrict (Path.ancestorChain u.1)) level := by
    intro level hlevel
    refine { normal := Path.isNormal_of_mem_ancestorChain hlevel, accepted := ?_, free := ?_ }
    · intro t ht
      rw [← (hagree level hlevel).template] at ht
      obtain ⟨entry, hentry, rfl⟩ := Option.map_eq_some_iff.1 ht
      exact (he.templates entry (List.mem_of_find?_eq_some hentry)).1
    · intro t ht
      rw [← (hagree level hlevel).template] at ht
      exact hfree level hlevel t ht
  have hsame : e.imports = (e.restrict (Path.ancestorChain u.1)).imports ∧
      e.workDir = (e.restrict (Path.ancestorChain u.1)).workDir ∧
      e.rename = (e.restrict (Path.ancestorChain u.1)).rename := ⟨rfl, rfl, rfl⟩
  have hconcur : Concur (.reachedWith (· ≠ .includePartial) w.store roots) Anything w
      ((e.restrict (Path.ancestorChain u.1)).branchDocuments (.text u.1) data) (e.branchDocuments (.text u.1) data) _ :=
    branchDocuments_local (fun _ => Iff.rfl) himports hdirectories hsame.1 hsame.2.1 hsame.2.2 hnormal hlevels hagree
      (hreached.value data hdata)
  have hrun := (hconcur w trivial hreached.holds).1
  rw [renderTemplate_eq, renderTemplate_eq, map_eq_pure_bind, map_eq_pure_bind, Run.run_bind, Run.run_bind, hrun]

/-! ## Two engines -/

/-- Two engines agree on some levels: the second one has the same templates and copies of the metadata there. Their
imports are copies of one another as well. -/
structure AgreesOn (e e' : Engine) (φ : Relocation) (levels : List String) : Prop where
  workDir : e'.workDir = e.workDir
  imports : e'.imports = movedFields φ e.imports
  rename : e'.rename = e.rename
  templates : ∀ level ∈ levels, e'.template? (Path.withoutExtension level) = e.template? (Path.withoutExtension level)
  metadata : ∀ level ∈ levels, e'.directories.metadataAt? level = (e.directories.metadataAt? level).map φ.metadata

theorem AgreesOn.restrict_eq {e e' : Engine} {φ : Relocation} {levels : List String} (h : e.AgreesOn e' φ levels) :
    e'.restrict levels = (e.restrict levels).moved φ := by
  have htemplates : entriesFor e'.template? (levels.map Path.withoutExtension) =
      entriesFor e.template? (levels.map Path.withoutExtension) := by
    refine entriesFor_congr fun k hk => ?_
    obtain ⟨level, hlevel, rfl⟩ := List.mem_map.1 hk
    exact h.templates level hlevel
  have hdirectories : entriesFor e'.directories.find? (levels.map Directories.directoryOf) =
      (entriesFor e.directories.find? (levels.map Directories.directoryOf)).map fun d => (d.1, φ.metadata d.2) := by
    rw [← entriesFor_map]
    refine entriesFor_congr fun k hk => ?_
    obtain ⟨level, hlevel, rfl⟩ := List.mem_map.1 hk
    exact h.metadata level hlevel
  unfold restrict moved Directories.moved
  rw [htemplates, hdirectories, h.workDir, h.imports, h.rename]

theorem readings_restrict {e : Engine} (he : e.Reached) {path : String} (hpath : path ∈ e.paths)
    (hfree : ∀ level ∈ Path.ancestorChain path, ∀ t ∈ e.template? (Path.withoutExtension level),
      t.mentions Helper.includePartial.name = false)
    {data : Value} {w : World} {roots : List Value} (hdata : w.store.Reaches roots data)
    (hheld : ∀ v ∈ (e.restrict (Path.ancestorChain path)).held, w.store.Reaches roots v)
    (hnone : ¬w.store.Reaches roots (.helper .includePartial)) :
    e.readings path data w = (e.restrict (Path.ancestorChain path)).readings path data w := by
  unfold readings Run.outcome Run.after
  rw [renderTemplate_restrict he hpath hfree hdata hheld hnone]

/-- The copy of a mapping at the place behind it. -/
def nextPlace : Relocation :=
  { Relocation.refl with
    dicts := (· + 1)
    dicts_inj := Nat.succ_inj }

/-- A world with data, and one with a copy of the data behind something else. -/
def original : World where
  store := { dicts := #[[(.text "x", .int 1)]] }

def duplicate : World where
  store := { dicts := #[[(.text "x", .text "other")], [(.text "x", .int 1)]] }

theorem original_copied : original.store.CopiedTo [.dict 0] nextPlace duplicate.store ∧
    ¬original.store.Reaches [.dict 0] (.helper .includePartial) := by
  have hreached : ∀ v, original.store.Reaches [.dict 0] v → v = .dict 0 ∨ v = .text "x" ∨ v = .int 1 := by
    intro v hv
    induction hv with
    | root h => exact .inl (List.mem_singleton.1 h)
    | part _ hpart ih =>
      rcases ih with rfl | rfl | rfl
      · simpa [Value.parts, Store.dict, original] using Or.inr hpart
      · simp [Value.parts] at hpart
      · simp [Value.parts] at hpart
  refine ⟨?_, fun h => by obtain heq | heq | heq := hreached _ h <;> cases heq⟩
  constructor <;> intro p hp <;> obtain heq | heq | heq := hreached _ hp <;> cases heq
  exact ⟨Nat.zero_lt_one, Nat.one_lt_two, rfl⟩

end Engine

end NestedSite
