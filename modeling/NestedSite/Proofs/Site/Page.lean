import NestedSite.Proofs.Site.Documents
import NestedSite.Proofs.Site.Engine
import NestedSite.Proofs.Store.Concur

/-!
# Pages in a region

The contexts of a page are mappings of their own, with entries from the region (`Engine.pageContexts_confined`): the
legends that a page echoes lie in the region if the metadata of its directory does (`Run.branches_confined`). Two
engines render a page alike that make the same contexts for it and render its levels alike
(`Engine.branchDocuments_concur`). All documents of a page, among them those that a later one replaces, are
`Engine.branchDocuments`; rendering the page gathers them (`Engine.renderTemplate_eq`).
-/

namespace NestedSite

open Region (AllowsReads AllowsEdits)
open Template (AllowsTemplates)

variable {r : Region} {R : World → World → Prop}

/-! ## Legends -/

theorem mem_splitKeys {s : Store} {es : Entries} {f : String × Value} (h : f ∈ (splitKeys s es).1) :
    (.text f.1, f.2) ∈ es := by
  induction es with
  | nil => cases h
  | cons e es ih =>
    obtain ⟨k, v⟩ := e
    cases k
    case text t => exact List.mem_cons.2 ((List.mem_cons.1 h).imp (by rintro rfl; rfl) ih)
    all_goals exact List.mem_cons_of_mem _ (ih h)

theorem splitKeys_in (s : Store) {es : Entries} (h : es.In r) : FieldsIn r (splitKeys s es).1 :=
  fun _ hf => (h _ (mem_splitKeys hf)).2

theorem Legend.ofEntries_in {s : Store} {es : Entries} {l : Legend} (h : es.In r)
    (hl : Legend.ofEntries s es = .ok l) : l.In r := by
  have hfields := splitKeys_in s h
  unfold Legend.ofEntries at hl
  dsimp only at hl
  split at hl
  · cases hl
    exact ⟨fun f hf => hfields f (List.mem_filter.1 hf |>.1)⟩
  · cases hl

/-! ## Echoing -/

namespace Run

variable [AllowsEdits r R]

theorem legendOf?_confined {v : Value} (h : v.In r) :
    Confined r R (legendOf? v) fun c => ∀ u, c = .ok u → u.In r := by
  unfold legendOf?
  split
  · exact .pure fun _ hu => by cases hu; exact h
  · refine store_confined.bind fun s _ => (dict_confined h).bind fun es hes => ?_
    split
    · exact (newLegend_confined (Legend.ofEntries_in hes ‹_›)).bind fun _ hv => .pure fun _ hu => by cases hu; exact hv
    · exact .pure nofun
  · exact .pure nofun

theorem echoGroup_confined {metadata : Option Nat} (hm : ∀ p ∈ metadata, r.metadata p) {l : Legend} :
    Confined r R (echoGroup metadata l) fun group => ∀ v ∈ group.2, v.In r := by
  unfold echoGroup
  extract_lets next
  have hnext (group : String) : Confined r R (next group) fun group => ∀ v ∈ group.2, v.In r := by
    unfold next
    split
    · exact .throw
    · rename_i p
      refine store_confined.bind fun s hs => ?_
      refine (metadataGroup_confined (hs.metadata p (hm p rfl)) Value.in_text).bind fun v hv => ?_
      split
      · exact .throw
      · exact (list_confined hv).bind fun vs hvs => .ite (fun _ => .throw) fun _ => .pure hvs
      · exact store_confined.bind fun _ _ => .throw
  split
  · exact .throw_bind
  · exact .ite (fun _ => .throw_bind) fun _ => hnext _

theorem echoLegend_confined (group : String) (index : Nat) {element : Value} (h : element.In r) :
    Confined r R (echoLegend group index element) (·.In r) := by
  unfold echoLegend
  split
  · exact store_confined.bind fun s hs => .pure (hs.legends _ h)
  · refine (legendOf?_confined h).bind fun c hc => ?_
    split
    · exact store_confined.bind fun s hs => .pure (hs.legends _ (hc _ rfl))
    · exact .throw
  · exact .throw

theorem echoLegends_confined (group : String) : ∀ (n : Nat) {vs : List Value}, (∀ v ∈ vs, v.In r) →
    Confined r R (echoLegends group n vs) fun ls => ∀ l ∈ ls, l.In r
  | _, [], _ => .pure fun _ hl => absurd hl List.not_mem_nil
  | n, _ :: _, h =>
    have ⟨hv, hvs⟩ := List.forall_mem_cons.1 h
    (echoLegend_confined group n hv).bind fun _ hl => (echoLegends_confined group (n + 1) hvs).bind fun _ hls =>
      .pure (List.forall_mem_cons.2 ⟨hl, hls⟩)

theorem branch_confined {context : Nat} (hc : r.dicts context) {l : Legend} (hl : l.In r) :
    Confined r R (branch context l) (Engine.Fresh r) := by
  refine (dict_confined hc).bind fun es hes => (newDict_confined hes).bind fun v hv => ?_
  obtain ⟨p, rfl, hp⟩ := hv
  exact (mergeLegend_confined (.unwatched hp.2) hp.1 hl).seq (.pure hp)

theorem branches_confined {context : Nat} (hc : r.dicts context) {metadata : Option Nat}
    (hm : ∀ p ∈ metadata, r.metadata p) {l : Legend} :
    Confined r R (branches context metadata l) fun cs => ∀ c ∈ cs, Engine.Fresh r c :=
  (echoGroup_confined hm).bind fun group hgroup => (echoLegends_confined group.1 0 hgroup).bind fun _ hls =>
    .mapM fun l hl => branch_confined hc (hls l hl)

end Run

/-! ## Contexts of a page -/

namespace Engine

theorem pageContext_confined [AllowsEdits r R] (path : String) {data : Value} (hd : data.In r) {legend : Option Legend}
    (hl : ∀ l ∈ legend, l.In r) : Confined r R (pageContext path data legend) (Fresh r) := by
  unfold pageContext
  refine (copiedContext_confined hd).bind fun p hp => ?_
  have named : Confined r R (do setKey p nameKey (.text (Path.name path)); return p) (Fresh r) :=
    (setKey_confined (.unwatched hp.2) hp.1 Value.in_text).seq (.pure hp)
  split
  · exact (Run.mergeLegend_confined (.unwatched hp.2) hp.1 (hl _ rfl)).seq named
  · exact named

theorem pageContexts_confined [AllowsTemplates r R] {e : Engine} (he : DirectoriesIn r e.directories) (path : String)
    {data : Value} (hd : data.In r) : Confined r R (e.pageContexts path data) fun cs => ∀ c ∈ cs, Fresh r c := by
  unfold pageContexts
  refine (legendAt?_confined he).bind fun place hplace => ?_
  extract_lets next
  have hnext (legend : Option Legend) (hl : ∀ l ∈ legend, l.In r) :
      Confined r R (next legend) fun cs => ∀ c ∈ cs, Fresh r c := by
    refine (pageContext_confined path hd hl).bind fun p hp => ?_
    have hone : ∀ c ∈ [p], Fresh r c := fun c hc => List.mem_singleton.1 hc ▸ hp
    split
    · exact .ite (fun _ => reporting_confined (Run.branches_confined hp.1 (metadataAt?_in he))) fun _ => .pure hone
    · exact .pure hone
  split
  · refine Run.store_confined.bind fun s hs => ?_
    refine (Confined.pure (Q := fun legend => ∀ l ∈ legend, l.In r) ?_).bind hnext
    exact fun l hl => by cases hl; exact hs.legends _ (hplace _ rfl)
  · exact hnext none nofun

/-! ## Documents of a page -/

/-- All documents of a page, one for each of its contexts, with the paths that they go to. -/
def branchDocuments (e : Engine) (path data : Value) : Run (List (String × Value)) := do
  let path ← Run.nonemptyArgument "path" path
  (← e.pageContexts path data).mapM (e.renderBranch path)

section Concur

variable [AllowsTemplates r R] {start : World} {e e' : Engine} {path : String}

theorem passedContent_confined {p : Nat} (hp : r.dicts p) : Confined r R (passedContent p) (·.In r) := by
  refine (Run.dict_confined hp).bind fun es hes => .pure ?_
  cases hf : es.find? (.text contentKey) with
  | none => exact Value.in_text
  | some v => exact hes.find? hf

theorem renderThrough_concur {p : Nat} (hp : Writable r R p)
    (hlevels : ∀ level ∈ Path.ancestorChain path,
      Concur r R start (e.renderOne (.text level) (.dict p)) (e'.renderOne (.text level) (.dict p)) (·.In r)) :
    Concur r R start (e.renderThrough (.text path) (.dict p)) (e'.renderThrough (.text path) (.dict p)) (·.In r) := by
  unfold renderThrough
  refine Run.nonemptyArgument_confined.concur.bind fun path' hpath' => ?_
  cases hpath'
  simp only [contextOf, pure_bind]
  refine (Concur.forM fun level hlevel => ?_).seq (passedContent_confined hp.within).concur
  exact (hlevels level hlevel).bind fun v hv => (setKey_confined hp.writes hp.within hv).concur

theorem renderBranch_concur (hrename : e'.rename = e.rename) {p : Nat} (hp : Writable r R p)
    (hlevels : ∀ level ∈ Path.ancestorChain path,
      Concur r R start (e.renderOne (.text level) (.dict p)) (e'.renderOne (.text level) (.dict p)) (·.In r)) :
    Concur r R start (e.renderBranch path p) (e'.renderBranch path p) fun d => d.2.In r := by
  unfold renderBranch
  rw [hrename]
  refine (Run.dict_confined hp.within).concur.bind fun es _ => ?_
  extract_lets next next'
  have hnext (name : String) : Concur r R start (next name) (next' name) fun d => d.2.In r := by
    refine (setKey_confined hp.writes hp.within Value.in_text).concur.seq ?_
    refine (renderThrough_concur hp hlevels).bind fun document hdocument => ?_
    exact (Run.read_confined fun _ _ _ _ => trivial).concur.bind fun _ _ => .pure hdocument
  split
  · exact Run.text_confined.concur.bind fun name _ => hnext name
  · exact .throw_bind

/-- Engines that make the same contexts for a page, and render its levels alike, render the page alike. -/
theorem branchDocuments_concur (hrename : e'.rename = e.rename) {data : Value}
    (hcontexts : e'.pageContexts path data = e.pageContexts path data)
    (hfresh : Confined r R (e.pageContexts path data) fun cs => ∀ c ∈ cs, Fresh r c)
    (hlevels : ∀ level ∈ Path.ancestorChain path, ∀ p, Fresh r p →
      Concur r R start (e.renderOne (.text level) (.dict p)) (e'.renderOne (.text level) (.dict p)) (·.In r)) :
    Concur r R start (e.branchDocuments (.text path) data) (e'.branchDocuments (.text path) data)
      fun docs => ∀ d ∈ docs, d.2.In r := by
  unfold branchDocuments
  refine Run.nonemptyArgument_confined.concur.bind fun path' hpath' => ?_
  cases hpath'
  rw [hcontexts]
  refine hfresh.concur.bind fun cs hcs => .mapM fun c hc => ?_
  exact renderBranch_concur hrename (hcs c hc).writable fun level hlevel => hlevels level hlevel c (hcs c hc)

end Concur

theorem foldlM_put {α : Type} (f : α → Run (String × Value)) (xs : List α) (docs : Documents) :
    xs.foldlM (fun docs x => do
        let (target, document) ← f x
        return docs.put target document) docs = docs.putAll <$> xs.mapM f := by
  induction xs generalizing docs with
  | nil => simp
  | cons x xs ih =>
    rw [List.foldlM_cons, List.mapM_cons, map_bind, bind_assoc]
    refine bind_congr fun doc => ?_
    rw [pure_bind, ih, map_bind, map_eq_pure_bind]
    simp only [map_pure, Documents.putAll_cons]

/-- The documents of a page are all of its documents, of which a later one takes the place of an earlier one. -/
theorem renderTemplate_eq (e : Engine) (path data : Value) :
    e.renderTemplate path data = Documents.gather <$> e.branchDocuments path data := by
  unfold renderTemplate branchDocuments
  simp only [foldlM_put, map_bind]
  rfl

end Engine

end NestedSite
