import NestedSite.Proofs.Site.Content
import NestedSite.Proofs.Site.Trace

/-!
# Documents are texts

A document is a text, but for what the legend of the outermost level gives in its place where that level has no template
(`Engine.IsDocument`). This holds of every page that is rendered with a context that is there
(`Engine.renderThrough_ensures`); the contexts of echoed pages are there, since nothing is given up in between
(`Engine.pageContexts_ensures`), and so it holds of all documents (`Engine.documents_text`).
-/

namespace NestedSite

theorem Value.identical_int {v : Value} {n : Int} : v.identical (.int n) = true ↔ v = .int n := by
  cases v <;> simp [identical]

namespace Engine

variable {e : Engine}

/-! ## Contexts of pages -/

theorem pageContext_ensures (path : String) (data : Value) (legend : Option Legend) (w : World) :
    (pageContext path data legend).Ensures w Present := by
  unfold pageContext
  refine (copiedContext_ensures data w).bind fun p u hp => ?_
  have hnamed {v : World} (hv : Present p v) :
      (do setKey p nameKey (.text (Path.name path)); return p : Run Nat).Ensures v Present :=
    (present_confined (setKey_confined_whole p nameKey _) hv).bind fun _ _ hv => .pure hv
  split
  · exact (present_confined (Run.mergeLegend_confined_whole p _) hp).bind fun _ _ hv => hnamed hv
  · exact hnamed hp

theorem branch_ensures (p : Nat) (l : Legend) (w : World) : (Run.branch p l).Ensures w Present := by
  unfold Run.branch
  refine .step_bind (a := w.store.dict p) rfl (newDict_ensures fun q u hq => ?_)
  exact (present_confined (Run.mergeLegend_confined_whole q l) hq).bind fun _ _ hv => .pure hv

theorem branches_ensures (p : Nat) (metadata : Option Nat) (l : Legend) (w : World) :
    (Run.branches p metadata l).Ensures w fun ps w' => ∀ p ∈ ps, Present p w' := by
  have hgroup : Confined .whole Rendering (Run.echoGroup metadata l) _ := Run.echoGroup_confined fun _ _ => trivial
  have hlegends (group : String) (vs : List Value) : Confined .whole Rendering (Run.echoLegends group 0 vs) _ :=
    Run.echoLegends_confined group 0 fun v _ => v.in_whole
  have hbranch (l : Legend) : Confined .whole Rendering (Run.branch p l) _ := Run.branch_confined trivial l.in_whole
  unfold Run.branches
  refine (Run.Ensures.of_confined hgroup w).bind fun group u _ => ?_
  refine (Run.Ensures.of_confined (hlegends group.1 group.2) u).bind fun ls v _ => ?_
  refine (Run.Ensures.mapM (R := Rendering) (Q := Present) Present.mono fun l _ u _ => ?_).mono fun _ _ h => h.2
  exact ((Run.Ensures.of_confined (hbranch l) u).and (branch_ensures p l u)).mono fun _ _ h => ⟨h.1.1, h.2⟩

theorem pageContexts_ensures (e : Engine) (path : String) (data : Value) (w : World) :
    (e.pageContexts path data).Ensures w fun ps w' => ∀ p ∈ ps, Present p w' := by
  unfold pageContexts
  refine (e.directories.legendAt?_ensures path w).bind fun place w' _ => ?_
  extract_lets next
  have hnext (legend : Option Legend) (v : World) : (next legend).Ensures v fun ps w' => ∀ p ∈ ps, Present p w' := by
    refine (pageContext_ensures path data legend v).bind fun p u hp => ?_
    have hone : (pure [p] : Run (List Nat)).Ensures u fun ps w' => ∀ p ∈ ps, Present p w' :=
      .pure fun q hq => List.mem_singleton.1 hq ▸ hp
    split
    · split
      · exact reporting_ensures (branches_ensures p _ _ u)
      · exact hone
    · exact hone
  split
  · exact .step_bind (a := w'.store) rfl (.step_bind rfl (hnext _ w'))
  · exact .step_bind rfl (hnext _ w')

/-! ## Documents -/

theorem renderThrough_ensures (he : e.Lawful .whole) {path context : Value} {w : World}
    (h : ∀ p, context = .dict p → Present p w) : (e.renderThrough path context).Ensures w fun v w' =>
      ∃ t, path = .text t ∧ e.IsDocument t w'.store v := by
  unfold renderThrough
  refine (nonemptyArgument_ensures _ path w).bind fun t w' ht => ?_
  obtain ⟨hworld, rfl⟩ := ht
  subst w'
  refine (contextOf_ensures h).bind fun p u hp => ?_
  rcases List.eq_nil_or_concat (Path.ancestorChain t) with hnil | ⟨inner, level, hchain⟩
  · simp [Path.ancestorChain] at hnil
  · rw [List.concat_eq_append] at hchain
    rw [hchain]
    refine (renderLevels_ensures he hp inner level).bind fun _ v hv => .step (passedContent_run p v) ⟨t, rfl, ?_⟩
    exact hv.imp_right fun hlevel => ⟨level, by rw [hchain, List.getLast?_concat], hlevel⟩

theorem renderBranch_ensures (he : e.Lawful .whole) (path : String) {context : Nat} {w : World}
    (h : Present context w) : (e.renderBranch path context).Ensures w fun d w' => e.IsDocument path w'.store d.2 := by
  unfold renderBranch
  refine .step_bind (a := w.store.dict context) rfl ?_
  have hrest (name : String) (u : World) (hu : Present context u) : (do
      let place := Path.join (Path.parent path) [name]
      setKey context pathKey (.text place)
      let document ← e.renderThrough (.text path) (.dict context)
      let target ← Run.read fun _ => Renaming.target e.rename place
      return (target, document)).Ensures u fun d w' => e.IsDocument path w'.store d.2 := by
    refine (present_confined (setKey_confined_whole context pathKey _) hu).bind fun _ v hv => ?_
    refine (renderThrough_ensures he fun p hp => by cases hp; exact hv).bind fun document v' hdocument => ?_
    obtain ⟨t, heq, hdocument⟩ := hdocument
    cases heq
    refine (Run.read_ensures _ v').bind fun _ w' hw' => .pure ?_
    obtain ⟨rfl, -⟩ := hw'
    exact hdocument
  split
  · exact (present_confined Run.text_confined h).bind fun name u hu => hrest name u hu
  · exact .bind (Q := fun _ _ => False) .throw fun _ _ h => h.elim

theorem branchDocuments_ensures (he : e.Lawful .whole) (path data : Value) (w : World) :
    (e.branchDocuments path data).Ensures w fun docs w' =>
      ∃ t, path = .text t ∧ ∀ d ∈ docs, e.IsDocument t w'.store d.2 := by
  unfold branchDocuments
  refine (nonemptyArgument_ensures _ path w).bind fun t w' ht => ?_
  obtain ⟨hworld, rfl⟩ := ht
  subst w'
  refine (pageContexts_ensures e t data w).bind fun ps u hps => ?_
  refine (Run.Ensures.mapM (R := Rendering) (Q := fun d v => e.IsDocument t v.store d.2) IsDocument.mono
    fun p hp v hv => ?_).mono fun docs v hdocs => ⟨t, rfl, hdocs.2⟩
  have hbranch := Run.Ensures.of_confined (R := Rendering) (renderBranch_confined he t p) v
  exact (hbranch.and (renderBranch_ensures he t ((hps p hp).mono hv))).mono fun _ _ h => ⟨h.1.1, h.2⟩

theorem renderTemplate_ensures (he : e.Lawful .whole) (path data : Value) (w : World) :
    (e.renderTemplate path data).Ensures w fun docs w' =>
      ∃ t, path = .text t ∧ ∀ d ∈ docs, e.IsDocument t w'.store d.2 := by
  rw [renderTemplate_eq]
  exact .map <| (branchDocuments_ensures he path data w).mono fun docs w' ⟨t, hpath, hdocs⟩ =>
    ⟨t, hpath, fun d hd => hdocs d (Documents.mem_gather hd)⟩

theorem page_ensures (he : e.Lawful .whole) (data : Value) (path : String) (w : World) :
    (e.page data path).Ensures w fun docs w' => Rendering w w' ∧ ∀ d ∈ docs, e.IsDocument path w'.store d.2 := by
  intro docs w' hrun
  have hrendering := page_rendering he data path w
  obtain ⟨t, heq, hdocs⟩ := renderTemplate_ensures he (.text path) data w docs w' hrun
  cases heq
  rw [Run.after, hrun] at hrendering
  exact ⟨hrendering, hdocs⟩

theorem visit_ensures (he : e.Lawful .whole) (data : Value) (path : String) (w : World) :
    (e.visit (e.page data) path).Ensures w fun x w' =>
      Rendering w w' ∧ ∀ d ∈ x.documents, e.IsDocument path w'.store d.2 := by
  obtain ⟨ignored, hignored⟩ := ignores_run e.directories path w
  unfold visit
  refine .step_bind hignored ?_
  split
  · exact .pure ⟨.refl w, fun d hd => absurd hd List.not_mem_nil⟩
  · exact (page_ensures he data path w).bind fun _ _ h => .pure h

theorem walk_ensures (he : e.Lawful .whole) (data : Value) (paths : List String) (w : World) :
    (e.walk (e.page data) paths).Ensures w fun xs w' =>
      ∀ d ∈ xs.flatMap Visit.documents, ∃ path ∈ paths, e.IsDocument path w'.store d.2 := by
  have hvisits : (e.walk (e.page data) paths).Ensures w fun xs w' => Rendering w w' ∧
      ∀ x ∈ xs, ∃ path ∈ paths, ∀ d ∈ x.documents, e.IsDocument path w'.store d.2 := by
    refine Run.Ensures.mapM ?stable fun path hpath v _ => ?_
    case stable => exact fun ⟨path, hpath, h⟩ hv => ⟨path, hpath, fun d hd => (h d hd).mono hv⟩
    exact (visit_ensures he data path v).mono fun x _ h => ⟨h.1, path, hpath, h.2⟩
  refine hvisits.mono fun xs w' h d hd => ?_
  obtain ⟨x, hx, hd⟩ := List.mem_flatMap.1 hd
  obtain ⟨path, hpath, hdocs⟩ := h.2 x hx
  exact ⟨path, hpath, hdocs d hd⟩

theorem renderAll_ensures (he : e.Lawful .whole) (data : Value) (w : World) :
    (e.renderAll data).Ensures w fun docs w' => ∀ d ∈ docs, ∃ path ∈ e.paths, e.IsDocument path w'.store d.2 := by
  intro docs w' hrun
  have hwalk := passAll_walk he data e.paths {} (w := w) (v := w) rfl
  rw [renderAll_run] at hrun
  rcases hpass : (e.paths.foldlM (e.passOver data) {}).run.run w with ⟨f | pass, u⟩
  · rw [hpass] at hrun
    cases hrun
  · rw [hpass] at hrun hwalk
    cases hrun
    rcases hvisits : (e.walk (e.page data) e.paths).run.run w with ⟨f | xs, v⟩
    · rw [hvisits] at hwalk
      cases hwalk
    · rw [hvisits] at hwalk
      cases hwalk with
      | ok hstore h =>
        rw [h.1, documents_visitedAll, ← hstore]
        exact fun d hd => walk_ensures he data e.paths w xs v hvisits d (Documents.mem_gather hd)

/-- Every document is a text, but for one case: the outermost level of the page has no template, and the legend of the
level gives a content that is no text. -/
theorem documents_text {e : Engine} (he : e.Reached) (w : World) :
    (∀ path context v, (∀ p, context = .dict p → Present p w) → (e.renderThrough path context).outcome w = .ok v →
        ∃ t, path = .text t ∧ e.IsDocument t ((e.renderThrough path context).after w).store v) ∧
      (∀ path data docs, (e.renderTemplate path data).outcome w = .ok docs →
        ∃ t, path = .text t ∧ ∀ d ∈ docs, e.IsDocument t ((e.renderTemplate path data).after w).store d.2) ∧
      ∀ data docs, (e.renderAll data).outcome w = .ok docs →
        ∀ d ∈ docs, ∃ path ∈ e.paths, e.IsDocument path ((e.renderAll data).after w).store d.2 := by
  have hrun {α : Type} {m : Run α} {a : α} (h : m.outcome w = .ok a) : m.run.run w = (.ok a, m.after w) := by
    rw [← h]
    rfl
  refine ⟨fun path context v hcontext h => ?_, fun path data docs h => ?_, fun data docs h => ?_⟩
  · exact renderThrough_ensures he.lawful hcontext v _ (hrun h)
  · exact renderTemplate_ensures he.lawful path data w docs _ (hrun h)
  · exact renderAll_ensures he.lawful data w docs _ (hrun h)

/-- Metadata with a legend that gives the index a number as its content, and a page. -/
def numberedIndex : List (String × String) :=
  [("\"files\":\n- \"name\": \"index\"\n  \"$content\": 5", "meta.yaml"), ("X", "p.html")]

/-- The page of such a site is the number. -/
theorem documents_text_number : ∃ (e : Engine) (w : World), e.Reached ∧
    (e.renderTemplate (.text "p") .none).outcome w = .ok [("p", .int 5)] ∧
    e.OutermostContent "p" ((e.renderTemplate (.text "p") .none).after w).store (.int 5) := by
  have hfound : ((bare.registerAll numberedIndex).outcome {}).toOption.map (fun e =>
      ((e.renderTemplate (.text "p") .none).outcome ((bare.registerAll numberedIndex).after {})).toOption.map
        (List.map fun d => (d.1, d.2.identical (.int 5)))) = some (some [("p", true)]) := by
    decide +kernel
  obtain ⟨e, he, hrun⟩ := Option.map_eq_some_iff.1 hfound
  have hreached : e.Reached := reached_bare.registerAll he
  generalize (bare.registerAll numberedIndex).after {} = w at hrun
  have houtcome : (e.renderTemplate (.text "p") .none).outcome w = .ok [("p", .int 5)] := by
    obtain ⟨docs, houtcome, hdocs⟩ := exists_ok_of_map hrun
    obtain ⟨⟨path, v⟩, rfl, hdoc⟩ := List.map_eq_singleton_iff.1 hdocs
    obtain ⟨rfl, hv⟩ := Prod.mk.inj hdoc
    rw [houtcome, show v = .int 5 from Value.identical_int.1 hv]
  obtain ⟨t, ht, hdocs⟩ := (documents_text hreached w).2.1 (.text "p") .none _ houtcome
  cases ht
  rcases hdocs _ List.mem_cons_self with ⟨t, ht⟩ | hcontent
  · cases ht
  · exact ⟨e, w, hreached, houtcome, hcontent⟩

end Engine

end NestedSite
