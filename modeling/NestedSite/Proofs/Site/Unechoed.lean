import NestedSite.Proofs.Site.Echoing
import NestedSite.Proofs.Site.Textual
import NestedSite.Proofs.Template.Nesting
import NestedSite.Proofs.Ways

/-!
# Pages without an echo

Where a page goes is made anew when it is rendered, of its directory and of what its context knows as its name. The name
is written last into the context, over what the data and the legend give for it (`Engine.pageContext_named`), and a path
is its name in its directory (`Path.join_parent_name`). So a page whose legend echoes no group goes to its own path,
and two such pages go to different places (`Engine.renderTemplate_unechoed`).
-/

namespace NestedSite

namespace Engine

variable {e : Engine} {path : String} {w : World}

/-- The legend that is found for a page, if there is one, echoes no group. -/
def Unechoed (e : Engine) (path : String) (w : World) : Prop :=
  ∀ l, (e.directories.legendAt? path).outcome w = .ok (some l) → (w.store.legend l).echoes = false

/-! ## The name of a page -/

/-- Whatever the data and the legend give for it, the context of a page has the name of the page. -/
theorem pageContext_named (path : String) (data : Value) (legend : Option Legend) (w : World) :
    (pageContext path data legend).Ensures w fun p u => u.binding? p nameKey = some (.text (Path.name path)) := by
  unfold pageContext
  refine (copiedContext_ensures data w).bind fun p u hp => ?_
  have hnamed {v : World} (hv : Present p v) :
      (do setKey p nameKey (.text (Path.name path)); return p : Run Nat).Ensures v
        fun p u => u.binding? p nameKey = some (.text (Path.name path)) := by
    refine .step_bind (setKey_run ..) (.pure ?_)
    rw [World.binding?_withEntry hv, if_pos rfl]
  split
  · exact (present_confined (Run.mergeLegend_confined_whole p _) hp).bind fun _ _ hv => hnamed hv
  · exact hnamed hp

/-- Such a page has one context. -/
theorem Unechoed.pageContexts (h : e.Unechoed path w) (data : Value) :
    (e.pageContexts path data).Ensures w fun contexts u =>
      ∃ context, contexts = [context] ∧ u.binding? context nameKey = some (.text (Path.name path)) := by
  have hlegend : (e.directories.legendAt? path).Ensures w fun place u =>
      u = w ∧ ∀ l, place = some l → (w.store.legend l).echoes = false := by
    intro place u hrun
    refine ⟨(e.directories.legendAt?_ensures path w place u hrun).1, fun l hl => h l ?_⟩
    rw [Run.outcome, hrun, hl]
  unfold Engine.pageContexts
  refine hlegend.bind fun place u hu => ?_
  obtain ⟨rfl, hplace⟩ := hu
  cases place with
  | none =>
    refine .step_bind rfl ((pageContext_named path data none _).bind fun context v hv => .pure ⟨context, rfl, hv⟩)
  | some l =>
    refine .step_bind (a := u.store) rfl (.step_bind rfl ?_)
    refine (pageContext_named path data _ u).bind fun context v hv => ?_
    dsimp only
    rw [hplace l rfl]
    exact .pure ⟨context, rfl, hv⟩

/-! ## Where a page goes -/

/-- A document goes to the place that the context knows the name of. -/
theorem renderBranch_place (hrename : e.rename = none) {context : Nat} {name : String}
    (h : w.binding? context nameKey = some (.text name)) :
    (e.renderBranch path context).Ensures w fun doc _ => doc.1 = Path.join (Path.parent path) [name] := by
  unfold renderBranch
  rw [World.binding?] at h
  refine .step_bind (Run.dict_run context w) ?_
  rw [h]
  refine .step_bind (a := name) rfl (.step_bind (setKey_run ..) ?_)
  refine (Run.Ensures.anything _ _).bind fun document v _ => ?_
  refine (Run.read_ensures _ v).bind fun target v' htarget => .pure ?_
  rw [hrename] at htarget
  exact (Except.ok.inj htarget.2).symm

theorem Unechoed.renderTemplate (h : e.Unechoed path w) (hrename : e.rename = none) (hne : path ≠ "") (data : Value) :
    (e.renderTemplate (.text path) data).Ensures w fun docs _ =>
      ∃ v, docs = [(Path.join (Path.parent path) [Path.name path], v)] := by
  unfold Engine.renderTemplate
  rw [nonemptyArgument_text hne, pure_bind]
  refine (h.pageContexts data).bind fun contexts u hcontexts => ?_
  obtain ⟨context, rfl, hname⟩ := hcontexts
  simp only [List.foldlM_cons, List.foldlM_nil, bind_pure]
  refine (renderBranch_place hrename hname).bind fun doc v hdoc => .pure ⟨doc.2, ?_⟩
  rw [← hdoc]
  rfl

/-- A path is its name in its directory. So a page whose legend echoes no group, or that has no legend, has one document
if it is rendered, which goes to the path of the page, whatever the data and the legend give for its name and its place;
and different pages of that kind have no path in common. -/
theorem renderTemplate_unechoed :
    (∀ q, Path.normalize q = q → Path.name q ≠ "" → Path.join (Path.parent q) [Path.name q] = q) ∧
    ∀ e : Engine, e.Reached → e.rename = none →
      (∀ p ∈ e.paths, Path.name p ≠ "" → ∀ w, e.Unechoed p w → ∀ data docs,
        (e.renderTemplate (.text p) data).outcome w = .ok docs → ∃ v, docs = [(p, v)]) ∧
      ∀ p ∈ e.paths, ∀ q ∈ e.paths, Path.name p ≠ "" → Path.name q ≠ "" → p ≠ q →
        ∀ w w', e.Unechoed p w → e.Unechoed q w' → ∀ data data' docs docs',
          (e.renderTemplate (.text p) data).outcome w = .ok docs →
          (e.renderTemplate (.text q) data').outcome w' = .ok docs' → docs.paths.Disjoint docs'.paths := by
  have hpath : ∀ q, Path.IsNormal q → Path.name q ≠ "" → Path.join (Path.parent q) [Path.name q] = q :=
    fun q hq => Path.join_parent_name hq.shortest
  refine ⟨fun q hq => hpath q (hq ▸ Path.isNormal_normalize q), fun e he hrename => ?_⟩
  have hone : ∀ p ∈ e.paths, Path.name p ≠ "" → ∀ w, e.Unechoed p w → ∀ data docs,
      (e.renderTemplate (.text p) data).outcome w = .ok docs → ∃ v, docs = [(p, v)] := by
    intro p hp hname w hw data docs hdocs
    have hnormal := he.isNormal hp
    obtain ⟨v, hv⟩ := hw.renderTemplate hrename hnormal.ne_empty data docs _ (Prod.ext hdocs rfl)
    exact ⟨v, hpath p hnormal hname ▸ hv⟩
  refine ⟨hone, fun p hp q hq hnamep hnameq hne w w' hw hw' data data' docs docs' hdocs hdocs' => ?_⟩
  obtain ⟨v, rfl⟩ := hone p hp hnamep w hw data docs hdocs
  obtain ⟨v', rfl⟩ := hone q hq hnameq w' hw' data' docs' hdocs'
  intro t ht ht'
  exact hne ((List.mem_singleton.1 ht).symm.trans (List.mem_singleton.1 ht'))

/-- The world of a legend without an echo that gives another place for its page. -/
def astrayWorld : World := pagesWorld { name := "item", extras := [(pathKey, .text "astray")] }

/-- The data name the first of two pages otherwise, and its legend gives another place for it. -/
theorem renderTemplate_unechoed_astray : ∃ (e : Engine) (docs docs' : Documents) (v v' : Value),
    (e.renderTemplate (.text "item") (.dict 0)).outcome astrayWorld = .ok docs ∧ docs = [("item", v)] ∧
    (e.renderTemplate (.text "docs/other") (.dict 0)).outcome astrayWorld = .ok docs' ∧ docs' = [("docs/other", v')] ∧
    docs.paths.Disjoint docs'.paths := by
  have hfound : ((bare.registerAll (pageSources "" ++ [("", "docs/other.html")])).outcome {}).toOption.map (fun e =>
      ((e.paths, e.directories, e.rename.isNone),
        ((e.renderTemplate (.text "item") (.dict 0)).outcome astrayWorld).isOk,
        ((e.renderTemplate (.text "docs/other") (.dict 0)).outcome astrayWorld).isOk)) =
      some ((["item", "docs/other"], [(".", 0)], true), true, true) := by
    decide +kernel
  obtain ⟨e, he, hrun⟩ := Option.map_eq_some_iff.1 hfound
  simp only [Prod.mk.injEq, Option.isNone_iff_eq_none] at hrun
  obtain ⟨⟨hpaths, hdirectories, hrename⟩, hok, hok'⟩ := hrun
  have hreached := reached_bare.registerAll he
  have hmeta : Directories.metadataAt? [(".", 0)] "item" = some 0 := by decide +kernel
  have hmeta' : Directories.metadataAt? [(".", 0)] "docs/other" = none := by decide +kernel
  have hunechoed : e.Unechoed "item" astrayWorld := by
    have hname : Path.name "item" = "item" := by decide +kernel
    intro l hl
    rw [hdirectories, Directories.legendAt?, hmeta, hname] at hl
    cases hl
    rfl
  have hunechoed' : e.Unechoed "docs/other" astrayWorld := by
    intro l hl
    rw [hdirectories, Directories.legendAt?, hmeta'] at hl
    cases hl
  have hitem : "item" ∈ e.paths := hpaths ▸ List.mem_cons_self
  have hother : "docs/other" ∈ e.paths := hpaths ▸ List.mem_cons_of_mem _ List.mem_cons_self
  have hnamed : Path.name "item" ≠ "" ∧ Path.name "docs/other" ≠ "" := by decide +kernel
  obtain ⟨docs, hdocs⟩ := Template.Except.exists_of_isOk hok
  obtain ⟨docs', hdocs'⟩ := Template.Except.exists_of_isOk hok'
  obtain ⟨hone, hdisjoint⟩ := renderTemplate_unechoed.2 e hreached hrename
  obtain ⟨v, hv⟩ := hone "item" hitem hnamed.1 astrayWorld hunechoed _ docs hdocs
  obtain ⟨v', hv'⟩ := hone "docs/other" hother hnamed.2 astrayWorld hunechoed' _ docs' hdocs'
  exact ⟨e, docs, docs', v, v', hdocs, hv, hdocs', hv', hdisjoint _ hitem _ hother hnamed.1 hnamed.2 (by decide) _ _
    hunechoed hunechoed' _ _ _ _ hdocs hdocs'⟩

end Engine

end NestedSite
