import NestedSite.Proofs.Site.Context
import NestedSite.Proofs.Site.Registered
import NestedSite.Proofs.Site.Rendering
import NestedSite.Proofs.Store.Ensures

/-!
# Where content comes from

A context that is prepared for a template has a text as its content, unless the legend of the template gives it another
one (`Engine.ensureDefaults_ensures`). So a level puts out a text if it has a template, and the content that its legend
gives if it has none (`Engine.renderOne_ensures`). Of the levels of a page it is the outermost one that decides
(`Engine.renderLevels_ensures`), as each puts its own content in the place of the one before.
-/

namespace NestedSite

/-! ## Legends -/

namespace Run

theorem setDict_run (place : Nat) (es : Entries) (w : World) :
    (setDict place es).run.run w = (.ok (), w.withDict place es) := rfl

/-- The entries of a new mapping with the given fields of a legend. -/
def givenEntries (l : Legend) : Entries := Entries.merge [] (l.givenFields.map fun (k, v) => (.text k, v))

theorem mem_givenEntries {l : Legend} {e : Value × Value} (h : e ∈ givenEntries l) :
    ∃ f ∈ l.givenFields, e = (.text f.1, f.2) := by
  have hnamed : Entries.Named (l.givenFields.map fun (k, v) => (.text k, v)) := by
    intro e he
    obtain ⟨f, -, rfl⟩ := List.mem_map.1 he
    exact ⟨f.1, rfl⟩
  rcases Entries.mem_merge hnamed h with h | h
  · obtain ⟨f, hf, rfl⟩ := List.mem_map.1 h
    exact ⟨f, hf, rfl⟩
  · exact absurd h List.not_mem_nil

theorem named_givenEntries (l : Legend) : (givenEntries l).Named := fun _ he =>
  (mem_givenEntries he).imp' Prod.fst fun _ hf => by rw [hf.2]

/-- The given fields of a legend are put into a new mapping, and no other mapping changes. -/
theorem legendFields_ensures (l : Legend) (w : World) : (legendFields l).Ensures w fun v w' =>
    ∃ place, v = .dict place ∧ w'.store.dict place = givenEntries l ∧ w.store.dicts.size ≤ w'.store.dicts.size ∧
      ∀ p < w.store.dicts.size, w'.store.dict p = w.store.dict p := by
  refine (Ensures.of_confined (R := Region.whole.Reads) (Confined.forIn fun f _ => ?_) w).bind fun _ u hu =>
    .step (newDict_run _ u) ⟨_, rfl, ?_, ?_, fun p hp => ?_⟩
  · exact (dumped_confined f.2.in_whole).discard.seq (.pure rfl)
  · rw [Store.dict_push, if_pos rfl]
    rfl
  · simpa using Nat.le_succ_of_le hu.1.dicts_le
  · have hlt := Nat.lt_of_lt_of_le hp hu.1.dicts_le
    rw [Store.dict_push, if_neg (Nat.ne_of_lt hlt), hu.1.dicts p hp]

/-- After the fields of a legend are put into a mapping, a key is bound to one of them, or to what it was bound to. -/
theorem mergeLegend_ensures {context : Nat} {w : World} (h : context < w.store.dicts.size) (l : Legend) :
    (mergeLegend context l).Ensures w fun _ w' => ∀ key v, w'.binding? context key = some v →
      (key, v) ∈ l.givenFields ∨ w.binding? context key = some v := by
  refine (legendFields_ensures l w).bind fun fields u hu => ?_
  obtain ⟨place, rfl, hfields, hle, hkept⟩ := hu
  refine .step (setDict_run context ((u.store.dict context).merge (u.store.dict place)) u) fun key v hv => ?_
  rw [World.binding?, World.dict_withDict, if_pos ⟨rfl, Nat.lt_of_lt_of_le h hle⟩, hfields, hkept context h] at hv
  refine (Entries.find?_merge (named_givenEntries l) hv).imp_left fun hgiven => ?_
  obtain ⟨f, hf, heq⟩ := mem_givenEntries hgiven
  cases heq
  exact hf

end Run

theorem Store.equal_text (s : Store) (t u : String) : s.equal (.text t) (.text u) = .ok (t == u) := rfl

namespace Run

/-- A legend that is found by a name has the name. -/
theorem legendNamed_ensures (m : Metadata) (name : String) (w : World) :
    (legendNamed m (.text name)).Ensures w fun v w' => w' = w ∧ ∀ p, v = .legend p → (w.store.legend p).name = name :=
  go (w.store.list m.files)
where
  go : ∀ vs : List Value, (legendNamed.go (.text name) vs).Ensures w fun v w' =>
      w' = w ∧ ∀ p, v = .legend p → (w.store.legend p).name = name
    | [] => .pure ⟨rfl, nofun⟩
    | v :: vs => by
      unfold legendNamed.go
      split
      · contradiction
      · rename_i p rest heq
        cases heq
        refine (read_ensures _ w).bind fun found w' hfound => ?_
        obtain ⟨hworld, hfound⟩ := hfound
        subst w'
        rw [Store.equal_text] at hfound
        cases hfound
        split
        · rename_i hname
          refine .pure ⟨rfl, fun q hq => ?_⟩
          cases hq
          exact beq_iff_eq.1 hname
        · exact go _
      · exact .throw

end Run

theorem Directories.legendAt?_ensures (ds : Directories) (path : String) (w : World) :
    (ds.legendAt? path).Ensures w fun l w' => w' = w ∧
      ∀ p, l = some p → (ds.metadataAt? path).isSome ∧ (w.store.legend p).name = Path.name path := by
  unfold legendAt?
  cases ds.metadataAt? path with
  | none => exact .pure ⟨rfl, nofun⟩
  | some m =>
    refine (Run.legendNamed_ensures (w.store.metadataAt m) (Path.name path) w).bind fun v w' hv => ?_
    obtain ⟨rfl, hv⟩ := hv
    split
    · refine .pure ⟨rfl, fun p hp => ?_⟩
      cases hp
      exact ⟨rfl, hv _ rfl⟩
    · exact .pure ⟨rfl, nofun⟩

namespace Engine

variable {e : Engine}

/-- The value is the content that a legend of the file at a path gives, other than a legend that echoes a group. -/
def LegendContent (e : Engine) (path : String) (s : Store) (v : Value) : Prop :=
  (e.directories.metadataAt? path).isSome ∧
    ∃ l, (s.legend l).name = Path.name path ∧ (s.legend l).echoes = false ∧ (contentKey, v) ∈ (s.legend l).extras

theorem mem_extras {l : Legend} {v : Value} (h : (contentKey, v) ∈ l.givenFields) : (contentKey, v) ∈ l.extras := by
  have hname : contentKey ≠ "name" := by decide
  have hecho : contentKey ≠ "echo" := by decide
  unfold Legend.givenFields at h
  split at h <;> simpa [hname, hecho] using h

theorem lt_size_of_mem_extras {s : Store} {p : Nat} {f : String × Value} (h : f ∈ (s.legend p).extras) :
    p < s.legends.size := by
  by_contra hp
  rw [Store.legend, Array.getElem?_eq_none (Nat.le_of_not_lt hp)] at h
  exact absurd h List.not_mem_nil

theorem LegendContent.mono {path : String} {w w' : World} {v : Value} (h : e.LegendContent path w.store v)
    (hw : Rendering w w') : e.LegendContent path w'.store v := by
  obtain ⟨hm, l, hl⟩ := h
  have heq := hw.legends l (lt_size_of_mem_extras hl.2.2)
  exact ⟨hm, l, by rwa [heq]⟩

/-- After the legend of a file is merged into a context, the content is what it was, or what the legend gives. -/
theorem mergeLegendAt_ensures {path : String} {context : Nat} {w : World} (h : context < w.store.dicts.size) :
    (do
      if let some l ← e.directories.legendAt? path then
        let legend := (← Run.store).legend l
        if !legend.echoes then Run.mergeLegend context legend).Ensures w fun _ w' =>
      ∀ v, w'.binding? context contentKey = some v →
        w.binding? context contentKey = some v ∨ e.LegendContent path w'.store v := by
  refine (e.directories.legendAt?_ensures path w).bind fun l w' hl => ?_
  obtain ⟨hworld, hl⟩ := hl
  subst w'
  split
  · rename_i p
    obtain ⟨hm, hname⟩ := hl p rfl
    refine .step_bind (a := w.store) rfl ?_
    dsimp only
    split
    · rename_i hechoes
      have hmerge := Run.mergeLegend_confined_whole (R := Rendering) context (w.store.legend p)
      refine ((Run.mergeLegend_ensures h _).and (.of_confined hmerge w)).mono fun _ u hu v hv => ?_
      obtain ⟨hentry, hrendering, -⟩ := hu
      rcases hentry contentKey v hv with hgiven | hold
      · refine .inr (LegendContent.mono ⟨hm, p, hname, by simpa using hechoes, mem_extras hgiven⟩ hrendering)
      · exact .inl hold
    · exact .pure fun v hv => .inl hv
  · exact .pure fun v hv => .inl hv

/-- Where a context is prepared for a template, the content is a text, or what the legend gives. -/
theorem ensureDefaults_ensures {path : String} {context : Nat} {w : World} (h : context < w.store.dicts.size) :
    (e.ensureDefaults (.text path) (.dict context)).Ensures w fun _ w' =>
      ∀ v, w'.binding? context contentKey = some v → (∃ t, v = .text t) ∨ e.LegendContent path w'.store v := by
  have htext (u : World) (hu : u.binding? context contentKey = (w.prepared context).binding? context contentKey)
      (v : Value) (hv : u.binding? context contentKey = some v) : ∃ t, v = .text t := by
    obtain ⟨t, ht⟩ := World.binding?_withText h contentKey
    rw [hu, World.binding?_prepared h, ht] at hv
    exact ⟨t, (Option.some.inj hv).symm⟩
  unfold ensureDefaults
  refine .step_bind (a := path) rfl (.step_bind (a := context) rfl ?_)
  refine .step_bind (ensureText_run ..) (.step_bind (ensureText_run ..) (.step_bind (setKey_run ..) ?_))
  have hsize : context < (w.prepared context).store.dicts.size := by simpa using h
  split
  · rename_i m
    refine .step_bind (setKey_run ..) ((mergeLegendAt_ensures (by simpa using h)).mono fun _ u hu v hv => ?_)
    refine (hu v hv).imp_left (htext _ ?_ v)
    exact (World.binding?_withEntry hsize metaKey contentKey _).trans (if_neg (by decide))
  · exact (mergeLegendAt_ensures hsize).mono fun _ u hu v hv => (hu v hv).imp_left (htext _ rfl v)

/-! ## Levels -/

/-- The value is the content that the legend of the outermost level of a page gives, and the level has no template. -/
def OutermostContent (e : Engine) (path : String) (s : Store) (v : Value) : Prop :=
  ∃ level, (Path.ancestorChain path).getLast? = some level ∧ e.template? (levelKey level) = none ∧
    e.LegendContent (Path.normalize level) s v

/-- The value is a text, or what the legend of the outermost level of a page gives. -/
def IsDocument (e : Engine) (path : String) (s : Store) (v : Value) : Prop :=
  (∃ t, v = .text t) ∨ e.OutermostContent path s v

theorem IsDocument.mono {path : String} {w w' : World} {v : Value} (h : e.IsDocument path w.store v)
    (hw : Rendering w w') : e.IsDocument path w'.store v :=
  h.imp_right fun ⟨level, hlast, hnone, hlegend⟩ => ⟨level, hlast, hnone, hlegend.mono hw⟩

theorem textArgument_ensures (label : String) (v : Value) (w : World) :
    (Run.textArgument label v).Ensures w fun t w' => w' = w ∧ v = .text t := by
  unfold Run.textArgument
  split
  · exact .pure ⟨rfl, rfl⟩
  · exact .step_bind (a := w.store) rfl .throw

theorem nonemptyArgument_ensures (label : String) (v : Value) (w : World) :
    (Run.nonemptyArgument label v).Ensures w fun t w' => w' = w ∧ v = .text t := by
  refine (textArgument_ensures label v w).bind fun t w' ht => ?_
  split
  · exact .throw
  · exact .pure ht

theorem reporting_ensures {α : Type} {path : String} {run : Run α} {w : World} {Q : α → World → Prop}
    (h : run.Ensures w Q) : (reporting path run).Ensures w Q := by
  intro a w' hrun
  unfold reporting at hrun
  rw [Run.run_tryCatch] at hrun
  rcases hm : run.run.run w with ⟨f | b, u⟩
  · rw [hm] at hrun
    cases hrun
  · rw [hm] at hrun
    cases hrun
    exact h a w' hm

/-- A level puts out a text, unless it has no template and its legend gives the content. -/
theorem renderOne_ensures {level : String} {context : Nat} {w : World} (h : context < w.store.dicts.size) :
    (e.renderOne (.text level) (.dict context)).Ensures w fun v w' => (∃ t, v = .text t) ∨
      e.template? (levelKey level) = none ∧ e.LegendContent (Path.normalize level) w'.store v := by
  unfold renderOne includeLimit renderTo
  refine (nonemptyArgument_ensures _ _ w).bind fun t w' ht => ?_
  obtain ⟨hworld, heq⟩ := ht
  cases heq
  subst w'
  refine .step_bind (a := context) rfl ((ensureDefaults_ensures h).bind fun _ u hu => reporting_ensures ?_)
  split
  · exact .map fun t _ _ => .inl ⟨t, rfl⟩
  · rename_i hnone
    refine .step (passedContent_run context u) ?_
    unfold World.content
    cases hv : u.binding? context contentKey with
    | none => exact .inl ⟨"", rfl⟩
    | some v => exact (hu v hv).imp_right fun hlegend => ⟨hnone, hlegend⟩

/-- Renders one level after the other, each with what the one before it put out as the content. -/
def renderLevels (e : Engine) (context : Nat) (levels : List String) : Run PUnit :=
  levels.forM fun level => do setKey context contentKey (← e.renderOne (.text level) (.dict context))

theorem renderLevels_confined (he : e.Lawful .whole) (context : Nat) (levels : List String) :
    Confined .whole Rendering (e.renderLevels context levels) fun _ => True :=
  Confined.forM fun _ _ => (renderOne_confined he _ _).bind fun v _ => setKey_confined_whole context contentKey v

/-- It is the last level that the content comes from. -/
theorem renderLevels_ensures (he : e.Lawful .whole) {context : Nat} {w : World} (h : context < w.store.dicts.size)
    (inner : List String) (level : String) :
    (e.renderLevels context (inner ++ [level])).Ensures w fun _ w' => (∃ t, w'.content context = .text t) ∨
      e.template? (levelKey level) = none ∧ e.LegendContent (Path.normalize level) w'.store (w'.content context) := by
  have hsplit : e.renderLevels context (inner ++ [level]) = (do
      e.renderLevels context inner
      setKey context contentKey (← e.renderOne (.text level) (.dict context))) := by
    unfold renderLevels
    rw [List.forM_eq_forM, List.forM_append]
    simp
  rw [hsplit]
  refine (Run.Ensures.of_confined (renderLevels_confined he context inner) w).bind fun _ u hu => ?_
  have hbound : context < u.store.dicts.size := Nat.lt_of_lt_of_le h hu.1.dicts_le
  have hone := (Run.Ensures.of_confined (R := Rendering) (renderOne_confined he (.text level) (.dict context)) u).and
    (renderOne_ensures hbound)
  refine hone.bind fun v v' hv => .step (setKey_run context contentKey v v') ?_
  have hcontent : (v'.withEntry context contentKey v).content context = v := by
    rw [World.content, World.binding?_withEntry (Nat.lt_of_lt_of_le hbound hv.1.1.dicts_le), if_pos rfl,
      Option.getD_some]
  rw [hcontent]
  exact hv.2

end Engine

end NestedSite
