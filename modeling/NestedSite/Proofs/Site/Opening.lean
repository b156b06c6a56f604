import NestedSite.Proofs.Ancestors
import NestedSite.Proofs.Site.Content

/-!
# Where the template of a page starts

A page of a template whose last segment has no point begins with this template (`Engine.renderBranch_eq`). Up to there,
the context is prepared: it gets the place of the document, what every template finds in it, and the metadata of the
directory. The fields of the legend are merged into it only if the legend that is found then does not echo a group, so
that otherwise all other keys are bound as they were (`Engine.openBranch_ensures`). Which legend is found does not
depend on mappings (`Directories.legendAt?_run`).
-/

namespace NestedSite

/-! ## Legends and mappings -/

/-- The mappings of the other world are others, if anything. -/
structure World.AlikeRecords (w w' : World) : Prop where
  lists : w'.store.lists = w.store.lists
  legends : w'.store.legends = w.store.legends
  metadata : w'.store.metadata = w.store.metadata

namespace World.AlikeRecords

variable {w w' : World}

theorem refl (w : World) : w.AlikeRecords w := ⟨rfl, rfl, rfl⟩

theorem trans {w'' : World} (h : w.AlikeRecords w') (k : w'.AlikeRecords w'') : w.AlikeRecords w'' :=
  ⟨k.lists.trans h.lists, k.legends.trans h.legends, k.metadata.trans h.metadata⟩

theorem withEntry (h : w.AlikeRecords w') (place : Nat) (key : String) (v : Value) :
    w.AlikeRecords (w'.withEntry place key v) := ⟨h.lists, h.legends, h.metadata⟩

theorem withText (h : w.AlikeRecords w') (place : Nat) (key : String) : w.AlikeRecords (w'.withText place key) := by
  unfold World.withText
  split
  · exact h
  · exact h.withEntry place key _

theorem prepared (h : w.AlikeRecords w') (place : Nat) : w.AlikeRecords (w'.prepared place) :=
  ((h.withText place contentKey).withText place titleKey).withEntry place selfKey _

end World.AlikeRecords

/-- Another store has the lists, legends and metadata of the region as they are. -/
structure Region.AlikeRecords (r : Region) (s t : Store) : Prop where
  lists : ∀ p, r.lists p → t.list p = s.list p
  legends : ∀ p, r.legends p → t.legend p = s.legend p
  metadata : ∀ p, r.metadata p → t.metadataAt p = s.metadataAt p

theorem World.AlikeRecords.region {w w' : World} (h : w.AlikeRecords w') (r : Region) :
    r.AlikeRecords w.store w'.store where
  lists p _ := by rw [Store.list, Store.list, h.lists]
  legends p _ := by rw [Store.legend, Store.legend, h.legends]
  metadata p _ := by rw [Store.metadataAt, Store.metadataAt, h.metadata, h.lists]

/-- Looking for a legend finds one of the region, changes nothing, and only the legends of the region matter for it. -/
theorem Run.legendNamed_go_run {r : Region} (name : String) {vs : List Value} (hvs : ∀ v ∈ vs, v.In r) (s : Store) :
    ∃ o : Except Fault Value, (∀ p, o = .ok (.legend p) → r.legends p) ∧
      ∀ u : World, (∀ p, r.legends p → u.store.legend p = s.legend p) →
        (legendNamed.go (.text name) vs).run.run u = (o, u) := by
  induction vs with
  | nil => exact ⟨.ok .none, fun p hp => (by cases hp), fun u _ => rfl⟩
  | cons v vs ih =>
    obtain ⟨hv, hrest⟩ := List.forall_mem_cons.1 hvs
    cases v with
    | legend p =>
      have hread (u : World) (hu : ∀ p, r.legends p → u.store.legend p = s.legend p) :
          (read fun s => s.equal (.text (s.legend p).name) (.text name)).run.run u =
            (.ok ((s.legend p).name == name), u) := by
        rw [← hu p hv]
        rfl
      by_cases hname : ((s.legend p).name == name) = true
      · refine ⟨.ok (.legend p), fun q hq => by cases hq; exact hv, fun u hu => ?_⟩
        rw [legendNamed.go, run_bind, hread u hu, hname]
        rfl
      · obtain ⟨o, ho, ih⟩ := ih hrest
        refine ⟨o, ho, fun u hu => ?_⟩
        rw [legendNamed.go, run_bind, hread u hu]
        dsimp only
        rw [if_neg hname]
        exact ih u hu
    | _ => exact ⟨.error .missingAttribute, fun p hp => (by cases hp), fun u _ => rfl⟩

/-- The legend of a path lies in the region of the metadata, and nothing outside of the region matters for it. -/
theorem Directories.legendAt?_run_in {r : Region} {s : Store} (hlists : ∀ p, r.lists p → ∀ v ∈ s.list p, v.In r)
    (hmetadata : ∀ p, r.metadata p → (s.metadataAt p).In r) {ds : Directories} (hds : Engine.DirectoriesIn r ds)
    (path : String) : ∃ o : Except Fault (Option Nat), (∀ p, o = .ok (some p) → r.legends p) ∧
      ∀ u : World, r.AlikeRecords s u.store → (ds.legendAt? path).run.run u = (o, u) := by
  unfold legendAt?
  cases hm : ds.metadataAt? path with
  | none => exact ⟨.ok none, fun p hp => (by cases hp), fun u _ => rfl⟩
  | some m =>
    have hin := Engine.metadataAt?_in hds m hm
    have hfiles := (hmetadata m hin).files
    obtain ⟨o, ho, hgo⟩ := Run.legendNamed_go_run (Path.name path) (hlists _ hfiles) s
    have hnamed (u : World) (hu : r.AlikeRecords s u.store) :
        (Run.legendNamed (u.store.metadataAt m) (.text (Path.name path))).run.run u = (o, u) := by
      have hread : (Run.list (s.metadataAt m).files).run.run u = (.ok (u.store.list (s.metadataAt m).files), u) := rfl
      unfold Run.legendNamed
      rw [hu.metadata m hin, Run.run_bind, hread, hu.lists _ hfiles]
      exact hgo u hu.legends
    have hstore (u : World) : Run.store.run.run u = (.ok u.store, u) := rfl
    simp only [Run.run_bind, hstore]
    cases o with
    | error f => exact ⟨.error f, fun p hp => (by cases hp), fun u hu => by rw [hnamed u hu]⟩
    | ok v =>
      cases v with
      | legend p =>
        refine ⟨.ok (some p), fun q hq => ?_, fun u hu => by rw [hnamed u hu]; rfl⟩
        cases hq
        exact ho p rfl
      | _ => exact ⟨.ok none, fun p hp => (by cases hp), fun u hu => by rw [hnamed u hu]; rfl⟩

/-- The mappings do not matter for the legend of a path. -/
theorem Directories.legendAt?_run (ds : Directories) (path : String) (w : World) : ∃ o, ∀ u, w.AlikeRecords u →
    (ds.legendAt? path).run.run u = (o, u) := by
  have hholds := Region.whole_holds w.store
  have hds : Engine.DirectoriesIn .whole ds := fun _ _ => trivial
  obtain ⟨o, -, hrun⟩ := legendAt?_run_in hholds.lists hholds.metadata hds path
  exact ⟨o, fun u hu => hrun u (hu.region _)⟩

/-! ## The halves of a branch -/

namespace Engine

variable {e : Engine} {path : String}

/-- Wherever a legend is found for the page, it echoes a group. -/
def EchoesStill (e : Engine) (path : String) (w : World) : Prop :=
  ∀ place, (e.directories.legendAt? path).outcome w = .ok (some place) → (w.store.legend place).echoes = true

/-- The first half of a branch, up to where the template of the page starts. It says where the document goes. -/
def openBranch (e : Engine) (path : String) (context : Nat) : Run String := do
  let name ← match (← Run.dict context).find? (.text nameKey) with
    | some v => Run.text v
    | none => throw .missingKey
  let place := Path.join (Path.parent path) [name]
  setKey context pathKey (.text place)
  e.ensureDefaults (.text path) (.dict context)
  return place

/-- The second half of a branch, which starts with the template of the page. -/
def closeBranch (e : Engine) (t : Template) (path : String) (context : Nat) (place : String) :
    Run (String × Value) := do
  let own ← reporting path (Value.text <$> t.render (e.host (includeLimit - 1)) e.scope (some context))
  setKey context contentKey own
  (Path.ancestorChain path).tail.forM fun level => do
    setKey context contentKey (← e.renderOne (.text level) (.dict context))
  let document ← passedContent context
  let target ← Run.read fun _ => Renaming.target e.rename place
  return (target, document)

/-- The page of a template whose last segment has no point begins with the template. -/
theorem renderBranch_eq (he : e.Reached) (hp : path ∈ e.paths) (hdots : '.' ∉ (Path.name path).toList) :
    ∃ t, e.template? path = some t ∧
      ∀ context, e.renderBranch path context = e.openBranch path context >>= e.closeBranch t path context := by
  obtain ⟨⟨t, ht⟩, hthrough, hkey⟩ := renderThrough_innermost he hp
  have hwithout : Path.withoutExtension path = path := Path.withoutExtension_of_name hdots
  have hlooked : levelKey path = path :=
    (hwithout ▸ hkey).2 ((Path.withoutExtension_eq_self_iff path).1 hwithout)
  refine ⟨t, ht, fun context => ?_⟩
  have hlevel : e.renderLevel path context = (do
      e.ensureDefaults (.text path) (.dict context)
      reporting path (Value.text <$> t.render (e.host (includeLimit - 1)) e.scope (some context))) := by
    unfold renderLevel
    rw [hlooked, ht]
  unfold renderBranch openBranch closeBranch
  simp only [hthrough, hwithout, hlevel, bind_assoc]
  refine bind_congr fun es => ?_
  cases es.find? (.text nameKey) with
  | none => simp only [bind_assoc, pure_bind]
  | some v => simp only [bind_assoc, pure_bind]

/-- The keys that a rendering binds by itself. -/
def reservedKeys : List String := [contentKey, titleKey, pathKey, selfKey, metaKey]

/-- Where the template of a page starts in a branch: the name and the place are those of the branch, and the other keys
that are not reserved are bound as in the context that was made for it. -/
structure Opened (w : World) (path name : String) (context : Nat) (u : World) : Prop where
  named : u.binding? context nameKey = some (.text name)
  place : u.binding? context pathKey = some (.text (Path.join (Path.parent path) [name]))
  others : ∀ key ∉ reservedKeys, u.binding? context key = w.binding? context key

theorem binding?_prepared_of_ne {w : World} {context : Nat} (h : context < w.store.dicts.size) {key : String}
    (hcontent : contentKey ≠ key) (htitle : titleKey ≠ key) (hself : selfKey ≠ key) :
    (w.prepared context).binding? context key = w.binding? context key := by
  unfold World.prepared
  rw [World.binding?_withEntry (by simpa using h), if_neg hself, World.binding?_withText_of_ne (by simpa using h) htitle,
    World.binding?_withText_of_ne h hcontent]

/-- What is bound in a context before the template of a page starts, the directory's part apart. -/
theorem opened_prepared {context : Nat} {w : World} (h : context < w.store.dicts.size) {name : String}
    (hname : w.binding? context nameKey = some (.text name)) : Opened w path name context
      ((w.withEntry context pathKey (.text (Path.join (Path.parent path) [name]))).prepared context) := by
  have hbound : ∀ key, contentKey ≠ key → titleKey ≠ key → selfKey ≠ key →
      ((w.withEntry context pathKey (.text (Path.join (Path.parent path) [name]))).prepared context).binding? context
        key = if pathKey = key then some (.text (Path.join (Path.parent path) [name])) else w.binding? context key :=
    fun key hcontent htitle hself => by
      rw [binding?_prepared_of_ne (by simpa using h) hcontent htitle hself, World.binding?_withEntry h]
  refine ⟨?_, ?_, fun key hkey => ?_⟩
  · rw [hbound nameKey (by decide) (by decide) (by decide), if_neg (by decide), hname]
  · rw [hbound pathKey (by decide) (by decide) (by decide), if_pos rfl]
  · simp only [reservedKeys, List.mem_cons, List.not_mem_nil, or_false, not_or] at hkey
    obtain ⟨hcontent, htitle, hpath, hself, -⟩ := hkey
    rw [hbound key (Ne.symm hcontent) (Ne.symm htitle) (Ne.symm hself), if_neg (Ne.symm hpath)]

theorem Opened.withMeta {context : Nat} {w u : World} {name : String} (h : Opened w path name context u)
    (hlt : context < u.store.dicts.size) (m : Nat) :
    Opened w path name context (u.withEntry context metaKey (.metadata m)) := by
  refine ⟨?_, ?_, fun key hkey => ?_⟩
  · rw [World.binding?_withEntry hlt, if_neg (by decide), h.named]
  · rw [World.binding?_withEntry hlt, if_neg (by decide), h.place]
  · have hne : metaKey ≠ key := by
      rintro rfl
      exact hkey (by decide)
    rw [World.binding?_withEntry hlt, if_neg hne, h.others key hkey]

/-- The legend of the page adds nothing as long as it echoes a group. -/
theorem mergeLegendAt_opened {context : Nat} {w u : World} {name : String} (hu : w.AlikeRecords u)
    (h : Opened w path name context u) : (do
      if let some l ← e.directories.legendAt? path then
        let legend := (← Run.store).legend l
        if !legend.echoes then Run.mergeLegend context legend).Ensures u fun _ v =>
      e.EchoesStill path w → Opened w path name context v := by
  obtain ⟨o, hlegend⟩ := e.directories.legendAt?_run path w
  have hfound : (e.directories.legendAt? path).outcome w = o := congrArg Prod.fst (hlegend w (.refl w))
  cases o with
  | error f =>
    have hfails : (e.directories.legendAt? path).Ensures u fun _ _ => False :=
      .of_run_eq (n := throw f) (hlegend u hu) .throw
    exact hfails.bind fun _ _ hnone => hnone.elim
  | ok l =>
    refine .step_bind (hlegend u hu) ?_
    cases l with
    | none => exact .pure fun _ => h
    | some place =>
      refine .step_bind (a := u.store) rfl ?_
      dsimp only
      split
      · rename_i hechoes
        refine (Run.Ensures.anything _ u).mono fun _ _ _ hstill => ?_
        have hsame : u.store.legend place = w.store.legend place := by rw [Store.legend, Store.legend, hu.legends]
        rw [hsame, hstill place hfound] at hechoes
        cases hechoes
      · exact .pure fun _ => h

theorem furnish_opened {context : Nat} {w u : World} {name : String} (hu : w.AlikeRecords u)
    (hlt : context < u.store.dicts.size) (h : Opened w path name context u) :
    (e.furnish path context).Ensures u fun _ v => e.EchoesStill path w → Opened w path name context v := by
  unfold furnish
  split
  · exact .step_bind (setKey_run ..) (mergeLegendAt_opened (hu.withEntry ..) (h.withMeta hlt _))
  · exact mergeLegendAt_opened hu h

/-- If no legend is merged into the context of a branch, it is as it was made but for what is reserved. -/
theorem openBranch_ensures {context : Nat} {w : World} (h : context < w.store.dicts.size) {name : String}
    (hname : w.binding? context nameKey = some (.text name)) :
    (e.openBranch path context).Ensures w fun place u => place = Path.join (Path.parent path) [name] ∧
      (e.EchoesStill path w → Opened w path name context u) := by
  have hlookup : (w.store.dict context).find? (.text nameKey) = some (.text name) := hname
  unfold openBranch
  refine .step_bind (a := w.store.dict context) rfl ?_
  rw [hlookup]
  refine .step_bind (a := name) rfl (.step_bind (setKey_run ..) ?_)
  rw [ensureDefaults_eq]
  simp only [bind_assoc]
  refine .step_bind (ensureText_run ..) (.step_bind (ensureText_run ..) (.step_bind (setKey_run ..) ?_))
  have halike := ((World.AlikeRecords.refl w).withEntry context pathKey
    (.text (Path.join (Path.parent path) [name]))).prepared context
  refine (furnish_opened halike (by simpa using h) (opened_prepared h hname)).bind fun _ u hu => ?_
  exact .pure ⟨rfl, hu⟩

/-- The document of a branch goes to the place that is found first. -/
theorem closeBranch_ensures (hrename : e.rename = none) (t : Template) (context : Nat) (place : String) (w : World) :
    (e.closeBranch t path context place).Ensures w fun doc _ => doc.1 = place := by
  unfold closeBranch
  refine (Run.Ensures.anything _ w).bind fun own u _ => .step_bind (setKey_run ..) ?_
  refine (Run.Ensures.anything _ _).bind fun _ v _ => .step_bind (passedContent_run ..) ?_
  rw [hrename]
  refine (Run.read_ensures _ v).bind fun target v' htarget => .pure ?_
  exact (Except.ok.inj htarget.2).symm

end Engine

end NestedSite
