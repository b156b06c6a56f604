import NestedSite.Proofs.Relocation.Keeping
import NestedSite.Proofs.Site.Sandbox
import NestedSite.Proofs.Site.Content

/-!
# Branches of a page

A page that echoes a group has a context for each element of the group. The elements are legends, or can be read as such
(`Store.groupLegends?`); otherwise there are no contexts, but a fault of the echo (`Engine.pageContexts_refuses`). The
contexts are new mappings, one for each element, in the order of the group; each holds the entries of the data, under
those the legend of the page gives, under those its own element gives (`Engine.pageContexts_ensures`). Making them leaves
everything else as it is (`Store.Makes`).
-/

namespace NestedSite

/-! ## Groups -/

/-- What a group of a directory's metadata is bound to, by its name. -/
def Metadata.group (m : Metadata) (name : String) : Value :=
  match name with
  | "ignore" => (m.ignore.map Value.text).getD .none
  | "files" => .list m.files
  | name => ((m.extras.find? fun (k, _) => k == name).map Prod.snd).getD .none

namespace Store

/-- An element of a group as a legend, if it is one or can be read as one. -/
def asLegend? (s : Store) : Value → Option Legend
  | .legend p => some (s.legend p)
  | .dict p => (Legend.ofEntries s (s.dict p)).toOption
  | _ => none

/-- The legends of a group, which is a list of them and not empty. -/
def groupLegends? (s : Store) : Value → Option (List Legend)
  | .list q => if (s.list q).isEmpty then none else (s.list q).mapM s.asLegend?
  | _ => none

theorem groupLegends?_of_nil {s : Store} {q : Nat} (h : s.list q = []) : s.groupLegends? (.list q) = none := by
  simp [groupLegends?, h]

theorem groupLegends?_of_ne_nil {s : Store} {q : Nat} (h : s.list q ≠ []) :
    s.groupLegends? (.list q) = (s.list q).mapM s.asLegend? := by
  simp [groupLegends?, h]

end Store

/-! ## Reading elements -/

theorem splitKeys_cons_of_ne (s : Store) {k : Value} (hk : ∀ t, k ≠ .text t) (v : Value) (es : Entries) :
    splitKeys s ((k, v) :: es) = ((splitKeys s es).1, ⟨[s.keyName k], .badKey⟩ :: (splitKeys s es).2) := by
  cases k with
  | text t => exact absurd rfl (hk t)
  | _ => rfl

/-- The store is asked for the names of keys that are no texts only. -/
theorem splitKeys_congr (s t : Store) (es : Entries) :
    (splitKeys t es).1 = (splitKeys s es).1 ∧ ((splitKeys t es).2 = [] ↔ (splitKeys s es).2 = []) := by
  induction es with
  | nil => simp [splitKeys]
  | cons e es ih =>
    obtain ⟨k, v⟩ := e
    by_cases hk : ∀ t, k ≠ .text t
    · rw [splitKeys_cons_of_ne s hk, splitKeys_cons_of_ne t hk]
      exact ⟨ih.1, iff_of_false (List.cons_ne_nil _ _) (List.cons_ne_nil _ _)⟩
    · obtain ⟨name, rfl⟩ := not_forall_not.1 hk
      exact ⟨congrArg ((name, v) :: ·) ih.1, ih.2⟩

theorem Legend.ofEntries_congr (s t : Store) (es : Entries) :
    (ofEntries t es).toOption = (ofEntries s es).toOption := by
  obtain ⟨hfields, hissues⟩ := splitKeys_congr s t es
  unfold ofEntries
  rcases hs : splitKeys s es with ⟨fields, issues⟩
  rcases ht : splitKeys t es with ⟨fields', issues'⟩
  rw [hs, ht] at hfields hissues
  obtain rfl : fields' = fields := hfields
  cases issues' with
  | nil =>
    obtain rfl : issues = [] := hissues.1 rfl
    rfl
  | cons i is =>
    cases issues with
    | nil => cases hissues.2 rfl
    | cons j js =>
      dsimp only
      repeat' split
      all_goals first | contradiction | rfl

/-- What is there is read as the same legend when more has come. -/
theorem Store.Keeps.asLegend? {s t : Store} (h : s.Keeps t) {v : Value} (hthere : s.Unaltered [v] s) :
    t.asLegend? v = s.asLegend? v := by
  have hv : s.Reaches [v] v := .root List.mem_cons_self
  cases v with
  | legend p => exact congrArg some (h.legends p (hthere.legends p hv).1).2
  | dict p =>
    have hentries : t.dict p = s.dict p := (h.dicts p (hthere.dicts p hv).1).2
    have hread : t.asLegend? (.dict p) = (Legend.ofEntries t (s.dict p)).toOption := by rw [← hentries]; rfl
    exact hread.trans (Legend.ofEntries_congr s t _)
  | _ => rfl

theorem Store.Unaltered.one {s t : Store} {roots : List Value} {v : Value} (h : s.Unaltered roots t)
    (hv : s.Reaches roots v) : s.Unaltered [v] t :=
  h.mono fun _ hu => List.mem_singleton.1 hu ▸ hv

theorem metadataGroup_run (m : Metadata) (name : String) (w : World) :
    (Run.metadataGroup m (.text name)).run.run w = (.ok (m.group name), w) := by
  have hkey : Run.metadataGroup m (.text name) = pure (m.group name) := by
    unfold Run.metadataGroup Metadata.group
    rw [show (Value.key (.text name) : Run Value) = pure (.text name) from rfl, pure_bind]
    split <;> grind
  rw [hkey]
  rfl

namespace Run

/-- An element is read as the legend that it is, or refused by the echo. -/
theorem echoLegend_cases (group : String) (index : Nat) (v : Value) (w : World) :
    match w.store.asLegend? v with
    | some l => ∃ w', (echoLegend group index v).run.run w = (.ok l, w') ∧ w.store.Keeps w'.store
    | none => ∃ f, (echoLegend group index v).run.run w = (.error (.echo f), w) := by
  cases v with
  | legend p => exact ⟨w, rfl, .refl w.store⟩
  | dict p =>
    rw [show w.store.asLegend? (.dict p) = (Legend.ofEntries w.store (w.store.dict p)).toOption from rfl]
    cases hentries : Legend.ofEntries w.store (w.store.dict p) with
    | ok l =>
      have hlegendOf : (legendOf? (.dict p)).run.run w = (.ok (.ok (.legend w.store.legends.size)),
          { w with store := { w.store with legends := w.store.legends.push l } }) := by
        unfold legendOf?
        rw [run_bind, store_run]
        dsimp only
        rw [run_bind, dict_run]
        dsimp only
        rw [hentries]
        rfl
      refine ⟨{ w with store := { w.store with legends := w.store.legends.push l } }, ?_, .pushLegend w.store l⟩
      have hnew : ({ w.store with legends := w.store.legends.push l } : Store).legend w.store.legends.size = l := by
        simp [Store.legend]
      unfold echoLegend
      rw [run_bind, hlegendOf]
      exact Prod.ext (congrArg Except.ok hnew) rfl
    | error issues =>
      have hlegendOf : (legendOf? (.dict p)).run.run w = (.ok (.error issues), w) := by
        unfold legendOf?
        rw [run_bind, store_run]
        dsimp only
        rw [run_bind, dict_run]
        dsimp only
        rw [hentries]
        rfl
      unfold echoLegend
      rw [run_bind, hlegendOf]
      exact ⟨_, rfl⟩
  | _ => exact ⟨_, rfl⟩

/-- Elements are read as legends one after the other; the first that is none is refused. -/
theorem echoLegends_cases {s : Store} (group : String) (vs : List Value) (hthere : ∀ v ∈ vs, s.Unaltered [v] s) (n : Nat)
    {w : World} (h : s.Keeps w.store) :
    match vs.mapM s.asLegend? with
    | some ls => ∃ w', (echoLegends group n vs).run.run w = (.ok ls, w') ∧ w.store.Keeps w'.store
    | none => ∃ f w', (echoLegends group n vs).run.run w = (.error (.echo f), w') := by
  induction vs generalizing n w with
  | nil => exact ⟨w, rfl, .refl w.store⟩
  | cons v vs ih =>
    obtain ⟨hv, hvs⟩ := List.forall_mem_cons.1 hthere
    have hhead := echoLegend_cases group n v w
    rw [h.asLegend? hv] at hhead
    rw [List.mapM_cons]
    unfold echoLegends
    rw [run_bind]
    cases hl : s.asLegend? v with
    | none =>
      rw [hl] at hhead
      obtain ⟨f, hrun⟩ := hhead
      rw [hrun]
      exact ⟨f, w, rfl⟩
    | some l =>
      rw [hl] at hhead
      obtain ⟨u, hrun, hu⟩ := hhead
      rw [hrun]
      dsimp only
      have hrest := ih hvs (n + 1) (h.trans hu)
      rw [run_bind]
      cases hls : vs.mapM s.asLegend? with
      | none =>
        rw [hls] at hrest
        obtain ⟨f, w', hrun'⟩ := hrest
        rw [hrun']
        exact ⟨f, w', rfl⟩
      | some ls =>
        rw [hls] at hrest
        obtain ⟨w', hrun', hw'⟩ := hrest
        rw [hrun']
        exact ⟨w', rfl, hu.trans hw'⟩

/-- What the echo of a legend makes of the attribute it names. -/
def echoed (l : Legend) (group : String) : Value → Run (String × List Value)
  | .none => throw (.echo (.missingGroup l.name group))
  | .list q => do
    let elements ← list q
    if elements.isEmpty then throw (.echo (.emptyGroup group)) else return (group, elements)
  | v => do throw (.echo (.notList group (v.typeName (← store))))

/-- The group of a legend is a list that is not empty, or refused by the echo. -/
theorem echoGroup_run {l : Legend} {group : String} (hecho : l.echo = some group) (hne : group ≠ "") (m : Nat)
    (w : World) :
    (∃ q, (w.store.metadataAt m).group group = .list q ∧ w.store.list q ≠ [] ∧
        (echoGroup (some m) l).run.run w = (.ok (group, w.store.list q), w)) ∨
      (∀ q, (w.store.metadataAt m).group group = .list q → w.store.list q = []) ∧
        ∃ f, (echoGroup (some m) l).run.run w = (.error (.echo f), w) := by
  have hrun : (echoGroup (some m) l).run.run w =
      (echoed l group ((w.store.metadataAt m).group group)).run.run w := by
    unfold echoGroup
    rw [hecho]
    simp only [hne, String.isEmpty_iff, if_false, pure_bind]
    rw [run_bind, store_run]
    dsimp only
    rw [run_bind, metadataGroup_run]
    cases (w.store.metadataAt m).group group <;> rfl
  rw [hrun]
  cases hgroup : (w.store.metadataAt m).group group with
  | list q =>
    cases helements : w.store.list q with
    | nil =>
      refine .inr ⟨fun q' hq' => by cases hq'; exact helements, .emptyGroup group, ?_⟩
      unfold echoed
      rw [run_bind, show (list q).run.run w = (.ok (w.store.list q), w) from rfl, helements]
      rfl
    | cons v vs =>
      refine .inl ⟨q, rfl, by rw [helements]; exact List.cons_ne_nil _ _, ?_⟩
      unfold echoed
      rw [run_bind, show (list q).run.run w = (.ok (w.store.list q), w) from rfl, helements]
      rfl
  | _ => exact .inr ⟨nofun, _, rfl⟩

end Run

/-! ## Making contexts -/

/-- From `s` to `t`, mappings have come with the given entries, at the given places; all else is as it was. -/
structure Store.Makes (s : Store) (ess : List Entries) (cs : List Nat) (t : Store) : Prop where
  keeps : s.Keeps t
  new : ∀ c ∈ cs, s.dicts.size ≤ c ∧ c < t.dicts.size
  apart : cs.Nodup
  entries : cs.map t.dict = ess

namespace Store.Makes

variable {s t u : Store} {ess : List Entries} {cs : List Nat} {es : Entries} {c : Nat}

theorem newDict (w : World) (es : Entries) : w.store.Makes [es] [w.store.dicts.size]
    { w.store with dicts := w.store.dicts.push es } := by
  refine ⟨.pushDict w.store es, by simp, List.nodup_singleton _, ?_⟩
  rw [List.map_singleton, w.store.dict_push, if_pos rfl]

theorem nil (s : Store) : s.Makes [] [] s := ⟨.refl s, by simp, .nil, rfl⟩

theorem one (hkeeps : s.Keeps t) (hnew : s.dicts.size ≤ c) (hthere : c < t.dicts.size) (hentries : t.dict c = es) :
    s.Makes [es] [c] t :=
  ⟨hkeeps, by simpa using ⟨hnew, hthere⟩, List.nodup_singleton c, by rw [List.map_singleton, hentries]⟩

theorem cons (h : s.Makes [es] [c] t) (k : t.Makes ess cs u) : s.Makes (es :: ess) (c :: cs) u where
  keeps := h.keeps.trans k.keeps
  new := by
    obtain ⟨hnew, hthere⟩ := h.new c List.mem_cons_self
    refine List.forall_mem_cons.2 ⟨⟨hnew, (k.keeps.dicts c hthere).1⟩, fun d hd => ?_⟩
    obtain ⟨hlater, hd⟩ := k.new d hd
    exact ⟨Nat.le_of_lt (Nat.lt_of_le_of_lt hnew (Nat.lt_of_lt_of_le hthere hlater)), hd⟩
  apart := by
    refine List.nodup_cons.2 ⟨fun hmem => ?_, k.apart⟩
    exact absurd (k.new c hmem).1 (Nat.not_le_of_lt (h.new c List.mem_cons_self).2)
  entries := by
    have hc := (k.keeps.dicts c (h.new c List.mem_cons_self).2).2
    rw [List.map_cons, k.entries]
    exact congrArg (· :: ess) (hc.trans (by simpa using h.entries))

theorem of_keeps (h : s.Keeps t) (k : t.Makes ess cs u) : s.Makes ess cs u :=
  { k with
    keeps := h.trans k.keeps
    new := fun c hc => ⟨Nat.le_trans h.dicts_le (k.new c hc).1, (k.new c hc).2⟩ }

/-- A mapping that has come is written. -/
theorem setDict (h : s.Makes [es] [c] t) (es' : Entries) :
    s.Makes [es'] [c] { t with dicts := t.dicts.setIfInBounds c es' } := by
  obtain ⟨hnew, hthere⟩ := h.new c List.mem_cons_self
  refine one (h.keeps.setDict hnew es') hnew (by simpa using hthere) ?_
  rw [t.dict_setIfInBounds, if_pos ⟨rfl, hthere⟩]

theorem dict_eq (h : s.Makes [es] [c] t) : t.dict c = es := by simpa using h.entries

end Store.Makes

namespace Run

/-- The fields of a legend are put into a mapping that came later. -/
theorem mergeLegend_makes {s : Store} {c : Nat} {es : Entries} {w : World} (h : s.Makes [es] [c] w.store) (l : Legend) :
    (mergeLegend c l).Ensures w fun _ w' => s.Makes [es.merge (givenEntries l)] [c] w'.store := by
  refine ((legendFields_ensures l w).and ((legendFields_keeps l).ensures w)).bind fun fields u hu => ?_
  obtain ⟨⟨place, rfl, hfields, -⟩, hkeeps⟩ := hu
  have hc := hkeeps.dicts c (h.new c List.mem_cons_self).2
  have hu : s.Makes [es] [c] u.store :=
    .one (h.keeps.trans hkeeps) (h.new c List.mem_cons_self).1 hc.1 (hc.2.trans h.dict_eq)
  refine .step (setDict_run c ((u.store.dict c).merge (u.store.dict place)) u) ?_
  rw [hu.dict_eq, hfields]
  exact hu.setDict _

theorem branch_makes {c : Nat} {w : World} (l : Legend) :
    (branch c l).Ensures w fun d w' => w.store.Makes [(w.store.dict c).merge (givenEntries l)] [d] w'.store := by
  refine .step_bind (a := w.store.dict c) rfl (.step_bind (newDict_run _ w) ?_)
  refine (mergeLegend_makes (.newDict w _) l).bind fun _ u hu => .pure hu

theorem branches_makes {c : Nat} {w : World} (hc : c < w.store.dicts.size) (ls : List Legend) :
    (ls.mapM (branch c)).Ensures w fun cs w' =>
      w.store.Makes (ls.map fun l => (w.store.dict c).merge (givenEntries l)) cs w'.store := by
  induction ls generalizing w with
  | nil => exact .pure (.nil w.store)
  | cons l ls ih =>
    rw [List.mapM_cons]
    refine (branch_makes l).bind fun d u hu => ?_
    have hu' := hu.keeps.dicts c hc
    refine (ih hu'.1).bind fun ds v hv => .pure ?_
    rw [show u.store.dict c = w.store.dict c from hu'.2] at hv
    exact hu.cons hv

end Run

/-! ## Contexts of a page -/

/-- The entries of a mapping; other data have none. -/
def Store.entriesOf (s : Store) : Value → Entries
  | .dict p => s.dict p
  | _ => []

/-- A group that is a list is reached from the metadata. -/
theorem Metadata.reaches_group {s : Store} {roots : List Value} {m q : Nat} (hm : s.Reaches roots (.metadata m))
    {name : String} (hgroup : (s.metadataAt m).group name = .list q) : s.Reaches roots (.list q) := by
  refine .part hm ?_
  unfold Metadata.group at hgroup
  split at hgroup
  · cases hignore : (s.metadataAt m).ignore <;> simp [hignore] at hgroup
  · cases hgroup
    exact List.mem_cons_self
  · cases hfound : (s.metadataAt m).extras.find? fun (k, _) => k == name with
    | none => simp [hfound] at hgroup
    | some f =>
      have hf : f.2 = .list q := by simpa [hfound] using hgroup
      exact List.mem_cons_of_mem _ (hf ▸ List.mem_map_of_mem (List.mem_of_find?_eq_some hfound))

namespace Engine

variable {e : Engine} {path : String} {data : Value} {l : Legend} {w : World}

theorem copiedContext_makes (data : Value) (w : World) :
    (copiedContext data).Ensures w fun c w' => w.store.Makes [w.store.entriesOf data] [c] w'.store := by
  unfold copiedContext
  split
  · exact .step_bind (a := w.store.dict _) rfl (.step_bind (Run.newDict_run _ w) (.pure (.newDict w _)))
  · rename_i hdata
    have hnone : w.store.entriesOf data = [] := by
      unfold Store.entriesOf
      split
      · exact absurd rfl (hdata _)
      · rfl
    rw [hnone]
    exact .step_bind (Run.newDict_run _ w) (.pure (.newDict w _))

/-- What the context of a page holds that has a legend: the data, under what the legend gives, and the page's name. -/
def pageEntries (s : Store) (path : String) (data : Value) (l : Legend) : Entries :=
  ((s.entriesOf data).merge (Run.givenEntries l)).insert (.text nameKey) (.text (Path.name path))

theorem pageContext_makes (path : String) (data : Value) (l : Legend) (w : World) :
    (pageContext path data (some l)).Ensures w fun c w' =>
      w.store.Makes [pageEntries w.store path data l] [c] w'.store := by
  refine (copiedContext_makes data w).bind fun c u hu => (Run.mergeLegend_makes hu l).bind fun _ v hv => ?_
  refine .step_bind (setKey_run c nameKey _ v) (.pure ?_)
  unfold World.withEntry
  rw [hv.dict_eq]
  exact hv.setDict _

/-- The page at a path has a legend that echoes a group of its directory. -/
structure Echoes (e : Engine) (path : String) (w : World) (l : Legend) (group : Value) : Prop where
  legend : ∃ place, (e.directories.legendAt? path).outcome w = .ok (some place) ∧ w.store.legend place = l
  group : ∃ m name, e.directories.metadataAt? path = some m ∧ l.echo = some name ∧ name ≠ "" ∧
    (w.store.metadataAt m).group name = group

theorem legendAt?_run {ds : Directories} {place : Option Nat} (h : (ds.legendAt? path).outcome w = .ok place) :
    (ds.legendAt? path).run.run w = (.ok place, w) := by
  have hrun : (ds.legendAt? path).run.run w = (.ok place, (ds.legendAt? path).after w) := Prod.ext h rfl
  rw [hrun, ((ds.legendAt?_ensures path w) place _ hrun).1]

theorem Echoes.pageContexts_run {group : Value} (h : e.Echoes path w l group) (data : Value) :
    ∃ m name, e.directories.metadataAt? path = some m ∧ l.echo = some name ∧ name ≠ "" ∧
      (w.store.metadataAt m).group name = group ∧
      (e.pageContexts path data).run.run w = (do
        let c ← pageContext path data (some l)
        reporting path (Run.branches c (some m) l) : Run (List Nat)).run.run w := by
  obtain ⟨place, hlegend, hplace⟩ := h.legend
  obtain ⟨m, name, hm, hecho, hne, hgroup⟩ := h.group
  have hechoes : l.echoes = true := by simpa [Legend.echoes, hecho, String.isEmpty_iff] using hne
  refine ⟨m, name, hm, hecho, hne, hgroup, ?_⟩
  unfold pageContexts
  rw [Run.run_bind, legendAt?_run hlegend]
  dsimp only
  rw [Run.run_bind, Run.run_bind, Run.store_run]
  dsimp only
  rw [hplace]
  simp only [pure_bind, hm, hechoes, if_true]
  rw [Run.run_bind]

/-- The metadata of a directory is reached from what the engine holds. -/
theorem reaches_metadata {s : Store} {m : Nat} (hm : e.directories.metadataAt? path = some m) :
    s.Reaches e.held (.metadata m) := by
  obtain ⟨d, hd, rfl⟩ := Option.map_eq_some_iff.1 hm
  have hmem : d ∈ e.directories := List.mem_of_find?_eq_some hd
  exact .root (List.mem_append_right _ (List.mem_map_of_mem hmem))

/-- In a later world, a group of the metadata has the elements that it had, and they are read as the same legends. -/
theorem branches_cases {group : Value} {m : Nat} {name : String} (hm : e.directories.metadataAt? path = some m)
    (hecho : l.echo = some name) (hne : name ≠ "") (hgroup : (w.store.metadataAt m).group name = group)
    (hthere : w.store.Unaltered e.held w.store) {u : World} (hu : w.store.Keeps u.store) (c : Nat) :
    match w.store.groupLegends? group with
    | some ls => ∃ u', u.store.Keeps u'.store ∧
        (Run.branches c (some m) l).run.run u = (ls.mapM (Run.branch c)).run.run u'
    | none => ∃ f u', (Run.branches c (some m) l).run.run u = (.error (.echo f), u') := by
  have hmeta : w.store.Reaches e.held (.metadata m) := reaches_metadata hm
  have hsame : u.store.metadataAt m = w.store.metadataAt m := (hu.metadata m (hthere.metadata m hmeta).1).2
  have hfound := Run.echoGroup_run hecho hne m u
  rw [hsame, hgroup] at hfound
  unfold Run.branches
  rw [Run.run_bind]
  rcases hfound with ⟨q, rfl, hnonempty, hrun⟩ | ⟨hempty, f, hrun⟩
  · have hq : w.store.Reaches e.held (.list q) := Metadata.reaches_group hmeta hgroup
    have hlist : u.store.list q = w.store.list q := (hu.lists q (hthere.lists q hq).1).2
    have helements : ∀ v ∈ w.store.list q, w.store.Unaltered [v] w.store := fun v hv =>
      hthere.mono fun _ hv' => List.mem_singleton.1 hv' ▸ .part hq hv
    rw [hlist] at hnonempty hrun
    rw [hrun, Store.groupLegends?_of_ne_nil hnonempty]
    have hlegends := Run.echoLegends_cases name (w.store.list q) helements 0 hu
    cases hls : (w.store.list q).mapM w.store.asLegend? with
    | none =>
      rw [hls] at hlegends
      obtain ⟨f, u', hlegends⟩ := hlegends
      refine ⟨f, u', ?_⟩
      dsimp only
      rw [Run.run_bind, hlegends]
    | some ls =>
      rw [hls] at hlegends
      obtain ⟨u', hlegends, hu'⟩ := hlegends
      refine ⟨u', hu', ?_⟩
      dsimp only
      rw [Run.run_bind, hlegends]
  · rw [hrun]
    cases group with
    | list q =>
      have hmeta' : w.store.Reaches e.held (.list q) := Metadata.reaches_group hmeta hgroup
      have hlist : u.store.list q = w.store.list q := (hu.lists q (hthere.lists q hmeta').1).2
      rw [Store.groupLegends?_of_nil (hlist ▸ hempty q rfl)]
      exact ⟨f, u, rfl⟩
    | _ => exact ⟨f, u, rfl⟩

/-- The contexts of a page that echoes a group: one for each element. -/
theorem Echoes.pageContexts_makes {group : Value} (h : e.Echoes path w l group)
    (hthere : w.store.Unaltered e.held w.store) (data : Value) {ls : List Legend}
    (hls : w.store.groupLegends? group = some ls) :
    (e.pageContexts path data).Ensures w fun cs w' => w.store.Makes
      (ls.map fun own => (pageEntries w.store path data l).merge (Run.givenEntries own)) cs w'.store := by
  obtain ⟨m, name, hm, hecho, hne, hgroup, hrun⟩ := h.pageContexts_run data
  refine .of_run_eq hrun ((pageContext_makes path data l w).bind fun c u hu => reporting_ensures ?_)
  have hbranches := branches_cases hm hecho hne hgroup hthere hu.keeps c
  rw [hls] at hbranches
  obtain ⟨u', hu', hbranches⟩ := hbranches
  have hc := hu'.dicts c (hu.new c List.mem_cons_self).2
  have hentries : u'.store.dict c = pageEntries w.store path data l := hc.2.trans hu.dict_eq
  refine .of_run_eq hbranches ((Run.branches_makes (c := c) hc.1 ls).mono fun cs v hv => ?_)
  rw [hentries] at hv
  exact hv.of_keeps (hu.keeps.trans hu')

/-- A group that is none, or whose elements are not all legends, is refused by the echo, once the page's own context
can be made. -/
theorem Echoes.pageContexts_refuses {group : Value} (h : e.Echoes path w l group)
    (hthere : w.store.Unaltered e.held w.store) {data : Value} (hnone : w.store.groupLegends? group = none) {c : Nat}
    (hown : (pageContext path data (some l)).outcome w = .ok c) :
    ∃ f, (e.pageContexts path data).outcome w = .error (.echo f) := by
  obtain ⟨m, name, hm, hecho, hne, hgroup, hrun⟩ := h.pageContexts_run data
  have hcontext : (pageContext path data (some l)).run.run w = (.ok c, (pageContext path data (some l)).after w) :=
    Prod.ext hown rfl
  have hmade := pageContext_makes path data l w c _ hcontext
  have hbranches := branches_cases hm hecho hne hgroup hthere hmade.keeps c
  rw [hnone] at hbranches
  obtain ⟨f, u', hbranches⟩ := hbranches
  refine ⟨f, ?_⟩
  unfold Run.outcome
  rw [hrun, Run.run_bind, hcontext]
  dsimp only
  rw [reporting, Run.run_tryCatch, hbranches]
  rfl

end Engine

end NestedSite
