import NestedSite.Proofs.Site.Branches
import NestedSite.Proofs.Site.Opening
import NestedSite.Proofs.Template.Mention
import NestedSite.Proofs.Template.Purity

/-!
# Echoing a group

A page whose legend echoes a group has a branch for each element of it. The context of a branch holds what its element
gives, on top of what the legend of the page gives, on top of the data (`Engine.branchField?`). It is not reached from
the contexts of other branches (`Store.Makes.not_reaches`), so that no earlier branch alters it
(`Engine.branches_keep`), and each branch begins with the context that was made for it (`Engine.Echoes.reachBranch_run`).
Together with what is known of a branch up to where the template of the page starts, this is
`Engine.renderTemplate_echoes`.
-/

namespace NestedSite

/-! ## What a legend gives -/

/-- What a legend gives for a key. -/
def Legend.field? (l : Legend) (key : String) : Option Value := (Run.givenEntries l).find? (.text key)

/-- No further field goes by the name of the field for the name. -/
def Legend.Plain (l : Legend) : Prop := ∀ f ∈ l.extras, f.1 ≠ nameKey

theorem Run.nodup_givenEntries (l : Legend) : (givenEntries l).keys.Nodup :=
  Entries.nodup_merge List.nodup_nil fun e he => by
    obtain ⟨f, -, rfl⟩ := List.mem_map.1 he
    exact ⟨f.1, rfl⟩

/-- What a legend gives goes before what is there. -/
theorem Legend.find?_merge (l : Legend) (es : Entries) (key : String) :
    (es.merge (Run.givenEntries l)).find? (.text key) = (l.field? key).or (es.find? (.text key)) :=
  Entries.find?_merge_of_nodup (Run.named_givenEntries l) (Run.nodup_givenEntries l) key

theorem Entries.find?_foldl_of_ne {fields : List (String × Value)} {key : String} (h : ∀ f ∈ fields, f.1 ≠ key)
    (es : Entries) : (es.merge (fields.map fun (k, v) => (.text k, v))).find? (.text key) = es.find? (.text key) := by
  induction fields generalizing es with
  | nil => rfl
  | cons f fields ih =>
    obtain ⟨hf, hfields⟩ := List.forall_mem_cons.1 h
    exact (ih hfields _).trans ((find?_insert es f.1 key f.2).trans (if_neg hf))

theorem Legend.Plain.field?_name {l : Legend} (h : l.Plain) : l.field? nameKey = some (.text l.name) := by
  have hothers : ∀ f ∈ (if l.echoGiven then [("echo", (l.echo.map Value.text).getD .none)] else []) ++ l.extras,
      f.1 ≠ nameKey := by
    intro f hf
    rcases List.mem_append.1 hf with hf | hf
    · split at hf
      · rw [List.mem_singleton.1 hf]
        exact fun heq => absurd heq (by decide : "echo" ≠ nameKey)
      · exact absurd hf List.not_mem_nil
    · exact h f hf
  exact Entries.find?_foldl_of_ne hothers [(.text nameKey, .text l.name)]

/-- A legend that is read from a mapping is plain. -/
theorem Legend.plain_ofEntries {s : Store} {es : Entries} {l : Legend} (h : Legend.ofEntries s es = .ok l) :
    l.Plain := by
  unfold ofEntries at h
  dsimp only at h
  split at h
  · cases h
    intro f hf
    have hkeys := (List.mem_filter.1 hf).2
    simp only [Bool.and_eq_true, bne_iff_ne] at hkeys
    exact hkeys.1
  · cases h

theorem Store.asLegend?_plain {s : Store} (hplain : ∀ p, (s.legend p).Plain) {v : Value} {l : Legend}
    (h : s.asLegend? v = some l) : l.Plain := by
  unfold asLegend? at h
  split at h
  · cases h
    exact hplain _
  · rename_i p
    cases hread : Legend.ofEntries s (s.dict p) with
    | ok own =>
      rw [hread] at h
      cases h
      exact Legend.plain_ofEntries hread
    | error issues =>
      rw [hread] at h
      cases h
  · cases h

/-- What comes of all items comes of one of them. -/
theorem exists_of_mapM_eq_some {α β : Type} {f : α → Option β} {xs : List α} {ys : List β} (h : xs.mapM f = some ys)
    {y : β} (hy : y ∈ ys) : ∃ x ∈ xs, f x = some y := by
  induction xs generalizing ys with
  | nil =>
    cases h
    cases hy
  | cons x xs ih =>
    rw [List.mapM_cons] at h
    obtain ⟨z, hz, h⟩ := Option.bind_eq_some_iff.1 h
    obtain ⟨zs, hzs, h⟩ := Option.bind_eq_some_iff.1 h
    cases h
    rcases List.mem_cons.1 hy with rfl | hy
    · exact ⟨x, List.mem_cons_self, hz⟩
    · exact (ih hzs hy).imp fun _ hu => ⟨List.mem_cons_of_mem _ hu.1, hu.2⟩

/-- A legend of a group is an element of it. -/
theorem Store.mem_groupLegends? {s : Store} {group : Value} {ls : List Legend} (h : s.groupLegends? group = some ls)
    {l : Legend} (hl : l ∈ ls) : ∃ q, group = .list q ∧ ∃ v ∈ s.list q, s.asLegend? v = some l := by
  unfold groupLegends? at h
  split at h
  · rename_i q
    split at h
    · cases h
    · exact ⟨q, rfl, exists_of_mapM_eq_some h hl⟩
  · cases h
/-! ## What contexts hold -/

/-- The value is nothing or a text, which leads nowhere. -/
def Value.LeadsNowhere (v : Value) : Prop := v = .none ∨ ∃ t, v = .text t

theorem Value.LeadsNowhere.parts {v : Value} (h : v.LeadsNowhere) (s : Store) : v.parts s = [] := by
  rcases h with rfl | ⟨t, rfl⟩ <;> rfl

/-- The value is reached, or leads nowhere. -/
def Store.Gets (s : Store) (roots : List Value) (v : Value) : Prop := s.Reaches roots v ∨ v.LeadsNowhere

/-- The keys and values of entries are reached, or lead nowhere. -/
def Store.GetsAll (s : Store) (roots : List Value) (es : Entries) : Prop :=
  ∀ e ∈ es, s.Gets roots e.1 ∧ s.Gets roots e.2

namespace Store.GetsAll

variable {s : Store} {roots : List Value} {es : Entries}

theorem insert (h : s.GetsAll roots es) (key : String) {v : Value} (hv : s.Gets roots v) :
    s.GetsAll roots (es.insert (.text key) v) := by
  intro e he
  rcases Entries.mem_insert he with rfl | he
  · exact ⟨.inr (.inr ⟨key, rfl⟩), hv⟩
  · exact h e he

theorem merge (h : s.GetsAll roots es) {l : Legend} (hl : ∀ f ∈ l.extras, s.Reaches roots f.2) :
    s.GetsAll roots (es.merge (Run.givenEntries l)) := by
  intro e he
  rcases Entries.mem_merge (Run.named_givenEntries l) he with he | he
  · obtain ⟨f, hf, rfl⟩ := Run.mem_givenEntries he
    refine ⟨.inr (.inr ⟨f.1, rfl⟩), ?_⟩
    rcases List.mem_append.1 hf with hf | hf
    · rcases List.mem_cons.1 hf with rfl | hf
      · exact .inr (.inr ⟨_, rfl⟩)
      · split at hf
        · obtain rfl := List.mem_singleton.1 hf
          cases l.echo with
          | none => exact .inr (.inl rfl)
          | some group => exact .inr (.inr ⟨group, rfl⟩)
        · exact absurd hf List.not_mem_nil
    · exact .inl (hl f hf)
  · exact h e he

theorem entriesOf {data : Value} (h : s.Reaches roots data) : s.GetsAll roots (s.entriesOf data) := by
  unfold Store.entriesOf
  split
  · intro e he
    have hparts : ∀ v ∈ [e.1, e.2], s.Reaches roots v := fun v hv => .part h (List.mem_flatMap.2 ⟨e, he, hv⟩)
    exact ⟨.inl (hparts _ (by simp)), .inl (hparts _ (by simp))⟩
  · exact fun _ he => absurd he List.not_mem_nil

end Store.GetsAll

/-- What is held by a legend that an element is read as is reached from the element. -/
theorem Store.reaches_asLegend? {s : Store} {roots : List Value} {v : Value} (hv : s.Reaches roots v) {l : Legend}
    (h : s.asLegend? v = some l) : ∀ f ∈ l.extras, s.Reaches roots f.2 := by
  intro f hf
  unfold asLegend? at h
  split at h
  · cases h
    exact .part hv (List.mem_map_of_mem hf)
  · rename_i p
    unfold Legend.ofEntries at h
    dsimp only at h
    split at h
    · cases h
      have hentry := mem_splitKeys (List.mem_filter.1 hf).1
      exact .part hv (List.mem_flatMap.2 ⟨_, hentry, by simp⟩)
    · cases h
  · cases h

/-- From mappings that have come, nothing else that has come is reached: what they hold was there before. -/
theorem Store.Makes.reaches {s t : Store} {ess : List Entries} {cs : List Nat} {roots : List Value}
    (h : s.Makes ess cs t) (hthere : s.Unaltered roots s) (hess : ∀ es ∈ ess, s.GetsAll roots es) {others : List Nat}
    (hothers : ∀ c ∈ others, c ∈ cs) {v : Value} (hv : t.Reaches (others.map Value.dict ++ roots) v) :
    (∃ c ∈ others, v = .dict c) ∨ s.Gets roots v := by
  induction hv with
  | root hmem =>
    rcases List.mem_append.1 hmem with hmem | hmem
    · obtain ⟨c, hc, rfl⟩ := List.mem_map.1 hmem
      exact .inl ⟨c, hc, rfl⟩
    · exact .inr (.inl (.root hmem))
  | part _ hpart ih =>
    rcases ih with ⟨c, hc, rfl⟩ | hreached | hnowhere
    · have hentries : t.dict c ∈ ess := h.entries ▸ List.mem_map_of_mem (hothers c hc)
      obtain ⟨e, he, hpart⟩ := List.mem_flatMap.1 hpart
      obtain ⟨hkey, hvalue⟩ := hess _ hentries e he
      rcases List.mem_cons.1 hpart with rfl | hpart
      · exact .inr hkey
      · exact .inr (List.mem_singleton.1 hpart ▸ hvalue)
    · have hparts := (h.keeps.unaltered hthere).parts_moved hreached
      rw [Value.moved_refl, Value.map_moved_refl] at hparts
      exact .inr (.inl (.part hreached (hparts ▸ hpart)))
    · rw [hnowhere.parts] at hpart
      exact absurd hpart List.not_mem_nil

/-- A mapping that has come is not reached from the others that have come. -/
theorem Store.Makes.not_reaches {s t : Store} {ess : List Entries} {cs : List Nat} {roots : List Value}
    (h : s.Makes ess cs t) (hthere : s.Unaltered roots s) (hess : ∀ es ∈ ess, s.GetsAll roots es) {i c : Nat}
    (hc : cs[i]? = some c) : ¬t.Reaches ((cs.take i).map Value.dict ++ roots) (.dict c) := by
  intro hreach
  have hmem : c ∈ cs := List.mem_of_getElem? hc
  rcases h.reaches hthere hess (fun _ => List.mem_of_mem_take) hreach with ⟨d, hd, heq⟩ | hreached | hnowhere
  · cases heq
    obtain ⟨j, hj, hget⟩ := List.mem_take_iff_getElem.1 hd
    have hlt : j < i := by omega
    have heq : j = i := by
      refine (List.getElem?_inj (by omega) h.apart).1 ?_
      rw [hc, List.getElem?_eq_getElem (by omega), hget]
    omega
  · exact Nat.not_lt_of_le (h.new c hmem).1 (hthere.dicts c hreached).1
  · rcases hnowhere with heq | ⟨_, heq⟩ <;> cases heq

/-! ## One branch after the other -/

namespace Engine

variable {e : Engine} {path : String} {data : Value} {l : Legend} {w : World} {group : Value}

/-- Documents of other contexts leave the context of a branch as it is, unless they lead to it. -/
theorem branches_keep (he : e.Reached) (path : String) {others : List Nat} {context : Nat} {w : World}
    (hcontext : context < w.store.dicts.size)
    (hapart : ¬w.store.Reaches (others.map Value.dict ++ e.held) (.dict context)) :
    ((others.mapM (e.renderBranch path)).after w).store.dict context = w.store.dict context := by
  let r := Region.reachedWith (fun _ => True) w.store (others.map Value.dict ++ e.held)
  have hr : r.IsReached w.store (others.map Value.dict ++ e.held) := Region.reachedWith_isReached fun _ _ => trivial
  have hlawful : e.Lawful r := lawful_reachedWith he.lawful.templates fun v hv => .root (List.mem_append_right _ hv)
  have hout : ¬r.dicts context := fun h => h.elim hapart (Nat.not_le_of_lt hcontext)
  have hall : Confined r r.Avoids (others.mapM (e.renderBranch path)) fun _ => True := by
    refine (Confined.mapM fun c hc => renderBranch_confined_of hlawful path ?_).trivial
    have hin : r.dicts c := .inl (.root (List.mem_append_left _ (List.mem_map_of_mem hc)))
    exact ⟨hin, Region.Avoids.letsWrite hin⟩
  exact (hall w hr.holds).1 context hcontext hout

/-- Renders a page up to where the branch for an element begins, and gives the context of the branch. -/
def reachBranch (e : Engine) (path : String) (data : Value) (i : Nat) : Run Nat := do
  let contexts ← e.pageContexts path data
  let _ ← (contexts.take i).mapM (e.renderBranch path)
  match contexts[i]? with
  | some context => return context
  | none => throw .missingKey

/-- What a key means in the branch for an element: what the element gives for it; if nothing, what the legend of the
page gives; if nothing, what it is bound to in the data. -/
def branchField? (s : Store) (data : Value) (l own : Legend) (key : String) : Option Value :=
  (own.field? key).or ((l.field? key).or ((s.entriesOf data).find? (.text key)))

/-- Where the template of a page starts in the branch for an element, its context knows the element. -/
structure Reads (s : Store) (path : String) (data : Value) (l own : Legend) (context : Nat) (u : World) : Prop where
  name : u.binding? context nameKey = some (.text own.name)
  place : u.binding? context pathKey = some (.text (Path.join (Path.parent path) [own.name]))
  fields : ∀ key ∉ nameKey :: reservedKeys, u.binding? context key = branchField? s data l own key

/-- The documents of a page that is rendered, before they take each other's place. -/
theorem renderTemplate_ok (hne : path ≠ "") {docs : Documents}
    (h : (e.renderTemplate (.text path) data).outcome w = .ok docs) : ∃ cs w₁ all w₂,
      (e.pageContexts path data).run.run w = (.ok cs, w₁) ∧
      (cs.mapM (e.renderBranch path)).run.run w₁ = (.ok all, w₂) ∧ docs = Documents.gather all := by
  rw [renderTemplate_eq, branchDocuments, nonemptyArgument_text hne, pure_bind, map_eq_pure_bind] at h
  simp only [bind_assoc] at h
  unfold Run.outcome at h
  rw [Run.run_bind] at h
  rcases hcontexts : (e.pageContexts path data).run.run w with ⟨_ | cs, w₁⟩
  · rw [hcontexts] at h
    cases h
  rw [hcontexts] at h
  dsimp only at h
  rw [Run.run_bind] at h
  rcases hall : (cs.mapM (e.renderBranch path)).run.run w₁ with ⟨_ | all, w₂⟩
  · rw [hall] at h
    cases h
  rw [hall] at h
  cases h
  exact ⟨cs, w₁, all, w₂, rfl, hall, rfl⟩

/-- What the legend of a page holds is reached from what the engine holds. -/
theorem Echoes.reaches_extras (h : e.Echoes path w l group) : ∀ f ∈ l.extras, w.store.Reaches e.held f.2 := by
  obtain ⟨place, hlegend, rfl⟩ := h.legend
  intro f hf
  let r := Region.reachedWith (fun _ => True) w.store e.held
  have hr : r.IsReached w.store e.held := Region.reachedWith_isReached fun _ _ => trivial
  have hdirectories : DirectoriesIn r e.directories := fun d hd =>
    .inl (.root (List.mem_append_right _ (List.mem_map_of_mem hd)))
  have hconfined : Confined r r.Reads (e.directories.legendAt? path) fun l => ∀ p ∈ l, r.legends p :=
    legendAt?_confined hdirectories
  have hfound := (hconfined w hr.holds).2.2 _ hlegend place rfl
  have hplace : w.store.Reaches e.held (.legend place) :=
    hfound.resolve_right fun hfree => Nat.not_lt_of_le hfree (lt_size_of_mem_extras hf)
  exact .part hplace (List.mem_map_of_mem hf)

/-- The values that the contexts of a page hold are reached from the data and from what the engine holds. -/
theorem Echoes.getsAll (h : e.Echoes path w l group) {ls : List Legend} (hls : w.store.groupLegends? group = some ls)
    {own : Legend} (hown : own ∈ ls) :
    w.store.GetsAll (data :: e.held) ((pageEntries w.store path data l).merge (Run.givenEntries own)) := by
  have hheld : ∀ {v}, w.store.Reaches e.held v → w.store.Reaches (data :: e.held) v := fun hv =>
    hv.trans fun u hu => .root (List.mem_cons_of_mem _ hu)
  obtain ⟨m, name, hm, -, -, hgroup⟩ := h.group
  obtain ⟨q, rfl, v, hv, hread⟩ := Store.mem_groupLegends? hls hown
  have helement : w.store.Reaches e.held v := .part (Metadata.reaches_group (reaches_metadata hm) hgroup) hv
  have hdata : w.store.GetsAll (data :: e.held) (w.store.entriesOf data) := .entriesOf (.root List.mem_cons_self)
  have hpage := hdata.merge fun f hf => hheld (h.reaches_extras f hf)
  refine (hpage.insert nameKey (.inr (.inr ⟨_, rfl⟩))).merge fun f hf => hheld ?_
  exact Store.reaches_asLegend? helement hread f hf

/-- What a key is bound to in the context that is made for an element. -/
theorem find?_pageEntries (s : Store) (path : String) (data : Value) (l own : Legend) {key : String}
    (hkey : key ≠ nameKey) :
    ((pageEntries s path data l).merge (Run.givenEntries own)).find? (.text key) = branchField? s data l own key := by
  rw [Legend.find?_merge, pageEntries, Entries.find?_insert, if_neg (Ne.symm hkey), Legend.find?_merge]
  rfl

/-- A branch begins with the context that was made for its element. -/
theorem Echoes.reachBranch_run (he : e.Reached) (h : e.Echoes path w l group)
    (hthere : w.store.Unaltered (data :: e.held) w.store) {ls : List Legend}
    (hls : w.store.groupLegends? group = some ls) {cs : List Nat} {w₁ w₂ : World} {all : List (String × Value)}
    (hcontexts : (e.pageContexts path data).run.run w = (.ok cs, w₁))
    (hall : (cs.mapM (e.renderBranch path)).run.run w₁ = (.ok all, w₂)) {i : Nat} {own : Legend}
    (hown : ls[i]? = some own) : ∃ context u doc v,
      (e.reachBranch path data i).run.run w = (.ok context, u) ∧
      (e.renderBranch path context).run.run u = (.ok doc, v) ∧ all[i]? = some doc ∧
      context < u.store.dicts.size ∧
      u.store.dict context = (pageEntries w.store path data l).merge (Run.givenEntries own) := by
  have hheld : w.store.Unaltered e.held w.store := hthere.mono fun u hu => .root (List.mem_cons_of_mem _ hu)
  have hmakes := h.pageContexts_makes hheld data hls cs w₁ hcontexts
  -- the contexts are as many as the elements
  obtain ⟨context, hcontext, hentries⟩ : ∃ context, cs[i]? = some context ∧
      w₁.store.dict context = (pageEntries w.store path data l).merge (Run.givenEntries own) := by
    have hget := congrArg (fun ess : List Entries => ess[i]?) hmakes.entries
    simp only [List.getElem?_map, hown, Option.map_some] at hget
    exact Option.map_eq_some_iff.1 hget
  obtain ⟨zs, u, doc, v, hprefix, hbranch, hdoc⟩ := Run.mapM_prefix hall hcontext
  have hlt := (hmakes.new context (List.mem_of_getElem? hcontext)).2
  have hafter : ((cs.take i).mapM (e.renderBranch path)).after w₁ = u := congrArg Prod.snd hprefix
  refine ⟨context, u, doc, v, ?_, hbranch, hdoc, ?_, ?_⟩
  · unfold reachBranch
    rw [Run.run_bind, hcontexts]
    dsimp only
    rw [Run.run_bind, hprefix]
    dsimp only
    rw [hcontext]
    rfl
  · have hrendering : Confined .whole Rendering ((cs.take i).mapM (e.renderBranch path)) fun _ => True :=
      (Confined.mapM fun c _ => renderBranch_confined he.lawful path c).trivial
    have hrel := (hrendering w₁ (Region.whole_holds _)).1
    rw [hafter] at hrel
    exact Nat.lt_of_lt_of_le hlt hrel.dicts_le
  · have hgets : ∀ es ∈ ls.map fun own => (pageEntries w.store path data l).merge (Run.givenEntries own),
        w.store.GetsAll (data :: e.held) es := by
      intro es hes
      obtain ⟨own, hown, rfl⟩ := List.mem_map.1 hes
      exact h.getsAll hls hown
    have hapart := hmakes.not_reaches hthere hgets hcontext
    have hkept := branches_keep he path hlt fun hreach => hapart <| hreach.trans fun v hv =>
      (List.mem_append.1 hv).elim (fun hv => .root (List.mem_append_left _ hv)) fun hv =>
        .root (List.mem_append_right _ (List.mem_cons_of_mem _ hv))
    rw [hafter] at hkept
    exact hkept.trans hentries

/-- If all goes well, each branch gets to where the template of the page starts, and its document goes to its place. -/
theorem Echoes.branch_run (he : e.Reached) (hrename : e.rename = none) (hp : path ∈ e.paths)
    (hdots : '.' ∉ (Path.name path).toList) (h : e.Echoes path w l group)
    (hthere : w.store.Unaltered (data :: e.held) w.store) (hplain : ∀ place, (w.store.legend place).Plain)
    {ls : List Legend} (hls : w.store.groupLegends? group = some ls) {cs : List Nat} {w₁ w₂ : World}
    {all : List (String × Value)} (hcontexts : (e.pageContexts path data).run.run w = (.ok cs, w₁))
    (hall : (cs.mapM (e.renderBranch path)).run.run w₁ = (.ok all, w₂)) {i : Nat} {own : Legend}
    (hown : ls[i]? = some own) :
    (∃ context u place v, (e.reachBranch path data i).run.run w = (.ok context, u) ∧
      (e.openBranch path context).run.run u = (.ok place, v) ∧
      (e.EchoesStill path u → Reads w.store path data l own context v)) ∧
    (Documents.paths all)[i]? = some (Path.join (Path.parent path) [own.name]) := by
  obtain ⟨t, -, hsplit⟩ := renderBranch_eq he hp hdots
  obtain ⟨context, u, doc, v', hreach, hrun, hdoc, hlt, hentries⟩ :=
    h.reachBranch_run he hthere hls hcontexts hall hown
  have hownPlain : own.Plain := by
    obtain ⟨q, -, element, -, hread⟩ := Store.mem_groupLegends? hls (List.mem_of_getElem? hown)
    exact Store.asLegend?_plain hplain hread
  have hname : u.binding? context nameKey = some (.text own.name) := by
    rw [World.binding?, hentries, Legend.find?_merge, hownPlain.field?_name]
    rfl
  rw [hsplit, Run.run_bind] at hrun
  rcases hopen : (e.openBranch path context).run.run u with ⟨_ | place, v⟩
  · rw [hopen] at hrun
    cases hrun
  rw [hopen] at hrun
  obtain ⟨rfl, hopened⟩ := openBranch_ensures hlt hname place v hopen
  refine ⟨⟨context, u, _, v, hreach, hopen, fun hstill => ?_⟩, ?_⟩
  · obtain ⟨hnamed, hplace, hothers⟩ := hopened hstill
    refine ⟨hnamed, hplace, fun key hkey => ?_⟩
    obtain ⟨hkey, hreserved⟩ := not_or.1 (mt List.mem_cons.2 hkey)
    rw [hothers key hreserved, World.binding?, hentries, find?_pageEntries _ _ _ _ _ hkey]
  · rw [Documents.paths, List.getElem?_map, hdoc, Option.map_some,
      closeBranch_ensures hrename t context _ v doc v' hrun]

/-- Different names lead to different places, so that no document takes the place of another one. -/
theorem gather_paths {directory : String} {ls : List Legend} (hnames : ∀ own ∈ ls, Path.IsLast own.name)
    (hdistinct : (ls.map Legend.name).Nodup) {all : List (String × Value)}
    (hpaths : Documents.paths all = ls.map fun own => Path.join directory [own.name]) :
    (Documents.gather all).paths = ls.map fun own => Path.join directory [own.name] := by
  have hplaces : (Documents.paths all).Nodup := by
    have hmap : (ls.map fun own => Path.join directory [own.name]) =
        (ls.map Legend.name).map fun name => Path.join directory [name] := by
      rw [List.map_map]
      rfl
    rw [hpaths, hmap]
    refine hdistinct.map_on fun s hs t ht heq => ?_
    obtain ⟨own, hown, rfl⟩ := List.mem_map.1 hs
    obtain ⟨other, hother, rfl⟩ := List.mem_map.1 ht
    exact Path.join_inj (hnames own hown) (hnames other hother) heq
  rw [Documents.gather_of_nodup hplaces, hpaths]

/-- A page that echoes a group has one document for each element, in the order of the group, at the places that the
names of the elements lead to in the directory of the page. Where the template of the page starts in a branch, the name
and the place are those of the branch, and a key that is not reserved means what the element gives, else what the legend
of the page gives, else what the data hold; this needs that the legend that is found for the page when the branch begins
still echoes a group. If there is no such group, the echo fails before any branch is rendered, unless the fields of the
legend of the page cannot be copied. -/
theorem renderTemplate_echoes (he : e.Reached) (hrename : e.rename = none) (hp : path ∈ e.paths)
    (hdots : '.' ∉ (Path.name path).toList) (h : e.Echoes path w l group)
    (hthere : w.store.Unaltered (data :: e.held) w.store) (hplain : ∀ place, (w.store.legend place).Plain) :
    (∃ t, e.template? path = some t ∧
      ∀ context, e.renderBranch path context = e.openBranch path context >>= e.closeBranch t path context) ∧
    (∀ ls, w.store.groupLegends? group = some ls →
      ∀ docs, (e.renderTemplate (.text path) data).outcome w = .ok docs →
        ((∀ own ∈ ls, Path.IsLast own.name) → (ls.map Legend.name).Nodup →
          docs.paths = ls.map fun own => Path.join (Path.parent path) [own.name]) ∧
        ∀ i own, ls[i]? = some own → ∃ context u place v,
          (e.reachBranch path data i).run.run w = (.ok context, u) ∧
          (e.openBranch path context).run.run u = (.ok place, v) ∧
          (e.EchoesStill path u → Reads w.store path data l own context v)) ∧
    (w.store.groupLegends? group = none → ∀ c, (pageContext path data (some l)).outcome w = .ok c → ∃ f,
      (e.pageContexts path data).outcome w = .error (.echo f) ∧
      (e.renderTemplate (.text path) data).run.run w = (.error (.echo f), (e.pageContexts path data).after w)) := by
  have hne : path ≠ "" := (he.isNormal hp).ne_empty
  have hheld : w.store.Unaltered e.held w.store := hthere.mono fun u hu => .root (List.mem_cons_of_mem _ hu)
  refine ⟨renderBranch_eq he hp hdots, fun ls hls docs hdocs => ?_, fun hnone c hc => ?_⟩
  · obtain ⟨cs, w₁, all, w₂, hcontexts, hall, rfl⟩ := renderTemplate_ok hne hdocs
    have hbranch : ∀ {i own}, ls[i]? = some own → _ := fun hown =>
      h.branch_run he hrename hp hdots hthere hplain hls hcontexts hall hown
    refine ⟨fun hnames hdistinct => gather_paths hnames hdistinct (List.ext_getElem? fun i => ?_),
      fun i own hown => (hbranch hown).1⟩
    rw [List.getElem?_map]
    cases hown : ls[i]? with
    | some own => exact (hbranch hown).2
    | none =>
      have hmakes := h.pageContexts_makes hheld data hls cs w₁ hcontexts
      have hlength : all.length = ls.length := by
        rw [Run.length_of_mapM hall]
        simpa using congrArg List.length hmakes.entries
      refine List.getElem?_eq_none ?_
      rw [Documents.paths, List.length_map, hlength]
      exact List.getElem?_eq_none_iff.1 hown
  · obtain ⟨f, hrefused⟩ := h.pageContexts_refuses hheld hnone hc
    have hcontexts : (e.pageContexts path data).run.run w = (.error (.echo f), (e.pageContexts path data).after w) :=
      Prod.ext hrefused rfl
    refine ⟨f, hrefused, ?_⟩
    unfold renderTemplate
    rw [nonemptyArgument_text hne, pure_bind, Run.run_bind, hcontexts]

/-- A world with the metadata of a directory: two legends of the same page, and a group of two mappings. -/
def pagesWorld (l : Legend) : World where
  store :=
    { lists := #[[.legend 0, .legend 1], [.dict 0, .dict 1]],
      dicts := #[[(.text "name", .text "a")], [(.text "name", .text "b")]],
      legends := #[l, { name := "item" }],
      metadata := #[{ files := 0, extras := [("pages", .list 1)] }] }

/-- The legend of a page that echoes a group. -/
def echoing (group : String) (extras : List (String × Value)) : Legend :=
  { name := "item", echo := some group, echoGiven := true, extras }

/-- What is reached from the metadata is there. -/
theorem pagesWorld_unaltered {l : Legend} (hextras : ∀ f ∈ l.extras, f.2 = .list 0) :
    (pagesWorld l).store.Unaltered [.none, .metadata 0] (pagesWorld l).store := by
  have hreached : ∀ v, (pagesWorld l).store.Reaches [.none, .metadata 0] v → v.LeadsNowhere ∨
      v ∈ [.metadata 0, .list 0, .list 1, .legend 0, .legend 1, .dict 0, .dict 1] := by
    intro v hv
    induction hv with
    | root h =>
      rcases List.mem_cons.1 h with rfl | h
      · exact .inl (.inl rfl)
      · exact .inr (List.mem_singleton.1 h ▸ List.mem_cons_self)
    | @part u v _ hpart ih =>
      rcases ih with ih | ih
      · rw [ih.parts] at hpart
        exact absurd hpart List.not_mem_nil
      simp only [List.mem_cons, List.not_mem_nil, or_false] at ih
      rcases ih with rfl | rfl | rfl | rfl | rfl | rfl | rfl
      · have hmem : v ∈ [.list 0, .list 1] := hpart
        grind
      · have hmem : v ∈ [.legend 0, .legend 1] := hpart
        grind
      · have hmem : v ∈ [.dict 0, .dict 1] := hpart
        grind
      · obtain ⟨f, hf, rfl⟩ := List.mem_map.1 (show v ∈ l.extras.map Prod.snd from hpart)
        rw [hextras f hf]
        simp
      · exact absurd hpart List.not_mem_nil
      · have hmem : v ∈ [.text "name", .text "a"] := hpart
        exact .inl (.inr (by grind))
      · have hmem : v ∈ [.text "name", .text "b"] := hpart
        exact .inl (.inr (by grind))
  have hplain : (pagesWorld l).store.Plain [.none, .metadata 0] := by
    constructor <;> intro p hp <;> rcases hreached _ hp with (heq | ⟨t, heq⟩) | hmem <;> simp_all [pagesWorld] <;> omega
  exact (Region.AllowsReads.refl (R := Looks .whole) .whole (pagesWorld l)).unaltered hplain

theorem pagesWorld_plain {l : Legend} (h : l.Plain) (place : Nat) : ((pagesWorld l).store.legend place).Plain := by
  match place with
  | 0 => exact h
  | 1 => exact fun f hf => absurd hf List.not_mem_nil
  | place + 2 => exact fun f hf => absurd hf List.not_mem_nil

/-- An engine with a page, for whose directory metadata is registered. -/
structure HasPage (e : Engine) : Prop where
  reached : e.Reached
  rename : e.rename = none
  imports : e.imports = []
  directories : e.directories = [(".", 0)]
  page : "item" ∈ e.paths

/-- The sources of such a page. -/
def pageSources (template : String) : List (String × String) := [("\"files\": []", "meta.yaml"), (template, "item.html")]

theorem HasPage.of_registerAll {e : Engine} {template : String}
    (h : ((bare.registerAll (pageSources template)).outcome {}).toOption = some e)
    (hfields : (e.paths, e.directories, (e.imports.isEmpty && e.rename.isNone)) = (["item"], [(".", 0)], true)) :
    e.HasPage := by
  simp only [Prod.mk.injEq, Bool.and_eq_true, List.isEmpty_iff, Option.isNone_iff_eq_none] at hfields
  obtain ⟨hpaths, hdirectories, himports, hrename⟩ := hfields
  exact ⟨reached_bare.registerAll h, hrename, himports, hdirectories, hpaths ▸ List.mem_cons_self⟩

namespace HasPage

variable {e : Engine} (h : e.HasPage)

include h

theorem held : e.held = [.metadata 0] := by simp [Engine.held, h.imports, h.directories]

theorem echoes {group : String} (hne : group ≠ "") (extras : List (String × Value)) :
    e.Echoes "item" (pagesWorld (echoing group extras)) (echoing group extras)
      (((pagesWorld (echoing group extras)).store.metadataAt 0).group group) := by
  have hmeta : Directories.metadataAt? [(".", 0)] "item" = some 0 := by decide +kernel
  have hname : Path.name "item" = "item" := by decide +kernel
  refine ⟨⟨0, ?_, rfl⟩, 0, group, h.directories ▸ hmeta, rfl, hne, rfl⟩
  rw [h.directories, Directories.legendAt?, hmeta, hname]
  rfl

end HasPage

/-- A page that echoes a group of two mappings. -/
theorem renderTemplate_echoes_pages : ∃ (e : Engine) (docs : Documents), e.HasPage ∧
    (e.renderTemplate (.text "item") .none).outcome (pagesWorld (echoing "pages" [])) = .ok docs ∧
    docs.paths = [Path.join "." ["a"], Path.join "." ["b"]] ∧
    ∃ context u place v,
      (e.reachBranch "item" .none 1).run.run (pagesWorld (echoing "pages" [])) = (.ok context, u) ∧
      (e.openBranch "item" context).run.run u = (.ok place, v) ∧
      (e.EchoesStill "item" u → Reads (pagesWorld (echoing "pages" [])).store "item" .none (echoing "pages" [])
        { name := "b" } context v) := by
  have hfound : ((bare.registerAll (pageSources "\x7b\x7b name \x7d\x7d")).outcome {}).toOption.map (fun e =>
      ((e.paths, e.directories, (e.imports.isEmpty && e.rename.isNone)),
        ((e.renderTemplate (.text "item") .none).outcome (pagesWorld (echoing "pages" []))).isOk)) =
      some ((["item"], [(".", 0)], true), true) := by
    decide +kernel
  obtain ⟨e, he, hrun⟩ := Option.map_eq_some_iff.1 hfound
  obtain ⟨hfields, hok⟩ := Prod.mk.inj hrun
  have hpage := HasPage.of_registerAll he hfields
  have hparent : Path.parent "item" = "." := by decide +kernel
  cases hdocs : (e.renderTemplate (.text "item") .none).outcome (pagesWorld (echoing "pages" [])) with
  | error f =>
    rw [hdocs] at hok
    cases hok
  | ok docs =>
    have hthere := pagesWorld_unaltered (l := echoing "pages" []) nofun
    obtain ⟨-, hechoed, -⟩ := renderTemplate_echoes hpage.reached hpage.rename hpage.page (by decide +kernel)
      (hpage.echoes (by decide) []) (hpage.held ▸ hthere) (pagesWorld_plain nofun)
    obtain ⟨hpaths, hbranches⟩ := hechoed [{ name := "a" }, { name := "b" }] rfl docs hdocs
    have hlast : ∀ own ∈ [({ name := "a" } : Legend), { name := "b" }], Path.IsLast own.name := by
      refine List.forall_mem_cons.2 ⟨⟨?_, ?_, ?_, ?_⟩, List.forall_mem_singleton.2 ⟨?_, ?_, ?_, ?_⟩⟩ <;> decide
    refine ⟨e, docs, hpage, hdocs, ?_, hbranches 1 { name := "b" } rfl⟩
    rw [hpaths hlast (by decide), hparent]
    rfl

/-- Whether the outcome is that the echo of a page is refused. -/
def refusesEcho : Except Fault Documents → Bool
  | .error (.echo _) => true
  | _ => false

/-- A template may turn the list of legends around, so that in the next branch another legend is found for the page,
which is merged over the element. And the fields of a legend that holds itself cannot be copied, which is found out
before the group is. -/
theorem renderTemplate_rearranged :
    (¬∀ (e : Engine) (path : String) (data : Value) (w : World) (l : Legend) (group : Value), e.Reached →
      e.rename = none → path ∈ e.paths → '.' ∉ (Path.name path).toList → e.Echoes path w l group →
      w.store.Unaltered (data :: e.held) w.store → (∀ place, (w.store.legend place).Plain) →
      ∀ ls, w.store.groupLegends? group = some ls →
        ∀ docs, (e.renderTemplate (.text path) data).outcome w = .ok docs →
          ∀ i own, ls[i]? = some own → ∃ context u place v,
            (e.reachBranch path data i).run.run w = (.ok context, u) ∧
            (e.openBranch path context).run.run u = (.ok place, v) ∧ Reads w.store path data l own context v) ∧
    ¬∀ (e : Engine) (path : String) (data : Value) (w : World) (l : Legend) (group : Value), e.Reached →
      e.rename = none → path ∈ e.paths → '.' ∉ (Path.name path).toList → e.Echoes path w l group →
      w.store.Unaltered (data :: e.held) w.store → (∀ place, (w.store.legend place).Plain) →
      w.store.groupLegends? group = none → ∃ f, (e.renderTemplate (.text path) data).outcome w = .error (.echo f) := by
  constructor
  · intro hall
    have hfound : ((bare.registerAll (pageSources "<< $meta.files.reverse() >>")).outcome {}).toOption.map (fun e =>
        ((e.paths, e.directories, (e.imports.isEmpty && e.rename.isNone)),
          ((e.renderTemplate (.text "item") .none).outcome (pagesWorld (echoing "pages" []))).isOk,
          ((do
            let context ← e.reachBranch "item" .none 1
            let _ ← e.openBranch "item" context
            return ((← Run.dict context).find? (.text nameKey)).any (·.sameKey (.text "item")) : Run Bool).outcome
              (pagesWorld (echoing "pages" []))).toOption)) =
        some ((["item"], [(".", 0)], true), true, some true) := by
      decide +kernel
    obtain ⟨e, he, hrun⟩ := Option.map_eq_some_iff.1 hfound
    obtain ⟨hfields, hrun⟩ := Prod.mk.inj hrun
    obtain ⟨hok, hbound⟩ := Prod.mk.inj hrun
    have hpage := HasPage.of_registerAll he hfields
    have hthere := pagesWorld_unaltered (l := echoing "pages" []) nofun
    cases hdocs : (e.renderTemplate (.text "item") .none).outcome (pagesWorld (echoing "pages" [])) with
    | error f =>
      rw [hdocs] at hok
      cases hok
    | ok docs =>
      obtain ⟨context, u, place, v, hreach, hopen, hreads⟩ := hall e "item" .none (pagesWorld (echoing "pages" [])) _ _
        hpage.reached hpage.rename hpage.page (by decide +kernel) (hpage.echoes (by decide) []) (hpage.held ▸ hthere)
        (pagesWorld_plain nofun) [{ name := "a" }, { name := "b" }] rfl docs hdocs 1 { name := "b" } rfl
      -- the second branch knows the page by the name of the legend
      unfold Run.outcome at hbound
      rw [Run.run_bind, hreach] at hbound
      dsimp only at hbound
      rw [Run.run_bind, hopen] at hbound
      dsimp only at hbound
      rw [Run.run_bind, show (Run.dict context).run.run v = (.ok (v.store.dict context), v) from rfl] at hbound
      have hname : (v.store.dict context).find? (.text nameKey) = some (.text "b") := hreads.name
      dsimp only at hbound
      rw [hname] at hbound
      cases hbound
  · intro hall
    have hfound : ((bare.registerAll (pageSources "")).outcome {}).toOption.map (fun e =>
        ((e.paths, e.directories, (e.imports.isEmpty && e.rename.isNone)),
          refusesEcho ((e.renderTemplate (.text "item") .none).outcome
            (pagesWorld (echoing "all" [("own", .list 0)]))))) = some ((["item"], [(".", 0)], true), false) := by
      decide +kernel
    obtain ⟨e, he, hrun⟩ := Option.map_eq_some_iff.1 hfound
    obtain ⟨hfields, hother⟩ := Prod.mk.inj hrun
    have hpage := HasPage.of_registerAll he hfields
    have hextras : ∀ f ∈ (echoing "all" [("own", .list 0)]).extras, f.2 = .list 0 := by simp [echoing]
    have hplain : (echoing "all" [("own", .list 0)]).Plain := by simp [Legend.Plain, echoing, nameKey]
    obtain ⟨f, hecho⟩ := hall e "item" .none (pagesWorld (echoing "all" [("own", .list 0)])) _ _ hpage.reached
      hpage.rename hpage.page (by decide +kernel) (hpage.echoes (by decide) _)
      (hpage.held ▸ pagesWorld_unaltered hextras) (pagesWorld_plain hplain) rfl
    rw [hecho] at hother
    cases hother

end Engine
end NestedSite
