import NestedSite.Proofs.Site.Echoing
import NestedSite.Proofs.Store.WellFormed

/-!
# Contexts that are prepared again

A context is furnished first with what every template finds in it (`Engine.furnished`), and then gets the fields of the
legend (`Engine.addLegend`). Where a world differs from another one at the context alone, which holds itself, the same
legend is found (`Directories.legendAt?_run_in`), and the same of what it holds can be copied
(`World.Ready.copyable_eq`); so the legend adds the same there (`Engine.addLegend_adds`). What furnishing binds anew was
bound to the same, or the legend goes over it (`Engine.Furnished.sameUnder`). So preparing a context once more changes
nothing (`Engine.ensureDefaults_settles`).
-/

namespace NestedSite

/-! ## Worlds that differ at a context -/

theorem all_congr_of_mem {α : Type} {xs : List α} {f g : α → Bool} (h : ∀ x ∈ xs, f x = g x) : xs.all f = xs.all g := by
  rw [List.all_eq, List.all_eq]
  exact decide_eq_decide.2 (forall₂_congr fun x hx => by rw [h x hx])

/-- A world that differs from `w` at the mapping at a place alone, which holds what is found in `w`. -/
structure World.Around (w : World) (place : Nat) (u : World) : Prop where
  kept : w.store.KeepsBut place u.store
  held : (u.store.dict place).In w.store.inUse

theorem World.Around.withEntry {w u : World} {place : Nat} (h : w.Around place u) {v : Value} (hv : v.In w.store.inUse)
    (key : String) : w.Around place (u.withEntry place key v) := by
  refine ⟨h.kept.withDict _, ?_⟩
  rw [World.withEntry, World.dict_withDict]
  split
  · exact h.held.insert Value.in_text hv
  · exact h.held

/-- The mapping at the place holds itself. -/
structure World.Ready (w : World) (place : Nat) (u : World) : Prop extends w.Around place u where
  self : u.binding? place selfKey = some (.dict place)

namespace World.Ready

variable {w u u' : World} {place : Nat}

theorem holds_itself (h : w.Ready place u) : ∃ k, (k, .dict place) ∈ u.store.dict place :=
  (Entries.exists_of_find? h.self).imp fun _ hk => hk.1

theorem alikeRecords (h : w.Ready place u) : w.store.inUse.AlikeRecords w.store u.store where
  lists p hp := (h.kept.lists p hp).2
  legends p hp := (h.kept.legends p hp).2
  metadata p hp := (h.kept.metadata p hp).2

variable (hw : w.store.WellFormed)

include hw

theorem closed (h : w.Ready place u) : u.store.Closed w.store.inUse where
  lists p hp := ⟨(h.kept.lists p hp).1, (h.kept.lists p hp).2 ▸ hw.lists p hp⟩
  dicts p hp := by
    refine ⟨Nat.lt_of_lt_of_le hp h.kept.dicts_le, ?_⟩
    by_cases heq : p = place
    · exact heq ▸ h.held
    · exact h.kept.dicts p hp heq ▸ (hw.dicts p hp).1
  legends p hp := ⟨(h.kept.legends p hp).1, (h.kept.legends p hp).2 ▸ hw.legends p hp⟩
  metadata p hp := ⟨(h.kept.metadata p hp).1, (h.kept.metadata p hp).2 ▸ hw.metadata p hp⟩

/-- The mapping holds itself, and the rest is the same; so what can be copied is. -/
theorem copyable_eq (h : w.Ready place u) (h' : w.Ready place u') (n : Nat) : ∀ (inside : List Value) {v : Value},
    v.In w.store.inUse → u.store.copyable n inside v = u'.store.copyable n inside v := by
  induction n with
  | zero => exact fun _ _ _ => rfl
  | succ n ih =>
    intro inside v hv
    by_cases hitself : v = .dict place
    · obtain ⟨k, hk⟩ := h.holds_itself
      obtain ⟨k', hk'⟩ := h'.holds_itself
      rw [hitself, Store.copyable_eq_false hk, Store.copyable_eq_false hk']
    have hclosed := h.closed hw
    unfold Store.copyable
    refine congrArg (!inside.any v.identical && ·) ?_
    cases v with
    | list p =>
      have hsame : u'.store.list p = u.store.list p := (h'.kept.lists p hv).2.trans (h.kept.lists p hv).2.symm
      simp only [hsame]
      exact all_congr_of_mem fun x hx => ih _ ((hclosed.lists p hv).2 x hx)
    | tuple vs => exact all_congr_of_mem fun x hx => ih _ (Value.in_tuple.1 hv x hx)
    | dict p =>
      have hne : p ≠ place := fun heq => hitself (congrArg Value.dict heq)
      have hsame : u'.store.dict p = u.store.dict p := (h'.kept.dicts p hv hne).trans (h.kept.dicts p hv hne).symm
      simp only [hsame]
      exact all_congr_of_mem fun e he => ih _ ((hclosed.dicts p hv).2 e he).2
    | legend p =>
      have hsame : u'.store.legend p = u.store.legend p := (h'.kept.legends p hv).2.trans (h.kept.legends p hv).2.symm
      simp only [hsame]
      exact all_congr_of_mem fun f hf => ih _ ((hclosed.legends p hv).2.fields f hf)
    | metadata p =>
      have hsame : u'.store.metadataAt p = u.store.metadataAt p :=
        (h'.kept.metadata p hv).2.trans (h.kept.metadata p hv).2.symm
      simp only [hsame]
      exact all_congr_of_mem fun f hf => ih _ ((hclosed.metadata p hv).2.fields f hf)
    | _ => rfl

theorem legendCopyable_eq (h : w.Ready place u) (h' : w.Ready place u') {l : Legend} (hl : l.In w.store.inUse) :
    l.copyable u.store = l.copyable u'.store :=
  all_congr_of_mem fun f hf => h.copyable_eq hw h' depthLimit [] (hl.extras f hf)

end World.Ready

/-! ## What a legend adds -/

namespace Run

theorem distinct_givenEntries (l : Legend) : (givenEntries l).Distinct := Entries.distinct_nil.merge _

theorem givenEntries_in {r : Region} {l : Legend} (hl : l.In r) : (givenEntries l).In r := by
  intro e he
  obtain ⟨f, hf, rfl⟩ := mem_givenEntries he
  exact ⟨Value.in_text, hl.givenFields f hf⟩

/-- The fields of a legend go into a mapping, all of them if they can be copied, and none if they cannot. -/
theorem mergeLegend_run {r : Region} {u : World} (hu : u.store.Closed r) {l : Legend} (hl : l.In r) {context : Nat}
    (hcontext : context < u.store.dicts.size) : ∃ u',
      (mergeLegend context l).run.run u = (if l.copyable u.store then .ok () else .error .badValue, u') ∧
      u.store.KeepsBut context u'.store ∧
      u'.store.dict context = (u.store.dict context).merge (if l.copyable u.store then givenEntries l else []) := by
  have hdecides := legendFields_decides hu hl u (.refl u.store)
  have hkeeps := legendFields_keeps l u
  unfold Run.outcome Run.after at *
  rcases hrun : (legendFields l).run.run u with ⟨result, v⟩
  rw [hrun] at hdecides hkeeps
  cases hb : l.copyable u.store with
  | false =>
    rw [hb] at hdecides
    obtain rfl : result = .error .badValue := hdecides
    refine ⟨v, ?_, hkeeps.but context, (hkeeps.dicts context hcontext).2⟩
    unfold mergeLegend
    rw [run_bind, hrun]
    rfl
  | true =>
    rw [hb] at hdecides
    obtain ⟨fields, rfl⟩ : ∃ fields, result = .ok fields := hdecides
    obtain ⟨place, rfl, hfields, hle, hkept⟩ := legendFields_ensures l u fields v hrun
    refine ⟨v.withDict context ((u.store.dict context).merge (givenEntries l)), ?_,
      (hkeeps.but context).withDict _, ?_⟩
    · unfold mergeLegend
      rw [run_bind, hrun]
      have hsame : v.store.dict context = u.store.dict context := hkept context hcontext
      rw [← hfields, ← hsame]
      rfl
    · rw [World.dict_withDict, if_pos ⟨rfl, Nat.lt_of_lt_of_le hcontext hle⟩]
      rfl

end Run

namespace Engine

variable {e : Engine} {path : String} {context : Nat} {w u : World}

/-- The world in which a context has what every template finds in it, and the metadata of the directory. -/
def furnished (e : Engine) (path : String) (context : Nat) (w : World) : World :=
  match e.directories.metadataAt? path with
  | some m => (w.prepared context).withEntry context metaKey (.metadata m)
  | none => w.prepared context

/-- The fields of the legend of a path go into a context, unless the legend echoes a group. -/
def addLegend (e : Engine) (path : String) (context : Nat) : Run Unit := do
  if let some l ← e.directories.legendAt? path then
    let legend := (← Run.store).legend l
    if !legend.echoes then Run.mergeLegend context legend

theorem ensureDefaults_run_furnished (e : Engine) (path : String) (context : Nat) (w : World) :
    (e.ensureDefaults (.text path) (.dict context)).run.run w =
      (e.addLegend path context).run.run (e.furnished path context w) := by
  rw [ensureDefaults_eq]
  simp only [Run.run_bind, ensureText_run, setKey_run]
  unfold furnish furnished World.prepared
  cases e.directories.metadataAt? path <;> rfl

/-- In all worlds that differ from `w` at the context alone, the computation ends alike and adds the same entries to the
context. -/
structure Adds (w : World) (context : Nat) (m : Run Unit) (o : Except Fault Unit) (g : Entries) : Prop where
  named : g.Named
  distinct : g.Distinct
  inUse : g.In w.store.inUse
  run : ∀ u, w.Ready context u → ∃ u', m.run.run u = (o, u') ∧ u.store.KeepsBut context u'.store ∧
    u'.store.dict context = (u.store.dict context).merge g

theorem Adds.nothing {m : Run Unit} {o : Except Fault Unit} (h : ∀ u, w.Ready context u → m.run.run u = (o, u)) :
    Adds w context m o [] where
  named := nofun
  distinct := Entries.distinct_nil
  inUse := Entries.in_nil
  run u hu := ⟨u, h u hu, (Store.Keeps.refl _).but context, rfl⟩

/-- Whether a legend can be copied is the same in all these worlds. -/
theorem mergeLegend_adds (hw : w.store.WellFormed) (hcontext : Present context w) (hu : w.Ready context u)
    {l : Legend} (hl : l.In w.store.inUse) :
    ∃ o g, Adds w context (Run.mergeLegend context l) o g := by
  refine ⟨if l.copyable u.store then .ok () else .error .badValue,
    if l.copyable u.store then Run.givenEntries l else [], ?_⟩
  have hrun : ∀ v, w.Ready context v → ∃ v', (Run.mergeLegend context l).run.run v =
      (if l.copyable u.store then .ok () else .error .badValue, v') ∧ v.store.KeepsBut context v'.store ∧
      v'.store.dict context = (v.store.dict context).merge (if l.copyable u.store then Run.givenEntries l else []) := by
    intro v hv
    rw [hu.legendCopyable_eq hw hv hl]
    exact Run.mergeLegend_run (hv.closed hw) hl (Nat.lt_of_lt_of_le hcontext hv.kept.dicts_le)
  generalize l.copyable u.store = b at hrun ⊢
  cases b with
  | false => exact ⟨nofun, Entries.distinct_nil, Entries.in_nil, hrun⟩
  | true => exact ⟨Run.named_givenEntries l, Run.distinct_givenEntries l, Run.givenEntries_in hl, hrun⟩

/-- What the legend of a path adds to a context. -/
theorem addLegend_adds (hw : w.store.WellFormed) (hdirs : DirectoriesIn w.store.inUse e.directories)
    (hcontext : Present context w) (hu : w.Ready context u) (path : String) :
    ∃ o g, Adds w context (e.addLegend path context) o g := by
  obtain ⟨found, hfound, hlegend⟩ := Directories.legendAt?_run_in hw.lists hw.metadata hdirs path
  unfold addLegend
  cases found with
  | error f => exact ⟨.error f, [], .nothing fun v hv => by rw [Run.run_bind, hlegend v hv.alikeRecords]⟩
  | ok found =>
    cases found with
    | none =>
      refine ⟨.ok (), [], .nothing fun v hv => ?_⟩
      rw [Run.run_bind, hlegend v hv.alikeRecords]
      rfl
    | some l =>
      have hlt := hfound l rfl
      have hrun (v : World) (hv : w.Ready context v) : (e.addLegend path context).run.run v =
          (if !(w.store.legend l).echoes then Run.mergeLegend context (w.store.legend l) else pure ()).run.run v := by
        have hsame : v.store.legend l = w.store.legend l := (hv.kept.legends l hlt).2
        rw [← hsame, addLegend, Run.run_bind, hlegend v hv.alikeRecords]
        rfl
      cases hechoes : (w.store.legend l).echoes with
      | true =>
        refine ⟨.ok (), [], .nothing fun v hv => (hrun v hv).trans ?_⟩
        rw [hechoes]
        rfl
      | false =>
        rw [hechoes] at hrun
        obtain ⟨o, g, hadds⟩ := mergeLegend_adds hw hcontext hu (hw.legends l hlt)
        exact ⟨o, g, { hadds with run := fun v hv => (hrun v hv).symm ▸ hadds.run v hv }⟩

/-! ## What every context has -/

/-- What can be said of a world can be said of the one in which a context is furnished, if binding such a value does not
matter for it. -/
theorem furnished_of {P : World → Prop} (h : P w) (hstep : ∀ u key v, (v = .text "" ∨ v = .dict context ∨
    ∃ m, e.directories.metadataAt? path = some m ∧ v = .metadata m) → P u → P (u.withEntry context key v)) :
    P (e.furnished path context w) := by
  have htext (u : World) (key : String) (hu : P u) : P (u.withText context key) := by
    unfold World.withText
    split
    · exact hu
    · exact hstep u key _ (.inl rfl) hu
  have hprepared : P (w.prepared context) := hstep _ selfKey _ (.inr (.inl rfl)) (htext _ _ (htext _ _ h))
  unfold furnished
  split
  · exact hstep _ metaKey _ (.inr (.inr ⟨_, ‹_›, rfl⟩)) hprepared
  · exact hprepared

theorem keepsBut_furnished (e : Engine) (path : String) (context : Nat) (w : World) :
    w.store.KeepsBut context (e.furnished path context w).store :=
  furnished_of (P := fun u => w.store.KeepsBut context u.store) ((Store.Keeps.refl _).but context)
    fun _ _ _ _ hu => hu.withDict _

/-- What a furnished context has. -/
structure Furnished (e : Engine) (path : String) (context : Nat) (es : Entries) : Prop where
  content : ∃ t, es.find? (.text contentKey) = some (.text t)
  title : ∃ t, es.find? (.text titleKey) = some (.text t)
  self : es.find? (.text selfKey) = some (.dict context)
  metadata : ∀ m, e.directories.metadataAt? path = some m → es.find? (.text metaKey) = some (.metadata m)

theorem furnished_furnished (hcontext : Present context w) :
    Furnished e path context ((e.furnished path context w).store.dict context) := by
  have hlt : context < (w.prepared context).store.dicts.size := by simpa [Present] using hcontext
  have hcontent : ∃ t, (w.prepared context).binding? context contentKey = some (.text t) := by
    rw [World.binding?_prepared hcontext]
    exact World.binding?_withText hcontext contentKey
  have htitle : ∃ t, (w.prepared context).binding? context titleKey = some (.text t) := by
    unfold World.prepared
    rw [World.binding?_withEntry (by simpa [Present] using hcontext), if_neg (by decide)]
    exact World.binding?_withText (by simpa [Present] using hcontext) titleKey
  have hself : (w.prepared context).binding? context selfKey = some (.dict context) := by
    unfold World.prepared
    rw [World.binding?_withEntry (by simpa [Present] using hcontext), if_pos rfl]
  unfold furnished
  cases hm : e.directories.metadataAt? path with
  | none => exact ⟨hcontent, htitle, hself, fun m h => by cases hm.symm.trans h⟩
  | some m =>
    have hbound (key : String) : ((w.prepared context).withEntry context metaKey (.metadata m)).binding? context key =
        if metaKey = key then some (.metadata m) else (w.prepared context).binding? context key :=
      World.binding?_withEntry hlt ..
    refine ⟨hcontent.imp fun t ht => ?_, htitle.imp fun t ht => ?_, ?_, fun m' h => ?_⟩
    · exact (hbound contentKey).trans (by rw [if_neg (by decide), ht])
    · exact (hbound titleKey).trans (by rw [if_neg (by decide), ht])
    · exact (hbound selfKey).trans (by rw [if_neg (by decide), hself])
    · cases hm.symm.trans h
      exact (hbound metaKey).trans (if_pos rfl)

/-- A furnished context over which entries were merged is furnished again under them. -/
theorem Furnished.sameUnder {g es : Entries} (h : Furnished e path context es) (hg : g.Named) (hu : Present context u)
    (hsame : Entries.SameUnder g es (u.store.dict context)) :
    Entries.SameUnder g es ((e.furnished path context u).store.dict context) := by
  have hentry {v : World} (hv : Present context v) (hunder : Entries.SameUnder g es (v.store.dict context))
      {key : String} {x : Value} (hkey : (es.find? (.text key)).isSome)
      (hx : .text key ∉ g.keys → es.find? (.text key) = some x) :
      Entries.SameUnder g es ((v.withEntry context key x).store.dict context) := by
    rw [World.withEntry, World.dict_withDict, if_pos ⟨rfl, hv⟩]
    exact hunder.insert hg hkey hx
  have htext {v : World} (hv : Present context v) (hunder : Entries.SameUnder g es (v.store.dict context))
      {key : String} (hkey : ∃ t, es.find? (.text key) = some (.text t)) :
      Entries.SameUnder g es ((v.withText context key).store.dict context) := by
    obtain ⟨t, ht⟩ := hkey
    unfold World.withText
    split
    · exact hunder
    · rename_i hother
      -- a key that is not bound to a text here is one that `g` binds
      exact hentry hv hunder (by rw [ht]; rfl) fun hmem => (hother t ((hunder.found key hmem).trans ht)).elim
  have hprepared : Entries.SameUnder g es ((u.prepared context).store.dict context) := by
    have hcontent := htext hu hsame h.content
    have htitle := htext (by simpa [Present] using hu) hcontent h.title
    exact hentry (by simpa [Present] using hu) htitle (by rw [h.self]; rfl) fun _ => h.self
  unfold furnished
  cases hm : e.directories.metadataAt? path with
  | none => exact hprepared
  | some m =>
    have hmeta := h.metadata m hm
    exact hentry (by simpa [Present] using hu) hprepared (by rw [hmeta]; rfl) fun _ => hmeta

theorem ready_furnished (hdirs : DirectoriesIn w.store.inUse e.directories) (hcontext : Present context w)
    (hu : w.Around context u) (path : String) : w.Ready context (e.furnished path context u) where
  toAround := furnished_of hu fun x key v hv hx => by
    refine hx.withEntry ?_ key
    obtain rfl | rfl | ⟨m, hm, rfl⟩ := hv
    · exact Value.in_text
    · exact hcontext
    · exact metadataAt?_in hdirs m hm
  self := (furnished_furnished (Nat.lt_of_lt_of_le hcontext hu.kept.dicts_le)).self

/-- A context that was prepared for the template at a path is not changed when it is prepared for it once more: it holds
the same entries in the same order, what there was is as it was, and the preparation ends as before. -/
theorem ensureDefaults_settles (hw : w.store.WellFormed) (hdirs : DirectoriesIn w.store.inUse e.directories)
    (hcontext : Present context w) (path : String) :
    let prepare := e.ensureDefaults (.text path) (.dict context)
    (prepare.after (prepare.after w)).store.dict context = (prepare.after w).store.dict context ∧
      (prepare.after w).store.Keeps (prepare.after (prepare.after w)).store ∧
      prepare.outcome (prepare.after w) = prepare.outcome w := by
  have hfirst : w.Around context w := ⟨(Store.Keeps.refl _).but context, (hw.dicts context hcontext).1⟩
  have hready := ready_furnished hdirs hcontext hfirst path
  obtain ⟨o, g, hadds⟩ := addLegend_adds hw hdirs hcontext hready path
  obtain ⟨u, hrun, hkept, hdict⟩ := hadds.run _ hready
  have hu : w.Around context u := ⟨hready.kept.trans hkept, hdict ▸ hready.held.merge hadds.inUse⟩
  have hready' := ready_furnished hdirs hcontext hu path
  obtain ⟨v, hrun', hkept', hdict'⟩ := hadds.run _ hready'
  have hpresent : Present context u := Nat.lt_of_lt_of_le hcontext hu.kept.dicts_le
  have hsame : v.store.dict context = u.store.dict context := by
    have hunder : Entries.SameUnder g ((e.furnished path context w).store.dict context) (u.store.dict context) :=
      hdict ▸ .of_merge _ hadds.named hadds.distinct
    rw [hdict', hdict, ((furnished_furnished hcontext).sameUnder hadds.named hpresent hunder).merged]
  have hkeeps : u.store.Keeps v.store := ((keepsBut_furnished e path context u).trans hkept').keeps hsame
  have hbefore : (e.ensureDefaults (.text path) (.dict context)).run.run w = (o, u) :=
    (ensureDefaults_run_furnished ..).trans hrun
  have hagain : (e.ensureDefaults (.text path) (.dict context)).run.run u = (o, v) :=
    (ensureDefaults_run_furnished ..).trans hrun'
  intro prepare
  have hafter : prepare.after w = u := congrArg Prod.snd hbefore
  have hafter' : prepare.after u = v := congrArg Prod.snd hagain
  rw [hafter, hafter']
  exact ⟨hsame, hkeeps, (congrArg Prod.fst hagain).trans (congrArg Prod.fst hbefore).symm⟩

/-- A legend whose fields go by the names of what every context has. -/
def reserving : Legend := { name := "item", extras := [(contentKey, .int 1), (selfKey, .none), (metaKey, .dict 1)] }

theorem pagesWorld_wellFormed {l : Legend} (hl : l.In (pagesWorld l).store.inUse) :
    (pagesWorld l).store.WellFormed := by
  refine ⟨fun p hp => ?_, fun p hp => ?_, nofun, nofun, fun p hp => ?_, fun p hp => ?_⟩
  · match p, hp with
    | 0, _ => exact List.forall_mem_cons.2 ⟨Nat.zero_lt_two, List.forall_mem_singleton.2 Nat.one_lt_two⟩
    | 1, _ => exact List.forall_mem_cons.2 ⟨Nat.zero_lt_two, List.forall_mem_singleton.2 Nat.one_lt_two⟩
  · match p, hp with
    | 0, _ => exact ⟨List.forall_mem_singleton.2 ⟨trivial, trivial⟩, List.pairwise_singleton _ _⟩
    | 1, _ => exact ⟨List.forall_mem_singleton.2 ⟨trivial, trivial⟩, List.pairwise_singleton _ _⟩
  · match p, hp with
    | 0, _ => exact hl
    | 1, _ => exact ⟨nofun⟩
  · match p, hp with
    | 0, _ => exact ⟨Nat.zero_lt_two, List.forall_mem_singleton.2 Nat.one_lt_two⟩

/-- Such fields are put in the place of what every context has, and are put there once more. -/
theorem ensureDefaults_settles_reserving :
    let w := pagesWorld reserving
    let prepare := Engine.ensureDefaults { bare with directories := [(".", 0)] } (.text "item") (.dict 0)
    prepare.outcome w = .ok () ∧ ((prepare.after w).binding? 0 contentKey).any (·.sameKey (.int 1)) = true ∧
      ((prepare.after w).binding? 0 selfKey).any (·.sameKey .none) = true ∧
      (prepare.after (prepare.after w)).store.dict 0 = (prepare.after w).store.dict 0 ∧
      (prepare.after w).store.Keeps (prepare.after (prepare.after w)).store ∧
      prepare.outcome (prepare.after w) = .ok () := by
  intro w prepare
  have hrun : ((prepare.outcome w).isOk && ((prepare.after w).binding? 0 contentKey).any (·.sameKey (.int 1)) &&
      ((prepare.after w).binding? 0 selfKey).any (·.sameKey .none)) = true := by
    decide +kernel
  simp only [Bool.and_eq_true] at hrun
  obtain ⟨⟨hok, hcontent⟩, hself⟩ := hrun
  have hin : reserving.In (pagesWorld reserving).store.inUse :=
    ⟨List.forall_mem_cons.2 ⟨trivial, List.forall_mem_cons.2 ⟨trivial, List.forall_mem_singleton.2 Nat.one_lt_two⟩⟩⟩
  have hpresent : Present 0 w := Nat.zero_lt_two
  obtain ⟨hsame, hkeeps, hends⟩ := ensureDefaults_settles (e := { bare with directories := [(".", 0)] })
    (pagesWorld_wellFormed hin) (List.forall_mem_singleton.2 Nat.zero_lt_one) hpresent "item"
  have hfirst : prepare.outcome w = .ok () := by
    cases houtcome : prepare.outcome w with
    | ok u => rfl
    | error f =>
      rw [houtcome] at hok
      cases hok
  exact ⟨hfirst, hcontent, hself, hsame, hkeeps, hends.trans hfirst⟩

end Engine

end NestedSite
