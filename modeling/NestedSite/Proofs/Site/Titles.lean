import NestedSite.Proofs.Site.Wrapping
import NestedSite.Proofs.Template.Machine

/-!
# Titles of pages

The templates of a page collect titles in its context: `$entitle(title, $)` puts a title in front of those that the
levels below have collected (`State.Entitles.step_run`). A template is followed step by step: apart from the statement
no step writes the title of the context, or what the context is known by (`State.Entitled`). From one level to the next
the title only waits, whether the level has a template or not (`Engine.renderOne_collects`). So what a template reads is
made of the titles of its level and of the levels below (`Engine.title_collected`).
-/

namespace NestedSite

/-! ## Titles that are collected -/

/-- The title that a value gives: a text that is not empty. -/
def Value.title? : Value → Option String
  | .text t => if t.isEmpty then Option.none else some t
  | _ => Option.none

/-- The titles that are collected, in one text. -/
def joinedTitles (titles : List String) : String := Helper.titleSeparator.intercalate titles

theorem Value.title?_ne_empty {v : Value} {t : String} (h : v.title? = some t) : t ≠ "" := by
  unfold title? at h
  split at h
  · split at h
    · cases h
    · rename_i hne
      cases h
      simpa using hne
  · cases h

theorem joinedTitles_eq_empty {titles : List String} (h : ∀ t ∈ titles, t ≠ "") :
    joinedTitles titles = "" ↔ titles = [] := by
  cases titles with
  | nil => simp [joinedTitles]
  | cons t titles =>
    have ht := h t List.mem_cons_self
    cases titles with
    | nil => simpa [joinedTitles] using ht
    | cons u titles =>
      simp only [joinedTitles, String.intercalate_cons_cons, reduceCtorEq, iff_false]
      intro hempty
      simp [Helper.titleSeparator] at hempty

/-- A title goes in front of those that are there. -/
theorem titled_joinedTitles {titles : List String} (h : ∀ t ∈ titles, t ≠ "") (title : String) :
    Helper.titled title (some (.text (joinedTitles titles))) = joinedTitles (title :: titles) := by
  have hempty := joinedTitles_eq_empty h
  cases titles with
  | nil => simp [Helper.titled, joinedTitles]
  | cons u titles =>
    have hne : (joinedTitles (u :: titles)).isEmpty = false := by
      rw [Bool.eq_false_iff]
      exact fun heq => nomatch hempty.1 (String.isEmpty_iff.1 heq)
    rw [Helper.titled, hne, if_neg Bool.false_ne_true]
    simp only [joinedTitles, String.intercalate_cons_cons]

/-- The world in which a value is put in front of the titles that a context has collected. -/
def World.entitled (w : World) (context : Nat) (v : Value) : World :=
  match v.title? with
  | some t => w.withEntry context titleKey (.text (Helper.titled t (w.binding? context titleKey)))
  | none => w

theorem World.lt_size_of_binding? {w : World} {place : Nat} {key : String} {v : Value}
    (h : w.binding? place key = some v) : place < w.store.dicts.size := by
  by_contra hnot
  rw [binding?, Store.dict, Array.getElem?_eq_none (Nat.le_of_not_lt hnot)] at h
  cases h

/-- The title of a context that has collected titles, after one more value, and what the context is known by. -/
theorem World.binding?_entitled {w : World} {context : Nat} {titles : List String} (ht : ∀ t ∈ titles, t ≠ "")
    (h : w.binding? context titleKey = some (.text (joinedTitles titles))) (v : Value) :
    (w.entitled context v).binding? context titleKey = some (.text (joinedTitles (v.title?.toList ++ titles))) ∧
      (w.entitled context v).binding? context selfKey = w.binding? context selfKey := by
  have hpresent := lt_size_of_binding? h
  unfold entitled
  cases v.title? with
  | none => exact ⟨h, rfl⟩
  | some t =>
    dsimp only
    rw [binding?_withEntry hpresent, if_pos rfl, binding?_withEntry hpresent, if_neg (by decide), h,
      titled_joinedTitles ht]
    exact ⟨rfl, rfl⟩

theorem Run.entitle_run (v : Value) (context : Nat) (w : World) :
    (Run.entitle v (.dict context)).run.run w = (.ok .none, w.entitled context v) := by
  unfold Run.entitle World.entitled Value.title?
  cases v with
  | text t => by_cases h : t.isEmpty = true <;> simp [h] <;> rfl
  | _ => rfl

/-! ## One template -/

/-- The title that a statement puts in front, if it is `$entitle(title, $)`. -/
def Template.Statement.title? : Template.Statement → Option Template.Expr
  | .expression (.call (.name "_dollar_entitle") [title, .name "_dollar_"] []) => some title
  | _ => none

theorem Template.Statement.title?_eq_some {s : Template.Statement} {title : Template.Expr} :
    s.title? = some title ↔ s = .expression (.call (.name "_dollar_entitle") [title, .name "_dollar_"] []) := by
  constructor
  · intro h
    unfold title? at h
    split at h
    · cases h
      rfl
    · cases h
  · rintro rfl
    rfl

example : ((Template.parseAction "$entitle(t, $)").toOption.bind Template.Statement.title?).any (·.isName "t") = true := by
  decide +kernel

/-- What the context is known by, and its title, are the same in both worlds. -/
structure World.SameTitle (context : Nat) (w w' : World) : Prop where
  title : w'.binding? context titleKey = w.binding? context titleKey
  self : w'.binding? context selfKey = w.binding? context selfKey

namespace Template

variable {setting : Setting} {context : Nat}

namespace State

variable {σ τ σ₀ : State} {v : Value} {titles : List String}

/-- Neither the title of the context is written nor what it is known by, be it in the context or by assigning. -/
structure Spares (context : Nat) (σ τ : State) : Prop where
  context : σ.world.SameTitle context τ.world
  title : τ.progress.locals.find? titleKey = σ.progress.locals.find? titleKey
  self : τ.progress.locals.find? selfKey = σ.progress.locals.find? selfKey

/-- The next statement is `$entitle(title, $)`, where `$entitle` is the helper and the title has the value `v`. -/
def Entitles (setting : Setting) (context : Nat) (σ : State) (v : Value) : Prop :=
  ∃ s title ts w, σ.tasks = .block (.action s) :: ts ∧ s.title? = some title ∧
    (setting.scope σ.progress).find? σ.world.store Helper.entitle.name = some (.helper .entitle) ∧
    (title.eval setting.host (setting.scope σ.progress)).run.run σ.world = (.ok v, w) ∧ σ.world.SameTitle context w

/-- A state that is gone through from `σ₀` on, with the values that have been put in front of the title by then, the
last one first: nothing else has written the title, or what the context is known by. -/
inductive Entitled (setting : Setting) (context : Nat) (σ₀ : State) : List Value → State → Prop
  | start : Entitled setting context σ₀ [] σ₀
  | spare {vs : List Value} {σ τ : State} (h : Entitled setting context σ₀ vs σ) (next : Next setting σ τ)
      (spares : σ.Spares context τ) : Entitled setting context σ₀ vs τ
  | entitle {vs : List Value} {v : Value} {σ τ : State} (h : Entitled setting context σ₀ vs σ)
      (entitles : σ.Entitles setting context v) (next : Next setting σ τ) : Entitled setting context σ₀ (v :: vs) τ

theorem Entitled.reaches {vs : List Value} (h : Entitled setting context σ₀ vs σ) : Reaches setting σ₀ σ := by
  induction h with
  | start => exact .refl
  | spare _ next _ ih => exact ih.tail next
  | entitle _ _ next ih => exact ih.tail next

/-- The context is known by `$`, and has collected the titles. -/
structure Collected (context : Nat) (titles : List String) (σ : State) : Prop where
  title : σ.world.binding? context titleKey = some (.text (joinedTitles titles))
  self : σ.world.binding? context selfKey = some (.dict context)
  noTitle : σ.progress.locals.find? titleKey = none
  noSelf : σ.progress.locals.find? selfKey = none

theorem Collected.spare (h : σ.Collected context titles) (spares : σ.Spares context τ) : τ.Collected context titles where
  title := spares.context.title.trans h.title
  self := spares.context.self.trans h.self
  noTitle := spares.title.trans h.noTitle
  noSelf := spares.self.trans h.noSelf

theorem eval_name (host : Host) (scope : Scope) (id : String) (w : World) :
    ((Expr.name id).eval host scope).run.run w = (.ok ((scope.find? w.store (scopeKey id)).getD .none), w) := by
  unfold Expr.eval
  rfl

/-- What the statement comes to: the value is put in front of the titles. -/
theorem eval_entitle {host : Host} {scope : Scope} {title : Expr} {w w' : World}
    (hentitle : scope.find? w.store Helper.entitle.name = some (.helper .entitle))
    (htitle : (title.eval host scope).run.run w = (.ok v, w'))
    (hself : scope.find? w'.store selfKey = some (.dict context)) :
    ((Expr.call (.name "_dollar_entitle") [title, .name "_dollar_"] []).eval host scope).run.run w =
      (.ok .none, World.entitled { w' with deeds := .call (.helper .entitle) [v, .dict context] [] :: w'.deeds }
        context v) := by
  have hname : ((Expr.name "_dollar_entitle").eval host scope).run.run w = (.ok (.helper .entitle), w) := by
    rw [eval_name, show scopeKey "_dollar_entitle" = Helper.entitle.name by decide, hentitle]
    rfl
  have hcontext : ((Expr.name "_dollar_").eval host scope).run.run w' = (.ok (.dict context), w') := by
    rw [eval_name, show scopeKey "_dollar_" = selfKey by decide, hself]
    rfl
  have harguments : (evalAll host scope [title, .name "_dollar_"]).run.run w = (.ok [v, .dict context], w') := by
    simp only [evalAll]
    rw [Run.run_bind, htitle]
    dsimp only
    rw [Run.run_bind, Run.run_bind, hcontext]
    rfl
  unfold Expr.eval
  rw [Run.run_bind, hname]
  dsimp only
  rw [Run.run_bind]
  show (evalAll host scope [title, .name "_dollar_"] >>= fun positional => _).run.run w = _
  rw [Run.run_bind, harguments]
  exact Run.entitle_run v context _

theorem find?_of_binding? {w : World} {p : Progress} {key : String} (hsetting : setting.context = some context)
    (hlocals : p.locals.find? key = none) (h : w.binding? context key = some v) :
    (setting.scope p).find? w.store key = some v := by
  rw [World.binding?] at h
  simp only [Scope.find?, Setting.scope, hlocals, hsetting, Option.bind_some, h]

/-- The statement is done in one step, which puts its value in front of the titles. -/
theorem Entitles.step_run (h : σ.Collected context titles) (hsetting : setting.context = some context)
    (entitles : σ.Entitles setting context v) : ∃ t ts w, σ.tasks = t :: ts ∧ σ.world.SameTitle context w ∧
      ((t.step setting).run σ.progress).run.run σ.world = (.ok ([], σ.progress), w.entitled context v) := by
  obtain ⟨s, title, ts, w, htasks, hs, hentitle, htitle, hsame⟩ := entitles
  obtain rfl := Statement.title?_eq_some.1 hs
  refine ⟨_, ts, { w with deeds := .call (.helper .entitle) [v, .dict context] [] :: w.deeds }, htasks,
    ⟨hsame.title, hsame.self⟩, ?_⟩
  have hself := find?_of_binding? (w := w) hsetting h.noSelf (hsame.self.trans h.self)
  rw [Task.step, Step.run_bind_of_ok (Step.perform_of_ok (eval_entitle hentitle htitle hself))]
  rfl

theorem Collected.entitle (h : σ.Collected context titles) (ht : ∀ t ∈ titles, t ≠ "")
    (hsetting : setting.context = some context) (entitles : σ.Entitles setting context v) (next : Next setting σ τ) :
    τ.Collected context (v.title?.toList ++ titles) := by
  obtain ⟨t, ts, w, htasks, hsame, hrun⟩ := entitles.step_run h hsetting
  cases next with
  | intro hnext =>
    cases htasks
    cases hnext.symm.trans hrun
    obtain ⟨htitle, hself⟩ := World.binding?_entitled ht (hsame.title.trans h.title) v
    exact ⟨htitle, hself.trans (hsame.self.trans h.self), h.noTitle, h.noSelf⟩

/-- Whatever states are gone through, the values are collected one in front of the other. -/
theorem Entitled.collected {vs : List Value} (h : Entitled setting context σ₀ vs σ)
    (hsetting : setting.context = some context) (ht : ∀ t ∈ titles, t ≠ "") (h₀ : σ₀.Collected context titles) :
    σ.Collected context (vs.filterMap Value.title? ++ titles) := by
  induction h with
  | start => exact h₀
  | spare _ _ spares ih => exact ih.spare spares
  | @entitle vs v _ _ _ entitles next ih =>
    have hall : ∀ t ∈ vs.filterMap Value.title? ++ titles, t ≠ "" := by
      intro t hmem
      rcases List.mem_append.1 hmem with hmem | hmem
      · obtain ⟨u, -, hu⟩ := List.mem_filterMap.1 hmem
        exact Value.title?_ne_empty hu
      · exact ht t hmem
    have hnext := ih.entitle hall hsetting entitles next
    cases hv : v.title? <;> simpa [List.filterMap_cons, hv] using hnext

end State

end Template

/-! ## From level to level -/

namespace Engine

open Template (State)

variable {e : Engine} {context : Nat} {w : World} {titles : List String}

/-- The setting in which the template of a level is executed. -/
def setting (e : Engine) (context : Nat) : Template.Setting := ⟨e.host (includeLimit - 1), some context, e.scope⟩

/-- The state in which the template of a level begins. -/
def levelStart (e : Engine) (context : Nat) (level : String) (t : Template) (w : World) : State :=
  .start t.blocks ((e.ensureDefaults (.text level) (.dict context)).after w)

/-- Where the level has a template, this goes through to its end, and runs `$entitle(v, $)` once. -/
def EntitlesOnce (e : Engine) (context : Nat) (level : String) (w : World) (v : Value) : Prop :=
  ∀ t, e.template? (levelKey level) = some t →
    ∃ p' w', State.Entitled (e.setting context) context (e.levelStart context level t w) [v] ⟨[], p', w'⟩

/-- The titles that the levels with a template give. -/
def levelTitles (e : Engine) (titles : String → Value) (levels : List String) : List String :=
  (levels.filter fun level => (e.template? (levelKey level)).isSome).filterMap fun level => (titles level).title?

/-- The context is there, and has collected the titles; before the first level it may have no title. -/
structure Collects (context : Nat) (titles : List String) (w : World) : Prop where
  present : Present context w
  title : w.binding? context titleKey = some (.text (joinedTitles titles)) ∨
    w.binding? context titleKey = none ∧ titles = []

theorem Collects.prepared (h : Collects context titles w) :
    (w.prepared context).binding? context titleKey = some (.text (joinedTitles titles)) ∧
      (w.prepared context).binding? context selfKey = some (.dict context) := by
  have hcontent : context < (w.withText context contentKey).store.dicts.size := by
    rw [World.dicts_size_withText]
    exact h.present
  have hsize : context < ((w.withText context contentKey).withText context titleKey).store.dicts.size := by
    simpa using hcontent
  have hold := World.binding?_withText_of_ne h.present (show contentKey ≠ titleKey by decide)
  have htitle : ((w.withText context contentKey).withText context titleKey).binding? context titleKey =
      some (.text (joinedTitles titles)) := by
    rcases h.title with hsome | ⟨hnone, rfl⟩
    · rw [World.withText_of_text (hold.trans hsome), hold, hsome]
    · rw [World.withText, hold, hnone]
      exact (World.binding?_withEntry hcontent _ _ _).trans (if_pos rfl)
  unfold World.prepared
  rw [World.binding?_withEntry hsize, if_neg (by decide), World.binding?_withEntry hsize, if_pos rfl]
  exact ⟨htitle, rfl⟩

theorem Collects.levelStart (hbare : e.directories = []) (h : Collects context titles w) (level : String)
    (t : Template) : (e.levelStart context level t w).Collected context titles := by
  obtain ⟨htitle, hself⟩ := h.prepared
  unfold Engine.levelStart Run.after
  rw [ensureDefaults_run hbare]
  exact ⟨htitle, hself, rfl, rfl⟩

theorem Collects.withEntry (h : Collects context titles w) {key : String} (hkey : key ≠ titleKey) (v : Value) :
    Collects context titles (w.withEntry context key v) where
  present := by simpa [Present] using h.present
  title := by
    rw [World.binding?_withEntry h.present, if_neg hkey]
    exact h.title

/-- A level whose template puts a value in front of the title once leaves it with the others; so does a level without
a template, which has none. -/
theorem renderOne_collects (hbare : e.directories = []) (ht : ∀ t ∈ titles, t ≠ "") (h : Collects context titles w)
    {level : String} (hlevel : Path.IsNormal level) {v : Value} (honce : e.EntitlesOnce context level w v) :
    ∃ out w', (e.renderOne (.text level) (.dict context)).run.run w = (.ok out, w') ∧
      Collects context (e.levelTitles (fun _ => v) [level] ++ titles) w' := by
  rw [renderOne_eq hlevel, renderLevel, Run.run_bind, ensureDefaults_run hbare]
  dsimp only
  cases htemplate : e.template? (levelKey level) with
  | none =>
    refine ⟨_, _, reporting_run (passedContent_run context (w.prepared context)), ?_⟩
    have hnone : e.levelTitles (fun _ => v) [level] = [] := by simp [levelTitles, htemplate]
    rw [hnone, List.nil_append]
    exact ⟨by simpa [Present] using h.present, .inl h.prepared.1⟩
  | some t =>
    obtain ⟨p', w', hentitled⟩ := honce t htemplate
    have hcollected := hentitled.collected rfl ht (h.levelStart hbare level t)
    have hsome : e.levelTitles (fun _ => v) [level] = [v].filterMap Value.title? := by
      simp [levelTitles, htemplate, List.filterMap_cons]
    rw [← hsome] at hcollected
    have hrender := State.render_of_reaches hentitled.reaches
    rw [Run.after, ensureDefaults_run hbare] at hrender
    change (t.render (e.host (includeLimit - 1)) e.scope (some context)).run.run (w.prepared context) = _ at hrender
    have htext : (Value.text <$> t.render (e.host (includeLimit - 1)) e.scope (some context)).run.run
        (w.prepared context) = (.ok (.text p'.output), w') := by
      rw [map_eq_pure_bind, Run.run_bind, hrender]
      rfl
    refine ⟨_, w', reporting_run htext, ?_, .inl hcollected.title⟩
    exact World.lt_size_of_binding? hcollected.title

theorem levelTitles_cons (e : Engine) (titles : String → Value) (level : String) (levels : List String) :
    e.levelTitles titles (level :: levels) =
      e.levelTitles (fun _ => titles level) [level] ++ e.levelTitles titles levels := by
  unfold levelTitles
  cases h : (e.template? (levelKey level)).isSome with
  | false => simp [h]
  | true => cases ht : (titles level).title? <;> simp [h, ht]

theorem levelTitles_append (e : Engine) (titles : String → Value) (levels others : List String) :
    e.levelTitles titles (levels ++ others) = e.levelTitles titles levels ++ e.levelTitles titles others := by
  simp [levelTitles]

theorem ne_empty_of_mem_levelTitles {titles : String → Value} {levels : List String} {t : String}
    (h : t ∈ e.levelTitles titles levels) : t ≠ "" := by
  obtain ⟨level, -, ht⟩ := List.mem_filterMap.1 h
  exact Value.title?_ne_empty ht

/-- The levels of a page collect their titles, each in front of those of the levels below. -/
theorem renderLevels_collects (hbare : e.directories = []) {values : String → Value} {levels : List String}
    (hnormal : ∀ level ∈ levels, Path.IsNormal level) {w : World} {titles : List String} (ht : ∀ t ∈ titles, t ≠ "")
    (h : Collects context titles w)
    (honce : ∀ lower level upper v, levels = lower ++ level :: upper →
      (e.renderLevels context lower).run.run w = (.ok (), v) → e.EntitlesOnce context level v (values level)) :
    ∃ w', (e.renderLevels context levels).run.run w = (.ok (), w') ∧
      Collects context (e.levelTitles values levels.reverse ++ titles) w' := by
  induction levels generalizing w titles with
  | nil => exact ⟨w, rfl, h⟩
  | cons level levels ih =>
    obtain ⟨hlevel, hnormal⟩ := List.forall_mem_cons.1 hnormal
    obtain ⟨out, u, hone, hu⟩ := renderOne_collects hbare ht h hlevel (honce [] level levels w rfl rfl)
    have hfirst (rest : List String) : (e.renderLevels context (level :: rest)).run.run w =
        (e.renderLevels context rest).run.run (u.withEntry context contentKey out) := by
      rw [renderLevels_cons, Run.run_bind, hone]
      dsimp only
      rw [Run.run_bind, setKey_run]
    have hall : ∀ t ∈ e.levelTitles (fun _ => values level) [level] ++ titles, t ≠ "" := fun t hmem =>
      (List.mem_append.1 hmem).elim ne_empty_of_mem_levelTitles (ht t)
    obtain ⟨w', hrest, hw'⟩ := ih hnormal hall (hu.withEntry (show contentKey ≠ titleKey by decide) out)
      fun lower l upper v hlevels hlower =>
        honce (level :: lower) l upper v (congrArg (level :: ·) hlevels) ((hfirst lower).trans hlower)
    refine ⟨w', (hfirst levels).trans hrest, ?_⟩
    rw [List.reverse_cons, levelTitles_append, List.append_assoc]
    rw [e.levelTitles_cons values level [], show e.levelTitles values [] = [] from rfl, List.append_nil]
    exact hw'

/-- A context of its own, with the entries of the data, has a title only if the data have one. -/
theorem copiedContext_collects {data : Value} {w : World} (hdata : ∀ q, data = .dict q → w.binding? q titleKey = none) :
    (copiedContext data).Ensures w (Collects · []) := by
  have hnew (es : Entries) (hes : es.find? (.text titleKey) = none) : (contextOf =<< Run.newDict es).Ensures w
      (Collects · []) := by
    refine .step_bind (Run.newDict_run es w) (.pure ⟨by simp [Present], .inr ⟨?_, rfl⟩⟩)
    rw [World.binding?, Store.dict_push, if_pos rfl, hes]
  unfold copiedContext
  cases data with
  | dict q => exact .step_bind (Run.dict_run q w) (hnew _ (hdata q rfl))
  | _ => exact hnew [] rfl

/-- Without metadata a page has one context, which knows the name of the page and has no title yet, if the data have
none. -/
theorem pageContexts_collects (hbare : e.directories = []) (path : String) {data : Value} {w : World}
    (hdata : ∀ q, data = .dict q → w.binding? q titleKey = none) :
    (e.pageContexts path data).Ensures w fun contexts u => ∃ context, contexts = [context] ∧ Collects context [] u ∧
      u.binding? context nameKey = some (.text (Path.name path)) := by
  have hcontexts : e.pageContexts path data = (do
      let p ← copiedContext data
      setKey p nameKey (.text (Path.name path))
      return [p]) := by
    simp [pageContexts, pageContext, legendAt?_bare hbare]
  rw [hcontexts]
  refine (copiedContext_collects hdata).bind fun p u hp => .step_bind (setKey_run ..) (.pure ⟨p, rfl, ?_, ?_⟩)
  · exact hp.withEntry (by decide) _
  · rw [World.binding?_withEntry hp.present, if_pos rfl]

/-- Where a page goes. -/
def pagePlace (path : String) : String := Path.join (Path.parent path) [Path.name path]

/-- The world in which the levels of a page begin: its context knows where the page goes. -/
def pageStart (path : String) (context : Nat) (u : World) : World :=
  u.withEntry context pathKey (.text (pagePlace path))

/-- A page with one context is rendered by rendering its levels. -/
theorem renderTemplate_levels {path : String} (hpath : path ≠ "") {data : Value} {w u : World}
    (hcontexts : (e.pageContexts path data).run.run w = (.ok [context], u))
    (hname : u.binding? context nameKey = some (.text (Path.name path))) :
    (e.renderTemplate (.text path) data).run.run w = (do
      e.renderLevels context (Path.ancestorChain path)
      let document ← passedContent context
      let target ← Run.read fun _ => Renaming.target e.rename (pagePlace path)
      return Documents.put [] target document : Run Documents).run.run (pageStart path context u) := by
  have hthrough : e.renderThrough (.text path) (.dict context) = (do
      e.renderLevels context (Path.ancestorChain path)
      passedContent context) := by
    rw [renderThrough, nonemptyArgument_text hpath, pure_bind, show contextOf (.dict context) = pure context from rfl,
      pure_bind, renderLevels]
  have hbranch : (e.renderBranch path context).run.run u = (do
      let document ← e.renderThrough (.text path) (.dict context)
      let target ← Run.read fun _ => Renaming.target e.rename (pagePlace path)
      return (target, document) : Run (String × Value)).run.run (pageStart path context u) := by
    unfold renderBranch pageStart pagePlace
    generalize Path.name path = name at hname
    rw [World.binding?] at hname
    have htext : (Run.text (.text name)).run.run u = (.ok name, u) := rfl
    rw [Run.run_bind, Run.dict_run]
    dsimp only
    rw [hname]
    dsimp only
    rw [Run.run_bind, htext]
    dsimp only
    rw [Run.run_bind, setKey_run]
  rw [renderTemplate, nonemptyArgument_text hpath, pure_bind, Run.run_bind, hcontexts]
  dsimp only
  simp only [List.foldlM_cons, List.foldlM_nil, bind_pure]
  rw [Run.run_bind, hbranch, hthrough, ← Run.run_bind]
  simp only [bind_assoc, pure_bind]

/-- Where there is no metadata, and the data have no title, a page is rendered by rendering its levels in their order.
Let each level with a template below some level run `$entitle(title, $)` once, and write the title and what the context
is known by in no other way. Then, once the level itself has run it, what its template reads as `$title` is made of its
own title and those of the levels below that have a template, from the level down to the page; a title that is empty,
or no text, gives nothing. That holds in every world in which the title has not been written since. -/
theorem title_collected {e : Engine} (hbare : e.directories = []) {path : String} (hpath : path ≠ "") {data : Value}
    {w u : World} (hdata : ∀ q, data = .dict q → w.binding? q titleKey = none) {contexts : List Nat} {context : Nat}
    (hcontexts : (e.pageContexts path data).run.run w = (.ok contexts, u)) (hcontext : context ∈ contexts) :
    (e.renderTemplate (.text path) data).run.run w = (do
      e.renderLevels context (Path.ancestorChain path)
      let document ← passedContent context
      let target ← Run.read fun _ => Renaming.target e.rename (pagePlace path)
      return Documents.put [] target document : Run Documents).run.run (pageStart path context u) ∧
    ∀ below level above, Path.ancestorChain path = below ++ level :: above → ∀ titles : String → Value,
      (∀ lower l upper v, below = lower ++ l :: upper →
        (e.renderLevels context lower).run.run (pageStart path context u) = (.ok (), v) →
        e.EntitlesOnce context l v (titles l)) →
      ∀ v, (e.renderLevels context below).run.run (pageStart path context u) = (.ok (), v) →
      ∀ t, e.template? (levelKey level) = some t →
      ∀ σ, State.Entitled (e.setting context) context (e.levelStart context level t v) [titles level] σ →
      ∀ w', w'.binding? context titleKey = σ.world.binding? context titleKey →
        ((Template.Step.evaluate (e.setting context) (.name "_dollar_title")).run σ.progress).run.run w' =
          (.ok (.text (" | ".intercalate (e.levelTitles titles (level :: below.reverse))), σ.progress), w') := by
  obtain ⟨_, rfl, hempty, hname⟩ := pageContexts_collects hbare path hdata contexts u hcontexts
  obtain rfl := List.mem_singleton.1 hcontext
  refine ⟨renderTemplate_levels hpath hcontexts hname, ?_⟩
  intro below level above hchain titles honce v hrun t ht σ hread w' hkept
  have hnormal : ∀ l ∈ below ++ level :: above, Path.IsNormal l := fun l hl =>
    Path.isNormal_of_mem_ancestorChain (hchain ▸ hl)
  have hstart := hempty.withEntry (show pathKey ≠ titleKey by decide) (.text (pagePlace path))
  -- what the levels below have collected is what this level begins with
  obtain ⟨v', hbelow, hv⟩ := renderLevels_collects hbare (fun l hl => hnormal l (List.mem_append_left _ hl))
    (fun t ht => absurd ht List.not_mem_nil) hstart honce
  cases hrun.symm.trans hbelow
  rw [List.append_nil] at hv
  have hcollected := hread.collected rfl (fun t => ne_empty_of_mem_levelTitles) (hv.levelStart hbare level t)
  have hlevel : e.levelTitles titles (level :: below.reverse) =
      [titles level].filterMap Value.title? ++ e.levelTitles titles below.reverse := by
    rw [levelTitles_cons]
    simp [levelTitles, ht, List.filterMap_cons]
  rw [hlevel]
  refine Template.Step.evaluate_of_ok ?_
  rw [State.eval_name, show Template.scopeKey "_dollar_title" = titleKey by decide,
    State.find?_of_binding? rfl hcollected.noTitle (hkept.trans hcollected.title)]
  rfl

/-! ## A site with two titles -/

/-- A template that begins with `$entitle(literal, $)` runs it, and goes on behind it. -/
theorem exists_entitled (hbare : e.directories = []) (h : Collects context titles w) {level : String} {t : Template}
    {s : Template.Statement} {literal : Template.Literal} {bs : List Template.Block} (ht : t.blocks = .action s :: bs)
    (hs : s.title? = some (.literal literal)) (hscope : e.scope.find? Helper.entitle.name = some (.helper .entitle))
    (hfree : ((e.ensureDefaults (.text level) (.dict context)).after w).binding? context Helper.entitle.name = none) :
    ∃ w', State.Entitled (e.setting context) context (e.levelStart context level t w) [literal.value]
      ⟨bs.map .block, {}, w'⟩ := by
  have hstart := h.levelStart hbare level t
  have hstate : e.levelStart context level t w = ⟨.block (.action s) :: bs.map .block, {},
      (e.ensureDefaults (.text level) (.dict context)).after w⟩ := by
    unfold Engine.levelStart State.start
    rw [ht]
    rfl
  rw [hstate] at hstart ⊢
  have hentitle : ((e.setting context).scope {}).find? ((e.ensureDefaults (.text level) (.dict context)).after w).store
      Helper.entitle.name = some (.helper .entitle) := by
    rw [World.binding?] at hfree
    rw [← hscope]
    unfold Template.Scope.find?
    simp only [Template.Setting.scope, setting, Option.bind_some, hfree]
    rfl
  have hentitles : State.Entitles (e.setting context) context ⟨.block (.action s) :: bs.map .block, {},
      (e.ensureDefaults (.text level) (.dict context)).after w⟩ literal.value := by
    refine ⟨s, .literal literal, _, _, rfl, hs, hentitle, ?_, rfl, rfl⟩
    unfold Template.Expr.eval
    rfl
  obtain ⟨task, ts, u, htasks, -, hrun⟩ := hentitles.step_run hstart rfl
  cases htasks
  exact ⟨_, .entitle .start hentitles (.intro hrun)⟩

/-- The statement `$entitle(title, $)`. -/
def entitling (title : String) : Template.Statement :=
  .expression (.call (.name "_dollar_entitle") [.literal (.text title), .name "_dollar_"] [])

/-- A page in a directory without an index, and an index above that reads the title. -/
def titledSite : Engine :=
  { bare with templates := [("docs/p", ⟨[], [.action (entitling "Page")]⟩),
      ("index", ⟨[], [.action (entitling "Site"), .output (.name "_dollar_title")]⟩)] }

/-- The world in which the levels of the page begin. -/
def titledStart : World := pageStart "docs/p" 0 ((titledSite.pageContexts "docs/p" .none).after {})

/-- The page and the index above put their titles in front, and the index reads both. -/
theorem title_collected_site : ∃ t v σ, titledSite.template? (levelKey "index") = some t ∧
    (titledSite.renderLevels 0 ["docs/p", "docs/index"]).run.run titledStart = (.ok (), v) ∧
    State.Entitled (titledSite.setting 0) 0 (titledSite.levelStart 0 "index" t v) [.text "Site"] σ ∧
    ((Template.Step.evaluate (titledSite.setting 0) (.name "_dollar_title")).run σ.progress).run.run σ.world =
      (.ok (.text "Site | Page", σ.progress), σ.world) := by
  have hcontexts : (titledSite.pageContexts "docs/p" .none).run.run {} =
      (.ok [0], (titledSite.pageContexts "docs/p" .none).after {}) := Prod.ext rfl rfl
  have hdata : ∀ q, Value.none = .dict q → ({} : World).binding? q titleKey = none := nofun
  have hstart : Collects 0 [] titledStart := by
    obtain ⟨_, heq, hempty, -⟩ := pageContexts_collects (e := titledSite) rfl "docs/p" hdata _ _ hcontexts
    cases heq
    exact hempty.withEntry (by decide) _
  have hpage : titledSite.template? (levelKey "docs/p") = some ⟨[], [.action (entitling "Page")]⟩ := by
    rw [show levelKey "docs/p" = "docs/p" by decide +kernel]
    rfl
  have hdirectory : titledSite.template? (levelKey "docs/index") = none := by
    rw [show levelKey "docs/index" = "docs/index" by decide +kernel]
    rfl
  have hindex : titledSite.template? (levelKey "index") =
      some ⟨[], [.action (entitling "Site"), .output (.name "_dollar_title")]⟩ := by
    rw [show levelKey "index" = "index" by decide +kernel]
    rfl
  have honce : ∀ lower l upper v, ["docs/p", "docs/index"] = lower ++ l :: upper →
      (titledSite.renderLevels 0 lower).run.run titledStart = (.ok (), v) →
      titledSite.EntitlesOnce 0 l v (if l = "docs/p" then .text "Page" else .text "Site") := by
    intro lower l upper v hbelow hv t ht
    rcases lower with _ | ⟨first, _ | ⟨second, lower⟩⟩
    · cases hbelow
      cases hv
      cases hpage.symm.trans ht
      have hfree : (((titledSite.ensureDefaults (.text "docs/p") (.dict 0)).after titledStart).binding? 0
        Helper.entitle.name).isNone = true := by decide +kernel
      obtain ⟨w', hentitled⟩ := exists_entitled (t := ⟨[], [.action (entitling "Page")]⟩) rfl hstart rfl rfl rfl
        (Option.isNone_iff_eq_none.1 hfree)
      exact ⟨_, w', hentitled⟩
    · cases hbelow
      cases hdirectory.symm.trans ht
    · have hlength := congrArg List.length hbelow
      simp at hlength
  have hchain : Path.ancestorChain "docs/p" = ["docs/p", "docs/index"] ++ "index" :: [] := by decide +kernel
  have hnormal : ∀ l ∈ ["docs/p", "docs/index"], Path.IsNormal l := fun l hl =>
    Path.isNormal_of_mem_ancestorChain (hchain ▸ List.mem_append_left _ hl)
  obtain ⟨v, hrun, hv⟩ := renderLevels_collects rfl hnormal (fun t ht => absurd ht List.not_mem_nil) hstart honce
  have hafter : v = (titledSite.renderLevels 0 ["docs/p", "docs/index"]).after titledStart := by
    rw [Run.after, hrun]
  have hfree : (((titledSite.ensureDefaults (.text "index") (.dict 0)).after v).binding? 0
      Helper.entitle.name).isNone = true := by
    rw [hafter]
    decide +kernel
  obtain ⟨w', hentitled⟩ := exists_entitled (t := ⟨[], [.action (entitling "Site"), .output (.name "_dollar_title")]⟩)
    rfl hv rfl rfl rfl (Option.isNone_iff_eq_none.1 hfree)
  have hread := (title_collected rfl (by decide) hdata hcontexts List.mem_cons_self).2 _ _ _ hchain _ honce v hrun _
    hindex _ hentitled w' rfl
  have htitles : titledSite.levelTitles (fun l => if l = "docs/p" then .text "Page" else .text "Site")
      ("index" :: ["docs/p", "docs/index"].reverse) = ["Site", "Page"] := by decide +kernel
  rw [htitles] at hread
  exact ⟨_, v, _, hindex, hrun, hentitled, hread⟩

end Engine

end NestedSite
