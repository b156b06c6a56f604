import NestedSite.Proofs.Ancestors
import NestedSite.Proofs.Site.Content
import NestedSite.Proofs.Template.Frame

/-!
# Pages in frames

Where the indices of a site are frames, a page is put out in the frames of its ancestors, from the nearest to the root
(`Engine.renderThrough_framed`). A level with an index puts out the content in the frame of the index, a level without
one puts it out as it is, and either only prepares the context (`Engine.renderOne_index`); so by induction on the
levels the content grows by one frame after the other (`Engine.renderLevels_indices`).
-/

namespace NestedSite

open Path (IsName indexOf ofNames)
open Template (Frame)

/-- A text in a frame, if there is one. -/
def enclosed (frame : Option Frame) (text : String) : String :=
  match frame with
  | some f => f.enclose text
  | none => text

namespace Engine

variable {e : Engine}

/-- The index of a directory is the frame, or there is no index. -/
def HasIndex (e : Engine) (directory : List String) (frame : Option Frame) : Prop :=
  match frame with
  | some f => ∃ t, Template.compile f.source = .ok t ∧ e.template? (indexOf directory) = some t
  | none => e.template? (indexOf directory) = none

/-- Without metadata no file has a legend. -/
theorem legendAt?_bare (hbare : e.directories = []) (path : String) : e.directories.legendAt? path = pure none := by
  rw [Directories.legendAt?, hbare]
  rfl

theorem ensureDefaults_run (hbare : e.directories = []) (path : String) (context : Nat) (w : World) :
    (e.ensureDefaults (.text path) (.dict context)).run.run w = (.ok (), w.prepared context) := by
  have hmetadata : e.directories.metadataAt? path = none := by rw [hbare]; rfl
  have hprepare : e.ensureDefaults (.text path) (.dict context) = (do
      ensureText context contentKey
      ensureText context titleKey
      setKey context selfKey (.dict context)) := by
    simp [ensureDefaults, Run.textArgument, Run.mappingArgument, hmetadata, legendAt?_bare hbare]
  rw [hprepare, Run.run_bind, ensureText_run]
  dsimp only
  rw [Run.run_bind, ensureText_run]
  rfl

theorem reporting_run {α : Type} {path : String} {run : Run α} {w w' : World} {a : α}
    (h : run.run.run w = (.ok a, w')) : (reporting path run).run.run w = (.ok a, w') := by
  rw [reporting, Run.run_tryCatch, h]

/-- A level puts out the content in the frame of its index. -/
theorem renderOne_index (hbare : e.directories = []) {directory : List String} (hnames : ∀ s ∈ directory, IsName s)
    {frame : Option Frame} (hframe : e.HasIndex directory frame) {context : Nat} {w : World} {text : String}
    (h : Present context w) (hcontent : w.binding? context contentKey = some (.text text)) :
    (e.renderOne (.text (indexOf directory)) (.dict context)).run.run w =
      (.ok (.text (enclosed frame text)), w.prepared context) := by
  have hnormal := Path.isNormal_indexOf hnames
  have hkey : levelKey (indexOf directory) = indexOf directory := by
    rw [levelKey, hnormal.normalize_eq, Path.withoutExtension_indexOf]
  have hprepared : (w.prepared context).binding? context contentKey = some (.text text) := by
    rw [World.binding?_prepared h, World.withText_of_text hcontent, hcontent]
  rw [renderOne_eq hnormal, renderLevel, Run.run_bind, ensureDefaults_run hbare, hkey]
  refine reporting_run ?_
  cases frame with
  | none =>
    rw [show e.template? (indexOf directory) = none from hframe]
    dsimp only
    rw [passedContent_run, World.content, hprepared]
    rfl
  | some f =>
    obtain ⟨t, ht, hfound⟩ := hframe
    rw [hfound]
    dsimp only
    rw [map_eq_pure_bind, Run.run_bind, f.render_run hprepared ht]
    rfl

theorem renderLevels_cons (e : Engine) (context : Nat) (level : String) (levels : List String) :
    e.renderLevels context (level :: levels) = (do
      setKey context contentKey (← e.renderOne (.text level) (.dict context))
      e.renderLevels context levels) := by
  unfold renderLevels
  rw [List.forM_eq_forM, List.forM_cons, bind_assoc]

/-- The content is put into the frames of the indices, one after the other. -/
theorem renderLevels_indices (hbare : e.directories = []) {frame : List String → Option Frame} {context : Nat}
    (directories : List (List String)) (hnames : ∀ d ∈ directories, ∀ s ∈ d, IsName s)
    (hframes : ∀ d ∈ directories, e.HasIndex d (frame d)) {w : World} {text : String} (h : Present context w)
    (hcontent : w.binding? context contentKey = some (.text text)) :
    ∃ w', (e.renderLevels context (directories.map indexOf)).run.run w = (.ok (), w') ∧
      w'.content context = .text (directories.foldl (fun text d => enclosed (frame d) text) text) := by
  induction directories generalizing w text with
  | nil => exact ⟨w, rfl, by rw [World.content, hcontent]; rfl⟩
  | cons d directories ih =>
    obtain ⟨hd, hnames⟩ := List.forall_mem_cons.1 hnames
    obtain ⟨hframe, hframes⟩ := List.forall_mem_cons.1 hframes
    have hprepared : Present context (w.prepared context) := by simpa [Present] using h
    let u := (w.prepared context).withEntry context contentKey (.text (enclosed (frame d) text))
    have hu : u.binding? context contentKey = some (.text (enclosed (frame d) text)) := by
      rw [World.binding?_withEntry hprepared, if_pos rfl]
    obtain ⟨w', hrun, hcontent'⟩ := ih hnames hframes (w := u) (by simpa [Present, u] using h) hu
    refine ⟨w', ?_, hcontent'⟩
    rw [List.map_cons, renderLevels_cons, Run.run_bind, renderOne_index hbare hd hframe h hcontent]
    dsimp only
    rw [Run.run_bind, setKey_run]
    exact hrun

/-- A level is rendered with the context that is made of what is given. -/
theorem renderOne_contextOf (e : Engine) {path : String} (hne : path ≠ "") (context : Value) :
    e.renderOne (.text path) context = (do e.renderOne (.text path) (.dict (← contextOf context))) := by
  unfold renderOne includeLimit renderTo
  simp only [nonemptyArgument_text hne, pure_bind]
  refine bind_congr fun p => ?_
  rw [show contextOf (.dict p) = pure p from rfl, pure_bind]

/-- The page puts out its own text, and the indices put that into their frames. -/
theorem renderLevels_page (he : e.Lawful .whole) (hbare : e.directories = []) {directory : List String}
    (hnames : ∀ s ∈ directory, IsName s) {frame : List String → Option Frame}
    (hframes : ∀ d ∈ directory.inits, e.HasIndex d (frame d)) {page : String} {context : Nat} {w u : World}
    {text : String} (h : Present context w)
    (hown : (e.renderOne (.text page) (.dict context)).run.run w = (.ok (.text text), u)) :
    ∃ w', (e.renderLevels context (page :: directory.inits.reverse.map indexOf)).run.run w = (.ok (), w') ∧
      w'.content context = .text (directory.inits.foldr (fun d text => enclosed (frame d) text) text) := by
  have hrendering := (renderOne_confined (R := Rendering) he (.text page) (.dict context) w (Region.whole_holds _)).1
  rw [Run.after, hown] at hrendering
  have hu : Present context u := h.mono hrendering
  have hbegins : ∀ d ∈ directory.inits.reverse, d <+: directory := fun d hd =>
    (List.mem_inits _ _).1 (List.mem_reverse.1 hd)
  have hcontent : (u.withEntry context contentKey (.text text)).binding? context contentKey = some (.text text) := by
    rw [World.binding?_withEntry hu, if_pos rfl]
  obtain ⟨w', hrun, hcontent⟩ := renderLevels_indices hbare directory.inits.reverse
    (fun d hd s hs => hnames s ((hbegins d hd).subset hs)) (fun d hd => hframes d (List.mem_reverse.1 hd))
    (by simpa [Present] using hu) hcontent
  refine ⟨w', ?_, by rw [hcontent, List.foldl_reverse]⟩
  rw [renderLevels_cons, Run.run_bind, hown]
  dsimp only
  rw [Run.run_bind, setKey_run]
  exact hrun

/-- A page is put out as it is rendered by itself, in the frames of the indices of its directory and of all directories
above, from the nearest to the root. Directories without an index are passed over. -/
theorem renderThrough_framed {e : Engine} (he : e.Reached) (hbare : e.directories = []) {directory : List String}
    {leaf : String} (hnames : ∀ s ∈ directory, IsName s) (hleaf : IsName leaf) (hdots : '.' ∉ leaf.toList)
    (hindex : leaf ≠ Path.indexName) {frame : List String → Option Frame}
    (hframes : ∀ d ∈ directory.inits, e.HasIndex d (frame d)) {context : Value} {w : World} {text : String}
    (hcontext : ∀ p, context = .dict p → Present p w)
    (hown : (e.renderOne (.text (ofNames (directory ++ [leaf]))) context).outcome w = .ok (.text text)) :
    (e.renderThrough (.text (ofNames (directory ++ [leaf]))) context).outcome w =
      .ok (.text (directory.inits.foldr (fun d text => enclosed (frame d) text) text)) := by
  have hall : ∀ s ∈ directory ++ [leaf], IsName s := fun s hs =>
    (List.mem_append.1 hs).elim (hnames s) fun hs => List.mem_singleton.1 hs ▸ hleaf
  have hne := (Path.isNormal_ofNames hall).ne_empty
  have hlevels : e.renderThrough (.text (ofNames (directory ++ [leaf]))) context = (do
      let p ← contextOf context
      e.renderLevels p (ofNames (directory ++ [leaf]) :: directory.inits.reverse.map indexOf)
      passedContent p) := by
    rw [renderThrough, nonemptyArgument_text hne, pure_bind, Path.ancestorChain_ofNames hnames hleaf hdots hindex]
    rfl
  rw [renderOne_contextOf e hne] at hown
  rw [hlevels]
  unfold Run.outcome at *
  rw [Run.run_bind] at hown ⊢
  rcases hrun : (contextOf context).run.run w with ⟨f | p, u⟩ <;> rw [hrun] at hown
  · cases hown
  have hpage : (e.renderOne (.text (ofNames (directory ++ [leaf]))) (.dict p)).run.run u = (.ok (.text text), _) :=
    Prod.ext hown rfl
  obtain ⟨w', hlevels, hcontent⟩ :=
    renderLevels_page he.lawful hbare hnames hframes (contextOf_ensures hcontext p u hrun) hpage
  dsimp only
  rw [Run.run_bind, hlevels]
  dsimp only
  rw [passedContent_run, hcontent]

/-! ## A site with one frame -/

/-- Brackets around the content. -/
def brackets : Frame where
  before := "["
  after := "]"
  before_plain k := by cases k <;> decide
  before_end := by decide
  after_plain k := by cases k <;> decide

/-- An index that puts brackets around the content, and a page of openers that nothing closes. -/
def bracketed : Engine :=
  (bare.putTemplate "index" ⟨Template.Instruction.scan brackets.source, brackets.blocks⟩).putTemplate "a/p"
    ⟨[.literal "<< \x7b\x7b"], [.text "<< \x7b\x7b"]⟩

theorem reached_bracketed : bracketed.Reached := by
  have hscan : Template.Instruction.scan "<< \x7b\x7b" = [.literal "<< \x7b\x7b"] := by decide +kernel
  have hpage : Template.compile "<< \x7b\x7b" = .ok ⟨[.literal "<< \x7b\x7b"], [.text "<< \x7b\x7b"]⟩ := by
    simp only [Template.compile, hscan]
    rfl
  have hfirst := register_template (e := bare) "index.html" "index" (by decide) (by decide +kernel) (by decide +kernel)
    brackets.compile_source {}
  exact (reached_bare.register hfirst).register (w := {}) <|
    register_template "a/p.html" "a/p" (by decide) (by decide +kernel) (by decide +kernel) hpage {}

/-- The page of such a site stands in the brackets as it is, openers and all. -/
theorem renderThrough_framed_openers : bracketed.Reached ∧ bracketed.HasIndex [] (some brackets) ∧
    bracketed.HasIndex ["a"] none ∧
    (bracketed.renderThrough (.text "a/p") .none).outcome {} = .ok (.text "[<< \x7b\x7b]") := by
  have hroot : bracketed.HasIndex [] (some brackets) :=
    ⟨_, brackets.compile_source, by simp [template?, bracketed, putTemplate, bare, show indexOf [] = "index" by decide]⟩
  have hdirectory : bracketed.HasIndex ["a"] none := by
    simp [HasIndex, template?, bracketed, putTemplate, bare, show indexOf ["a"] = "a/index" by decide]
  have hown : (bracketed.renderOne (.text (ofNames (["a"] ++ ["p"]))) .none).outcome {} =
      .ok (.text "<< \x7b\x7b") := by
    have hrun : ((bracketed.renderOne (.text (ofNames (["a"] ++ ["p"]))) .none).outcome {}).toOption.map
        (·.sameKey (.text "<< \x7b\x7b")) = some true := by decide +kernel
    obtain ⟨v, houtcome, hv⟩ := exists_ok_of_map hrun
    rw [houtcome, Value.sameKey_text.1 hv]
  have hframes : ∀ d ∈ ["a"].inits, bracketed.HasIndex d (if d.isEmpty then some brackets else none) := by
    simpa using ⟨hroot, hdirectory⟩
  have hframed := renderThrough_framed reached_bracketed rfl (by decide) (by decide) (by decide) (by decide) hframes
    (by simp) hown
  exact ⟨reached_bracketed, hroot, hdirectory, hframed⟩

end Engine

end NestedSite
