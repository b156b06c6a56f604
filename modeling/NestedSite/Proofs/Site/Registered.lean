import NestedSite.Proofs.Path
import NestedSite.Proofs.Relocation.Registration

/-!
# Registered templates

Engines come about by registering sources (`Engine.Reached`). A source is metadata or a template by the extension of its
path alone (`Engine.register_text`). The templates of an engine are without faults, and their keys are paths in their
shortest spelling (`Engine.Reached.templates`), so that what it renders is rendered lawfully (`Engine.Reached.lawful`).

A page begins with the level of its own template. The level takes the extension off the key of the page, and looks up
what is left without its extension again: it finds the template of the page just if the key has no extension of its own
(`Engine.renderThrough_innermost`).
-/

namespace NestedSite

open Region (AllowsReads AllowsEdits)

/-- Any world may follow. -/
def Anything (_ _ : World) : Prop := True

instance (r : Region) : AllowsEdits r Anything where
  refl _ := trivial
  trans _ _ := trivial
  reads _ _ := trivial
  edits _ _ := trivial

theorem Confined.anything {α : Type} (m : Run α) : Confined .whole Anything m fun _ => True := fun _ _ =>
  ⟨True.intro, Region.whole_holds _, fun _ _ => True.intro⟩

namespace Engine

/-- The engines that come about by registering sources, whatever else happens in between. -/
inductive Reached : Engine → Prop where
  | new {e : Engine} (ht : e.templates = []) (hd : e.directories = []) : Reached e
  | register {e e' : Engine} {text path : Value} {w : World} (h : Reached e)
      (hr : (e.register text path).outcome w = .ok e') : Reached e'

theorem Reached.of_toOption {e e' : Engine} {text path : Value} {w : World} (h : e.Reached)
    (hr : ((e.register text path).outcome w).toOption = some e') : e'.Reached := by
  obtain ⟨_, hrun, rfl⟩ := exists_ok_of_map (f := id) (by rwa [Option.map_id])
  exact h.register hrun

theorem Reached.registerAll {e e' : Engine} {sources : List (String × String)} {w : World} (h : e.Reached)
    (hr : ((e.registerAll sources).outcome w).toOption = some e') : e'.Reached := by
  induction sources generalizing e w with
  | nil =>
    cases hr
    exact h
  | cons s sources ih =>
    unfold Engine.registerAll Run.outcome at *
    rw [List.foldlM_cons, Run.run_bind] at hr
    rcases hs : (e.register (.text s.1) (.text s.2)).run.run w with ⟨f | e₁, w₁⟩
    · rw [hs] at hr
      cases hr
    · rw [hs] at hr
      exact ih (h.register (congrArg Prod.fst hs)) hr

/-- An engine that nothing is registered with. -/
def bare : Engine := { workDir := "/", root := "/" }

theorem reached_bare : bare.Reached := .new rfl rfl

/-- A template without faults, under a path in its shortest spelling from which an extension was taken. -/
def Kept (t : String × Template) : Prop := t.2.Accepted ∧ ∃ path, t.1 = Path.withoutExtension (Path.normalize path)

theorem putTemplate_kept {e : Engine} (h : ∀ u ∈ e.templates, Kept u) {path : String} {t : Template}
    (ht : Kept (path, t)) : ∀ u ∈ (e.putTemplate path t).templates, Kept u := by
  unfold putTemplate
  split
  · intro u hu
    obtain ⟨v, hv, rfl⟩ := List.mem_map.1 hu
    split
    · exact ht
    · exact h v hv
  · intro u hu
    rcases List.mem_append.1 hu with hu | hu
    · exact h u hu
    · exact List.mem_singleton.1 hu ▸ ht

theorem register_kept {e : Engine} (h : ∀ u ∈ e.templates, Kept u) (text path : Value) :
    Confined .whole Anything (e.register text path) fun e' => ∀ u ∈ e'.templates, Kept u := by
  unfold register
  refine (Confined.anything _).bind fun text _ => (Confined.anything _).bind fun path _ => ?_
  refine .ite (fun _ => ?_) fun _ => ?_
  · -- metadata leaves the templates as they are
    refine (Confined.anything _).bind fun p _ => .guard fun _ => ?_
    exact (Confined.anything _).bind fun _ _ => .pure h
  · unfold registerTemplate
    split
    · exact .throw
    · rename_i t ht
      refine (Confined.anything _).bind fun _ _ => .pure (putTemplate_kept h ⟨?_, ?_⟩)
      · exact Template.compile_accepted text t ht
      · exact ⟨if Path.isAbsolute path then Path.relative e.workDir e.root path else path, by rw [Path.relativeTo]⟩

theorem Reached.templates {e : Engine} (h : e.Reached) : ∀ u ∈ e.templates, Kept u := by
  induction h with
  | new ht _ => simp [ht]
  | @register e e' text path w _ hr ih => exact ((register_kept ih text path) w (Region.whole_holds _)).2.2 e' hr

/-- A template is registered under a path in its shortest spelling. -/
theorem Reached.isNormal {e : Engine} (h : e.Reached) {p : String} (hp : p ∈ e.paths) : Path.IsNormal p := by
  obtain ⟨u, hu, rfl⟩ := List.mem_map.1 hp
  obtain ⟨-, path, hpath⟩ := h.templates u hu
  exact hpath ▸ Path.isNormal_withoutExtension (Path.isNormal_normalize path)

theorem Reached.lawful {e : Engine} (h : e.Reached) : e.Lawful .whole where
  templates t ht := (h.templates t ht).1
  imports _ _ := Value.in_whole _
  directories _ _ := trivial

/-! ## Sources -/

theorem nonemptyArgument_text {label t : String} (h : t ≠ "") : Run.nonemptyArgument label (.text t) = pure t := by
  simp [Run.nonemptyArgument, Run.textArgument, h]

theorem register_text {e : Engine} (text : String) {path : String} (h : path ≠ "") :
    e.register (.text text) (.text path) =
      if metadataExtensions.contains (Path.extension (Path.relativeTo e.workDir e.root path)) then
        e.registerMetadata (Path.parent (Path.relativeTo e.workDir e.root path)) text
      else e.registerTemplate (Path.withoutExtension (Path.relativeTo e.workDir e.root path)) text := by
  unfold register
  simp only [Run.textArgument, nonemptyArgument_text h, pure_bind]

/-- A source that compiles is registered as its template, under its path without extension. -/
theorem register_template {e : Engine} {text : String} (path key : String) {t : Template} (h : path ≠ "")
    (hext : metadataExtensions.contains (Path.extension (Path.relativeTo e.workDir e.root path)) = false)
    (hkey : Path.withoutExtension (Path.relativeTo e.workDir e.root path) = key)
    (ht : Template.compile text = .ok t) (w : World) :
    (e.register (.text text) (.text path)).outcome w = .ok (e.putTemplate key t) := by
  rw [register_text text h, hext, if_neg Bool.false_ne_true, hkey]
  unfold registerTemplate
  rw [ht]
  rfl

/-! ## The innermost level -/

/-- The key under which a level of a page looks its template up. -/
def levelKey (level : String) : String := Path.withoutExtension (Path.normalize level)

/-- Renders a level of a page. -/
def renderLevel (e : Engine) (level : String) (context : Nat) : Run Value := do
  e.ensureDefaults (.text level) (.dict context)
  reporting level <|
    match e.template? (levelKey level) with
    | some t => Value.text <$> t.render (e.host (includeLimit - 1)) e.scope (some context)
    | none => passedContent context

theorem renderOne_eq {e : Engine} {level : String} (h : Path.IsNormal level) (context : Nat) :
    e.renderOne (.text level) (.dict context) = e.renderLevel level context := by
  unfold renderOne includeLimit renderTo renderLevel levelKey
  simp only [nonemptyArgument_text h.ne_empty, contextOf, pure_bind, h.normalize_eq]
  rfl

/-- A page begins with the level of its key without extension, which looks up the key of the page just if that has no
extension. -/
theorem renderThrough_innermost {e : Engine} (h : e.Reached) {p : String} (hp : p ∈ e.paths) :
    (∃ t, e.template? p = some t) ∧
      (∀ context, e.renderThrough (.text p) (.dict context) = do
        setKey context contentKey (← e.renderLevel (Path.withoutExtension p) context)
        (Path.ancestorChain p).tail.forM fun level => do
          setKey context contentKey (← e.renderOne (.text level) (.dict context))
        passedContent context) ∧
      (levelKey (Path.withoutExtension p) = p ↔ Path.extension p = "") := by
  have hnormal := h.isNormal hp
  obtain ⟨u, hu, rfl⟩ := List.mem_map.1 hp
  have hleaf := Path.isNormal_withoutExtension hnormal
  refine ⟨?_, fun context => ?_, ?_⟩
  · cases hf : e.template? u.1 with
    | some t => exact ⟨t, rfl⟩
    | none =>
      have hnone := List.find?_eq_none.1 (Option.map_eq_none_iff.1 hf) u hu
      simp at hnone
  · unfold renderThrough
    rw [nonemptyArgument_text hnormal.ne_empty]
    simp only [contextOf, pure_bind, Path.ancestorChain, hnormal.normalize_eq, List.cons_append, List.tail_cons]
    rw [show ∀ (x : String) (xs : List String) (f : String → Run PUnit), (x :: xs).forM f = f x >>= fun _ => xs.forM f
      from fun _ _ _ => rfl, renderOne_eq hleaf]
    simp only [bind_assoc]
  · rw [levelKey, hleaf.normalize_eq]
    exact Path.withoutExtension_twice_iff u.1

/-- The page of `intro.en.html` does not begin with its own template. -/
theorem renderThrough_innermost_dotted : ∃ e : Engine, e.Reached ∧ "intro.en" ∈ e.paths ∧
    levelKey (Path.withoutExtension "intro.en") ≠ "intro.en" := by
  have hpaths : ((bare.register (.text "X") (.text "intro.en.html")).outcome {}).toOption.map paths =
      some ["intro.en"] := by decide +kernel
  obtain ⟨e, he, hp⟩ := Option.map_eq_some_iff.1 hpaths
  have hreached : e.Reached := reached_bare.of_toOption he
  have hmem : "intro.en" ∈ e.paths := hp ▸ List.mem_cons_self
  exact ⟨e, hreached, hmem, mt (renderThrough_innermost hreached hmem).2.2.1 (by decide)⟩

end Engine

end NestedSite
