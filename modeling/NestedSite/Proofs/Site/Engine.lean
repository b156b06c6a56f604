import NestedSite.Proofs.Template.Evaluate
import NestedSite.Site.Engine

/-!
# Rendering lawfully

An engine is lawful if its templates are without faults and what it hands to them lies in the region
(`Engine.Lawful`). What such an engine renders, and what its templates include, is rendered as any relation admits that
lets templates be rendered (`Engine.renderTo_confined`), by induction on the depth to which templates may include one
another. A context that is prepared for a template must not be watched; what is included has a context of its own,
which never is.
-/

namespace NestedSite

open Region (AllowsReads AllowsEdits)
open Template (AllowsTemplates)

variable {r : Region} {R : World → World → Prop}

/-! ## Contexts -/

namespace Run

theorem textArgument_confined [AllowsReads r R] {label : String} {v : Value} :
    Confined r R (textArgument label v) fun t => v = .text t := by
  unfold textArgument
  split
  · exact .pure rfl
  · exact store_confined.bind fun _ _ => .throw

theorem nonemptyArgument_confined [AllowsReads r R] {label : String} {v : Value} :
    Confined r R (nonemptyArgument label v) fun t => v = .text t :=
  textArgument_confined.bind fun _ ht => .ite (fun _ => .throw) fun _ => .pure ht

theorem mappingArgument_confined [AllowsReads r R] {label : String} {v : Value} :
    Confined r R (mappingArgument label v) fun p => v = .dict p := by
  unfold mappingArgument
  split
  · exact .pure rfl
  · exact store_confined.bind fun _ _ => .throw

theorem mergeLegend_confined [AllowsReads r R] {context : Nat} (hw : LetsWrite r R context) (hc : r.dicts context)
    {l : Legend} (hl : l.In r) : Confined r R (mergeLegend context l) fun _ => True := by
  refine (legendFields_confined hl).bind fun v hv => ?_
  split
  · refine (dict_confined hc).bind fun es hes => (dict_confined hv).bind fun fs hfs => ?_
    exact setDict_confined hw (hes.merge hfs)
  · exact .pure trivial

end Run

namespace Engine

theorem setKey_confined [AllowsReads r R] {context : Nat} (hw : LetsWrite r R context) (hc : r.dicts context)
    {key : String} {v : Value} (hv : v.In r) : Confined r R (setKey context key v) fun _ => True :=
  (Run.dict_confined hc).bind fun _ hes => Run.setDict_confined hw (hes.insert Value.in_text hv)

theorem ensureText_confined [AllowsReads r R] {context : Nat} (hw : LetsWrite r R context) (hc : r.dicts context)
    {key : String} : Confined r R (ensureText context key) fun _ => True := by
  refine (Run.dict_confined hc).bind fun es _ => ?_
  split
  · exact .pure trivial
  · exact setKey_confined hw hc Value.in_text

/-- The place of a context that a rendering may write to. -/
def Fresh (r : Region) (p : Nat) : Prop := r.dicts p ∧ r.floor ≤ p

/-- The place of a mapping of the region that may be written to, be it watched or not. -/
structure Writable (r : Region) (R : World → World → Prop) (p : Nat) : Prop where
  within : r.dicts p
  writes : LetsWrite r R p

theorem Fresh.writable [AllowsEdits r R] {p : Nat} (h : Fresh r p) : Writable r R p := ⟨h.1, .unwatched h.2⟩

theorem contextOf_confined_of [AllowsReads r R] {Q : Nat → Prop} {v : Value} (h : ∀ p, v = .dict p → Q p)
    (hnew : ∀ p, Fresh r p → Q p) : Confined r R (contextOf v) Q := by
  unfold contextOf
  split
  · exact .pure (h _ rfl)
  · refine (Run.newDict_confined Entries.in_nil).bind fun u hu => ?_
    obtain ⟨p, rfl, hp⟩ := hu
    exact .pure (hnew p hp)

theorem contextOf_confined [AllowsReads r R] {v : Value} (h : ∀ p, v = .dict p → Fresh r p) :
    Confined r R (contextOf v) (Fresh r) := contextOf_confined_of h fun _ hp => hp

theorem copiedContext_confined [AllowsReads r R] {v : Value} (h : v.In r) :
    Confined r R (copiedContext v) (Fresh r) := by
  unfold copiedContext
  split
  · refine (Run.dict_confined h).bind fun es hes => (Run.newDict_confined hes).bind fun u hu => ?_
    obtain ⟨p, rfl, hp⟩ := hu
    exact contextOf_confined fun q hq => by cases hq; exact hp
  · exact contextOf_confined nofun

/-! ## Preparing a context -/

/-- The metadata of the directories lies in the region. -/
def DirectoriesIn (r : Region) (ds : Directories) : Prop := ∀ d ∈ ds, r.metadata d.2

theorem metadataAt?_in {ds : Directories} (h : DirectoriesIn r ds) {path : String} :
    ∀ p ∈ ds.metadataAt? path, r.metadata p := by
  intro p hp
  obtain ⟨d, hd, rfl⟩ := Option.map_eq_some_iff.1 hp
  exact h d (List.mem_of_find?_eq_some hd)

theorem legendAt?_confined [AllowsReads r R] {ds : Directories} (h : DirectoriesIn r ds) {path : String} :
    Confined r R (ds.legendAt? path) fun l => ∀ p ∈ l, r.legends p := by
  unfold Directories.legendAt?
  split
  · exact .pure (by simp)
  · rename_i p hp
    refine Run.store_confined.bind fun s hs => ?_
    have hm := hs.metadata p (metadataAt?_in h p hp)
    refine (Run.legendNamed_confined hm.files).bind fun v hv => ?_
    split
    · exact .pure (by simpa using hv)
    · exact .pure (by simp)

/-- The fields of the legend of a path, if there is one, are merged into a context. -/
theorem mergeLegendAt_confined [AllowsEdits r R] {e : Engine} (hd : DirectoriesIn r e.directories) {path : String}
    {p : Nat} (hp : Writable r R p) : Confined r R (do
      if let some l ← e.directories.legendAt? path then
        let legend := (← Run.store).legend l
        if !legend.echoes then Run.mergeLegend p legend) fun _ => True := by
  refine (legendAt?_confined hd).bind fun l hl => ?_
  split
  · refine Run.store_confined.bind fun s hs => ?_
    refine .ite (fun _ => ?_) fun _ => .pure trivial
    exact Run.mergeLegend_confined hp.writes hp.within (hs.legends _ (hl _ rfl))
  · exact .pure trivial

/-- What the directory of a path adds to a context: its metadata, and the fields of the legend. -/
def furnish (e : Engine) (path : String) (context : Nat) : Run Unit := do
  if let some m := e.directories.metadataAt? path then setKey context metaKey (.metadata m)
  if let some l ← e.directories.legendAt? path then
    let legend := (← Run.store).legend l
    if !legend.echoes then Run.mergeLegend context legend

theorem furnish_confined [AllowsEdits r R] {e : Engine} (hd : DirectoriesIn r e.directories) {path : String} {p : Nat}
    (hp : Writable r R p) : Confined r R (e.furnish path p) fun _ => True := by
  unfold furnish
  split
  · rename_i m hm
    have hset : Confined r R (setKey p metaKey (.metadata m)) fun _ => True :=
      setKey_confined hp.writes hp.within (metadataAt?_in hd m hm)
    exact hset.seq (mergeLegendAt_confined hd hp)
  · exact mergeLegendAt_confined hd hp

/-- A context is prepared by itself first, and is furnished then. -/
theorem ensureDefaults_eq (e : Engine) (path : String) (p : Nat) : e.ensureDefaults (.text path) (.dict p) = (do
    ensureText p contentKey
    ensureText p titleKey
    setKey p selfKey (.dict p)
    e.furnish path p) := rfl

theorem ensureDefaults_confined [AllowsEdits r R] {e : Engine} (hd : DirectoriesIn r e.directories) {path : Value}
    {p : Nat} (hp : Writable r R p) : Confined r R (e.ensureDefaults path (.dict p)) fun _ => True := by
  have hprepared : ∀ path : String, Confined r R (e.ensureDefaults (.text path) (.dict p)) fun _ => True := by
    intro path
    rw [ensureDefaults_eq]
    refine (ensureText_confined hp.writes hp.within).seq ?_
    refine (ensureText_confined hp.writes hp.within).seq ?_
    exact (setKey_confined (v := .dict p) hp.writes hp.within hp.within).seq (furnish_confined hd hp)
  cases path with
  | text path => exact hprepared path
  | _ => exact Run.textArgument_confined.bind fun _ h => nomatch h

/-! ## Rendering -/

theorem reporting_confined [AllowsTemplates r R] {α : Type} {path : String} {run : Run α} {Q : α → Prop}
    (h : Confined r R run Q) : Confined r R (reporting path run) Q :=
  h.tryCatch fun _ => AllowsTemplates.errors.bind fun _ _ => .throw

/-- What templates of an engine reach beyond their arguments; they include one another to the depth `n`. -/
def host (e : Engine) (n : Nat) : Host where
  cwd := e.workDir
  renderPartial path context := do e.renderTo n path (.dict (← copiedContext context))

/-- The templates of the engine are without faults, and what it hands to them lies in the region. -/
structure Lawful (r : Region) (e : Engine) : Prop where
  templates : ∀ t ∈ e.templates, t.2.Accepted
  imports : FieldsIn r e.imports
  directories : DirectoriesIn r e.directories
  helpers : ∀ h, r.helpers h := by exact fun _ => trivial

theorem Lawful.scope {e : Engine} (h : e.Lawful r) : FieldsIn r e.scope := by
  refine Template.baseScope_in fun b hb => ?_
  rcases List.mem_append.1 hb with hb | hb
  · obtain ⟨helper, _, rfl⟩ := List.mem_map.1 hb
    exact h.helpers helper
  · exact h.imports b hb

/-- A host includes what is rendered with a context of its own. -/
theorem host_confined_of [AllowsTemplates r R] {e : Engine} {n : Nat} (h : ∀ {path : Value} {p : Nat},
    Writable r R p → Confined r R (e.renderTo n path (.dict p)) (·.In r)) :
    (e.host n).Confined r R :=
  fun _ _ _ hc => (copiedContext_confined hc).bind fun _ hp => h hp.writable

/-- What a level puts out with a context that is prepared for it. -/
def putOut (e : Engine) (n : Nat) (path : String) (context : Nat) : Run Value :=
  reporting path <|
    match e.template? (Path.withoutExtension path) with
    | some t => Value.text <$> t.render (e.host n) e.scope (some context)
    | none => passedContent context

theorem renderTo_succ (e : Engine) (n : Nat) (path context : Value) : e.renderTo (n + 1) path context = (do
    let path ← Run.nonemptyArgument "path" path
    let p ← contextOf context
    e.ensureDefaults (.text (Path.normalize path)) (.dict p)
    e.putOut n (Path.normalize path) p) := rfl

theorem putOut_confined [AllowsTemplates r R] {e : Engine} (he : e.Lawful r) {n : Nat} (hhost : (e.host n).Confined r R)
    (path : String) {p : Nat} (hp : r.dicts p) : Confined r R (e.putOut n path p) (·.In r) := by
  refine reporting_confined ?_
  split
  · rename_i t ht
    obtain ⟨entry, hentry, rfl⟩ := Option.map_eq_some_iff.1 ht
    have haccepted := he.templates entry (List.mem_of_find?_eq_some hentry)
    refine (Template.render_confined hhost he.scope ?_ haccepted).map fun _ _ => Value.in_text
    exact fun q hq => by cases hq; exact hp
  · refine (Run.dict_confined hp).bind fun es hes => .pure ?_
    cases hf : es.find? (.text contentKey) with
    | none => exact Value.in_text
    | some v => exact hes.find? hf

theorem renderTo_confined [AllowsTemplates r R] {e : Engine} (he : e.Lawful r) (n : Nat) {path context : Value}
    (hc : ∀ p, context = .dict p → Writable r R p) : Confined r R (e.renderTo n path context) (·.In r) := by
  induction n generalizing path context with
  | zero => exact .throw
  | succ n ih =>
    have hhost := host_confined_of fun hp => ih fun q hq => by cases hq; exact hp
    rw [renderTo_succ]
    refine Run.nonemptyArgument_confined.bind fun path _ => ?_
    refine (contextOf_confined_of hc fun _ => Fresh.writable).bind fun p hp => ?_
    exact (ensureDefaults_confined he.directories hp).seq (putOut_confined he hhost _ hp.within)

theorem host_confined [AllowsTemplates r R] {e : Engine} (he : e.Lawful r) (n : Nat) : (e.host n).Confined r R :=
  host_confined_of fun hp => renderTo_confined he n fun q hq => by cases hq; exact hp

end Engine

end NestedSite
