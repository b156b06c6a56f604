import NestedSite.Proofs.Site.Trace

/-!
# Documents that are overwritten

A pass warns of each document that takes the place of another one with the same path (`World.overwrites`), so that
documents and warnings together are as many as what the pages of the pass put out (`Engine.length_visitedAll`). A page
gathers its own documents before that, and warns of nothing: all that the warnings leave out of account are the
documents that a later one of the same page replaces (`Engine.renderAll_overwrites`).
-/

namespace NestedSite

open Documents (goesTo gather putAll replaced)

/-! ## Warnings -/

/-- The warning of a pass that a note is, if it is one. -/
def Note.overwrite? : Note → Option String
  | .log .warning source message => if source == Engine.passSource then some message else none
  | _ => none

/-- The warnings of passes, in the order of time. -/
def World.overwrites (w : World) : List String := w.notes.toList.filterMap Note.overwrite?

theorem World.overwrites_eq (w : World) : w.overwrites = w.account.filterMap Note.overwrite? := by
  refine filterMap_account (fun n hn => ?_) w
  cases n with
  | event e => rfl
  | log level source message => cases level <;> first | rfl | cases hn

theorem Observers.overwrites_told (o : Observers) (e : Event) : (o.told e).filterMap Note.overwrite? = [] := by
  refine List.filterMap_eq_nil_iff.2 fun n hn => ?_
  rcases List.mem_cons.1 hn with rfl | hn
  · rfl
  · obtain ⟨name, -, hname⟩ := List.mem_filterMap.1 hn
    obtain ⟨message, rfl⟩ := eq_of_complaint? hname
    rfl

namespace Engine

/-! ## Documents and their templates -/

/-- The pass knows of each document the template that it comes from. -/
def Pass.Sound (pass : Pass) : Prop :=
  ∀ path, (pass.sources.find? fun s => s.1 == path).isSome = true ↔ path ∈ pass.documents.paths

theorem Pass.sound_empty : Pass.Sound {} := fun path => by simp [Documents.paths]

theorem Pass.Sound.with {pass : Pass} (h : pass.Sound) (path : String) (docs : Documents) :
    (pass.with path docs).Sound := by
  induction docs generalizing pass with
  | nil => exact h
  | cons doc docs ih =>
    have hdoc : (pass.with path [doc]).Sound := fun other => by
      show (((doc.1, path) :: pass.sources).find? fun s => s.1 == other).isSome = true ↔
        other ∈ (pass.documents.put doc.1 doc.2).paths
      rw [Documents.mem_paths_put, ← h other, List.find?_cons]
      by_cases heq : doc.1 = other
      · simp [heq]
      · simp [beq_eq_false_iff_ne.2 heq, Ne.symm heq]
    exact ih hdoc

/-- A document is a new one, or there is a warning. -/
theorem length_add {pass : Pass} (h : pass.Sound) (o : Observers) (path : String) (doc : String × Value) :
    (pass.with path [doc]).documents.length + ((pass.notes o path doc.1).filterMap Note.overwrite?).length =
      pass.documents.length + 1 := by
  have hput : (pass.with path [doc]).documents.length =
      pass.documents.length + if doc.1 ∈ pass.documents.paths then 0 else 1 := Documents.length_put _ _ _
  rw [hput]
  unfold Pass.notes
  cases hfound : pass.sources.find? fun s => s.1 == doc.1 with
  | none =>
    have hnew : doc.1 ∉ pass.documents.paths := fun hmem => by simpa [hfound] using (h doc.1).2 hmem
    simp [hnew, Observers.overwrites_told]
  | some other =>
    have hold : doc.1 ∈ pass.documents.paths := (h doc.1).1 (by simp [hfound])
    simp [hold, Observers.overwrites_told, Note.overwrite?]

theorem length_addAll {pass : Pass} (h : pass.Sound) (o : Observers) (path : String) (docs : Documents) :
    (pass.with path docs).documents.length + ((Pass.notesAll o path pass docs).filterMap Note.overwrite?).length =
      pass.documents.length + docs.length := by
  induction docs generalizing pass with
  | nil => rfl
  | cons doc docs ih =>
    have hdoc := length_add h o path doc
    have hdocs := ih (h.with path [doc])
    rw [Pass.notesAll, List.filterMap_append, List.length_append, List.length_cons]
    have hwith : pass.with path (doc :: docs) = (pass.with path [doc]).with path docs := rfl
    rw [hwith]
    omega

theorem length_visited {pass : Pass} (h : pass.Sound) (o : Observers) (x : Visit Documents) :
    (pass.visited x).documents.length + ((x.notes o pass).filterMap Note.overwrite?).length =
      pass.documents.length + x.documents.length := by
  unfold Pass.visited Visit.notes Visit.documents
  cases x.result with
  | none =>
    simp only [List.filterMap_cons, Note.overwrite?, Observers.overwrites_told]
    rfl
  | some docs => exact length_addAll h o x.path docs

/-- What pages put out are documents and warnings. -/
theorem length_visitedAll {pass : Pass} (h : pass.Sound) (o : Observers) (xs : List (Visit Documents)) :
    (xs.foldl Pass.visited pass).documents.length +
        ((Visit.notesAll o pass xs).filterMap Note.overwrite?).length =
      pass.documents.length + (xs.flatMap Visit.documents).length := by
  induction xs generalizing pass with
  | nil => rfl
  | cons x xs ih =>
    have hx := length_visited h o x
    have hxs := ih (h.with x.path x.documents)
    rw [Visit.notesAll, List.filterMap_append, List.length_append, List.flatMap_cons, List.length_append,
      List.foldl_cons]
    unfold Pass.visited at *
    omega

/-! ## All documents of the pages -/

theorem visit_map {α β : Type} (e : Engine) (f : α → β) {render : String → Run β} {more : String → Run α}
    (h : ∀ path, render path = f <$> more path) (path : String) :
    e.visit render path = Visit.map f <$> e.visit more path := by
  unfold visit
  rw [map_bind]
  refine bind_congr fun ignored => ?_
  cases ignored with
  | true => rfl
  | false => simp [h, Visit.map]

theorem walk_map {α β : Type} (e : Engine) (f : α → β) {render : String → Run β} {more : String → Run α}
    (h : ∀ path, render path = f <$> more path) (paths : List String) :
    e.walk render paths = List.map (Visit.map f) <$> e.walk more paths := by
  induction paths with
  | nil => rfl
  | cons path paths ih => simp [walk_cons, ih, visit_map e f h]

/-- The documents of all branches of a page. -/
def branches (e : Engine) (data : Value) (path : String) : Run (List (String × Value)) :=
  e.branchDocuments (.text path) data

theorem documents_map_gather (x : Visit (List (String × Value))) :
    (x.map gather).documents = gather x.documents := by
  obtain ⟨path, _ | docs⟩ := x <;> rfl

/-- Gathering pages does not change which document of a path is the last one. -/
theorem find?_reverse_gathered (xs : List (Visit (List (String × Value)))) (path : String) :
    ((xs.map (Visit.map gather)).flatMap Visit.documents).reverse.find? (goesTo path) =
      (xs.flatMap Visit.documents).reverse.find? (goesTo path) := by
  induction xs with
  | nil => rfl
  | cons x xs ih =>
    rw [List.map_cons, List.flatMap_cons, List.flatMap_cons, List.reverse_append, List.reverse_append,
      List.find?_append, List.find?_append, ih, documents_map_gather,
      Documents.find?_reverse (Documents.nodup_gather _), Documents.find?_gather]

theorem length_gathered (xs : List (Visit (List (String × Value)))) :
    (xs.flatMap Visit.documents).length = ((xs.map (Visit.map gather)).flatMap Visit.documents).length +
      (xs.flatMap fun x => replaced x.documents).length := by
  induction xs with
  | nil => rfl
  | cons x xs ih =>
    have hx := Documents.length_gather x.documents
    simp only [List.map_cons, List.flatMap_cons, List.length_append, documents_map_gather]
    omega

/-- Every document of a pass is accounted for: it is an entry of what the pass puts out, or there is a warning, or a
later document of the same page replaces it, of which nobody learns. For each path, the entry is the document that was
rendered last. -/
theorem renderAll_overwrites {e : Engine} (he : e.Reached) {data : Value} {w : World} {docs : Documents}
    (h : (e.renderAll data).outcome w = .ok docs) : ∃ pages warnings,
      (e.walk (e.branches data) e.paths).outcome w = .ok pages ∧
        ((e.renderAll data).after w).overwrites = w.overwrites ++ warnings ∧
        (pages.flatMap Visit.documents).length =
          docs.length + warnings.length + (pages.flatMap fun page => replaced page.documents).length ∧
        docs.paths.Nodup ∧
        ∀ path, docs.find? (goesTo path) = (pages.flatMap Visit.documents).reverse.find? (goesTo path) := by
  have hpage (path : String) : e.page data path = gather <$> e.branches data path :=
    renderTemplate_eq e (.text path) data
  have hwalk := passAll_walk he.lawful data e.paths {} (w := w) (v := w) rfl
  unfold Run.outcome Run.after at *
  rw [renderAll_run] at h ⊢
  rw [walk_map e gather hpage, map_eq_pure_bind, Run.run_bind] at hwalk
  rcases hpass : (e.paths.foldlM (e.passOver data) {}).run.run w with ⟨f | pass, w'⟩
  · rw [hpass] at h
    cases h
  rcases hbranches : (e.walk (e.branches data) e.paths).run.run w with ⟨f | pages, u⟩
  · rw [hpass, hbranches] at hwalk
    cases hwalk
  rw [hpass, hbranches] at hwalk
  rw [hpass] at h
  cases h
  cases hwalk with
  | ok hstore h =>
    obtain ⟨rfl, haccount⟩ := h
    have hlength := length_visitedAll Pass.sound_empty e.observers (pages.map (Visit.map gather))
    rw [show ({} : Pass).documents.length = 0 from rfl, Nat.zero_add] at hlength
    refine ⟨pages, (Visit.notesAll e.observers {} (pages.map (Visit.map gather))).filterMap Note.overwrite?, rfl, ?_,
      ?_, ?_, fun path => ?_⟩
    · rw [World.overwrites_eq, haccount, List.filterMap_append, ← World.overwrites_eq]
    · rw [length_gathered, ← hlength]
    · rw [documents_visitedAll]
      exact Documents.nodup_gather _
    · rw [documents_visitedAll, ← find?_reverse_gathered]
      exact Documents.find?_gather _ path

/-- Metadata with a group of two elements of one name, and a page that echoes it. -/
def namesakes : List (String × String) :=
  [("\"files\":\n- \"name\": \"item\"\n  \"echo\": \"pages\"\n\"pages\":\n- \"name\": \"one\"\n- \"name\": \"one\"",
    "meta.yaml"), ("X", "item.html")]

/-- Of the two documents of such a page, one is left, and nobody learns of the other one. -/
theorem renderAll_overwrites_untold : ∃ (e : Engine) (w : World) (docs : Documents)
    (pages : List (Visit (List (String × Value)))), e.Reached ∧ (e.renderAll .none).outcome w = .ok docs ∧
      (e.walk (e.branches .none) e.paths).outcome w = .ok pages ∧
      ((e.renderAll .none).after w).overwrites = w.overwrites ∧
      (pages.flatMap fun page => replaced page.documents).length = 1 ∧
      (pages.flatMap Visit.documents).length = docs.length + 1 := by
  have hfound : ((bare.registerAll namesakes).outcome {}).toOption.map (fun e =>
      let w := (bare.registerAll namesakes).after {}
      (((e.renderAll .none).outcome w).toOption.map List.length, w.overwrites,
        ((e.renderAll .none).after w).overwrites,
        ((e.walk (e.branches .none) e.paths).outcome w).toOption.map fun pages =>
          (pages.flatMap Visit.documents).length)) = some (some 1, [], [], some 2) := by
    decide +kernel
  obtain ⟨e, he, hrun⟩ := Option.map_eq_some_iff.1 hfound
  have hreached : e.Reached := reached_bare.registerAll he
  generalize (bare.registerAll namesakes).after {} = w at hrun
  obtain ⟨hdocs, hrun⟩ := Prod.mk.inj hrun
  obtain ⟨hbefore, hrun⟩ := Prod.mk.inj hrun
  obtain ⟨hafter, hpages⟩ := Prod.mk.inj hrun
  obtain ⟨docs, houtcome, hone⟩ := exists_ok_of_map hdocs
  obtain ⟨pages, warnings, hwalk, hwarnings, hlength, -⟩ := renderAll_overwrites hreached houtcome
  rw [hwalk] at hpages
  have htwo : (pages.flatMap Visit.documents).length = 2 := Option.some.inj hpages
  rw [hbefore, hafter, List.nil_append] at hwarnings
  rw [hone, htwo, ← hwarnings, List.length_nil] at hlength
  exact ⟨e, w, docs, pages, hreached, houtcome, hwalk, hafter.trans hbefore.symm, by omega, by omega⟩

end Engine

end NestedSite
