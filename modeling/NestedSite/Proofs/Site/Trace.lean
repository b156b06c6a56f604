import NestedSite.Proofs.Site.Notes

/-!
# What a pass tells

A pass over templates is a walk through them of which the observers learn. A walk (`Engine.walk`) goes to one template
after the other and renders those that are not ignored; it notes nothing but errors. Each step of a pass is the visit of
the walk to the same template, with the notes of that visit behind it (`Engine.passOver_visit`), so by induction a pass
ends as the walk does, and what it notes are the notes of the visits (`Engine.passAll_walk`). The events among them are
read off (`Engine.events_visitNotesAll`), the documents are those of all visits, the last one for each path
(`Engine.documents_visitedAll`), and other observers change neither (`Engine.passAll_observers`).
-/

namespace NestedSite

open Documents (goesTo gather putAll)

variable {α β : Type}

namespace Engine

/-! ## Visits -/

/-- What comes of going to a template: nothing, if it is ignored. -/
structure Visit (α : Type) where
  path : String
  result : Option α

def Visit.map (f : α → β) (v : Visit α) : Visit β := ⟨v.path, v.result.map f⟩

/-- Goes to a template, and renders it unless it is ignored. -/
def visit (e : Engine) (render : String → Run α) (path : String) : Run (Visit α) := do
  if ← e.directories.ignores path then return ⟨path, none⟩
  return ⟨path, some (← render path)⟩

/-- Goes to one template after the other. -/
def walk (e : Engine) (render : String → Run α) (paths : List String) : Run (List (Visit α)) :=
  paths.mapM (e.visit render)

/-- The documents of a page of a pass. -/
def page (e : Engine) (data : Value) (path : String) : Run Documents := e.renderTemplate (.text path) data

/-- The documents of a visit. -/
def Visit.documents (v : Visit (List (String × Value))) : List (String × Value) := v.result.getD []

/-- What the observers learn of a visit. -/
def Visit.events (v : Visit Documents) : List Event :=
  match v.result with
  | none => [{ kind := .ignored, template := some v.path }]
  | some docs => docs.map fun doc => { kind := .rendered, template := some v.path, output := some doc.1 }

/-- What is noted of a visit. -/
def Visit.notes (observers : Observers) (pass : Pass) (v : Visit Documents) : List Note :=
  match v.result with
  | none =>
    .log .debug passSource s!"Ignoring template: {v.path}" ::
      observers.told { kind := .ignored, template := some v.path }
  | some docs => Pass.notesAll observers v.path pass docs

/-- The pass with the documents of a visit. -/
def Pass.visited (pass : Pass) (v : Visit Documents) : Pass := pass.with v.path v.documents

/-- What is noted of one visit after the other. -/
def Visit.notesAll (observers : Observers) : Pass → List (Visit Documents) → List Note
  | _, [] => []
  | pass, v :: vs => v.notes observers pass ++ notesAll observers (pass.visited v) vs

/-! ## One template -/

theorem visit_ignored {e : Engine} {render : String → Run α} {path : String} {w : World}
    (h : (e.directories.ignores path).outcome w = .ok true) :
    (e.visit render path).run.run w = (.ok ⟨path, none⟩, w) := by
  unfold visit
  rw [Run.run_bind, ignores_run_of h]
  rfl

theorem visit_rendered {e : Engine} {render : String → Run α} {path : String} {w : World}
    (h : (e.directories.ignores path).outcome w = .ok false) :
    (e.visit render path).run.run w =
      (((render path).outcome w).map fun a => ⟨path, some a⟩, (render path).after w) := by
  unfold visit Run.outcome Run.after
  rw [Run.run_bind, ignores_run_of h]
  dsimp only
  rw [if_neg Bool.false_ne_true, Run.run_bind]
  rcases (render path).run.run w with ⟨f | a, u⟩ <;> rfl

theorem page_rendering {e : Engine} (he : e.Lawful .whole) (data : Value) (path : String) (w : World) :
    Rendering w ((e.page data path).after w) := by
  have h : Confined .whole Rendering (e.page data path) fun _ => True := by
    unfold page
    rw [renderTemplate_eq]
    exact (branchDocuments_confined he _ _).map fun _ _ => trivial
  exact (h w (Region.whole_holds _)).1

theorem isError_passNotes {pass : Pass} {o : Observers} {path target : String} {n : Note}
    (h : n ∈ pass.notes o path target) : n.isError = false := by
  unfold Pass.notes at h
  dsimp only at h
  split at h
  · rcases List.mem_cons.1 h with rfl | h
    · rfl
    · exact Observers.isError_told h
  · exact Observers.isError_told h

theorem isError_notesAll {o : Observers} {path : String} {n : Note} :
    ∀ {docs : Documents} {pass : Pass}, n ∈ Pass.notesAll o path pass docs → n.isError = false
  | _ :: _, _, h => (List.mem_append.1 h).elim isError_passNotes isError_notesAll

theorem isError_visitNotes {o : Observers} {pass : Pass} {v : Visit Documents} {n : Note} (h : n ∈ v.notes o pass) :
    n.isError = false := by
  unfold Visit.notes at h
  split at h
  · rcases List.mem_cons.1 h with rfl | h
    · rfl
    · exact Observers.isError_told h
  · exact isError_notesAll h

theorem isError_announcement {e : Engine} {path : String} {f : Fault} {n : Note} (h : n ∈ e.announcement path f) :
    n.isError = false := by
  unfold announcement at h
  split at h
  · exact Observers.isError_told h
  · exact absurd h List.not_mem_nil

/-- Two runs end alike: with results that go together, or with the same fault, and with the same store. -/
inductive EndAlike (P : α → β → World → Prop) (Q : Fault → World → World → Prop) :
    Except Fault α × World → Except Fault β × World → Prop where
  | ok {a : α} {b : β} {v w : World} (hstore : v.store = w.store) (h : P a b w) : EndAlike P Q (.ok a, v) (.ok b, w)
  | error {f : Fault} {v w : World} (hstore : v.store = w.store) (h : Q f v w) :
      EndAlike P Q (.error f, v) (.error f, w)

/-- The step of a pass at a template is the visit to it, of which the observers learn. -/
theorem passOver_visit {e : Engine} (he : e.Lawful .whole) (data : Value) (pass : Pass) (path : String) {w v : World}
    (hstore : v.store = w.store) :
    EndAlike
      (fun x pass' w' => pass' = pass.visited x ∧ w'.account = w.account ++ x.notes e.observers pass)
      (fun f v' w' => w'.account = w.account ++ e.announcement path f ∧
        (e.directories.ignores path).outcome v = .ok false ∧ (e.page data path).run.run v = (.error f, v'))
      ((e.visit (e.page data) path).run.run v) ((e.passOver data pass path).run.run w) := by
  obtain ⟨ignored, hrun⟩ := ignores_run e.directories path w
  have hignored : (e.directories.ignores path).outcome v = .ok ignored :=
    (ignores_oblivious e.directories path w v hstore).1.trans (congrArg Prod.fst hrun)
  cases ignored with
  | true =>
    have hpass : (e.passOver data pass path).run.run w =
        (.ok pass, w.noted (Visit.notes e.observers pass ⟨path, none⟩)) := by
      unfold passOver
      rw [Run.run_bind, hrun]
      dsimp only
      rw [if_pos rfl, Run.run_bind, Run.note_run]
      dsimp only
      rw [Run.run_bind, Run.emit_run, World.noted_noted]
      rfl
    rw [visit_ignored hignored, hpass]
    exact .ok hstore ⟨rfl, World.account_noted_of fun _ => isError_visitNotes⟩
  | false =>
    obtain ⟨houtcome, hafter⟩ := renderTemplate_oblivious e (.text path) data w v hstore
    have hrendering := page_rendering he data path w
    rw [visit_rendered hignored]
    unfold passOver page at *
    unfold Run.outcome Run.after at *
    rw [Run.run_bind, hrun]
    dsimp only
    rw [if_neg Bool.false_ne_true, Run.run_bind, Run.run_tryCatch]
    rcases hv : (e.renderTemplate (.text path) data).run.run v with ⟨r, v'⟩
    rcases hw : (e.renderTemplate (.text path) data).run.run w with ⟨f | docs, w'⟩ <;>
      rw [hv, hw] at houtcome hafter <;> rw [hw] at hrendering <;> cases houtcome
    · dsimp only
      rw [Run.run_bind, announce_run]
      refine .error hafter ⟨?_, hignored, rfl⟩
      rw [World.account_noted_of fun _ => isError_announcement, hrendering.account]
    · dsimp only
      rw [addAll_run]
      refine .ok hafter ⟨rfl, ?_⟩
      rw [World.account_noted_of fun _ => isError_notesAll, hrendering.account]
      rfl

/-! ## All templates -/

theorem walk_cons (e : Engine) (render : String → Run α) (path : String) (paths : List String) :
    e.walk render (path :: paths) = do return (← e.visit render path) :: (← e.walk render paths) := List.mapM_cons

/-- A walk comes to a template that fails, and that is not ignored; `xs` are the visits before, in `v'` it ends. -/
def FailsAt (e : Engine) (data : Value) (paths : List String) (v : World) (xs : List (Visit Documents)) (path : String)
    (f : Fault) (v' : World) : Prop :=
  ∃ before after u, paths = before ++ path :: after ∧ (e.walk (e.page data) before).run.run v = (.ok xs, u) ∧
    (e.directories.ignores path).outcome u = .ok false ∧ (e.page data path).run.run u = (.error f, v')

theorem FailsAt.cons {e : Engine} {data : Value} {paths : List String} {v v₁ v' : World} {xs : List (Visit Documents)}
    {path p : String} {f : Fault} {x : Visit Documents} (h : FailsAt e data paths v₁ xs path f v')
    (hx : (e.visit (e.page data) p).run.run v = (.ok x, v₁)) : FailsAt e data (p :: paths) v (x :: xs) path f v' := by
  obtain ⟨before, after, u, rfl, hwalk, hnot, hpage⟩ := h
  refine ⟨p :: before, after, u, rfl, ?_, hnot, hpage⟩
  rw [walk_cons, Run.run_bind, hx]
  dsimp only
  rw [Run.run_bind, hwalk]
  rfl

/-- A pass over templates is the walk through them, of which the observers learn. It ends with the first template that
fails. -/
theorem passAll_walk {e : Engine} (he : e.Lawful .whole) (data : Value) :
    ∀ (paths : List String) (pass : Pass) {w v : World}, v.store = w.store →
      EndAlike
        (fun xs pass' w' => pass' = xs.foldl Pass.visited pass ∧
          w'.account = w.account ++ Visit.notesAll e.observers pass xs)
        (fun f v' w' => ∃ xs path, FailsAt e data paths v xs path f v' ∧
          w'.account = w.account ++ Visit.notesAll e.observers pass xs ++ e.announcement path f)
        ((e.walk (e.page data) paths).run.run v) ((paths.foldlM (e.passOver data) pass).run.run w)
  | [], pass, w, v, hstore => .ok hstore ⟨rfl, (List.append_nil _).symm⟩
  | path :: paths, pass, w, v, hstore => by
    have hstep := passOver_visit he data pass path hstore
    rw [walk_cons, List.foldlM_cons, Run.run_bind, Run.run_bind]
    generalize hvisit : (e.visit (e.page data) path).run.run v = x at hstep
    generalize (e.passOver data pass path).run.run w = y at hstep
    cases hstep with
    | error hstore₁ h =>
      obtain ⟨haccount, hnot, hpage⟩ := h
      refine .error hstore₁ ⟨[], path, ⟨[], paths, v, rfl, rfl, hnot, hpage⟩, ?_⟩
      rw [haccount, Visit.notesAll, List.append_nil]
    | ok hstore₁ h =>
      obtain ⟨rfl, haccount⟩ := h
      rename_i x v₁ w₁
      have hrest := passAll_walk he data paths (pass.visited x) hstore₁
      dsimp only
      rw [Run.run_bind]
      generalize (e.walk (e.page data) paths).run.run v₁ = xs at hrest
      generalize (paths.foldlM (e.passOver data) (pass.visited x)).run.run w₁ = y at hrest
      cases hrest with
      | ok hstore₂ h =>
        refine .ok hstore₂ ⟨h.1, ?_⟩
        rw [h.2, haccount, List.append_assoc]
        rfl
      | error hstore₂ h =>
        obtain ⟨xs, failing, hfails, haccount'⟩ := h
        refine .error hstore₂ ⟨x :: xs, failing, hfails.cons hvisit, ?_⟩
        rw [haccount', haccount, Visit.notesAll, List.append_assoc w.account]

/-! ## Events -/

/-- What the observers learn of a template that fails: nothing, if its fault has no words. -/
def failureEvents (path : String) (f : Fault) : List Event :=
  match f.wording with
  | .ok words => [failure path f words]
  | .error _ => []

theorem events_announcement (e : Engine) (path : String) (f : Fault) :
    (e.announcement path f).filterMap Note.event? = failureEvents path f := by
  unfold announcement failureEvents
  cases f.wording with
  | ok words => exact Observers.events_told _ _
  | error why => rfl

theorem events_passNotes (pass : Pass) (o : Observers) (path target : String) :
    (pass.notes o path target).filterMap Note.event? =
      [{ kind := .rendered, template := some path, output := some target }] := by
  unfold Pass.notes
  dsimp only
  split
  · exact Observers.events_told o _
  · exact Observers.events_told o _

theorem events_passNotesAll (o : Observers) (path : String) (docs : Documents) (pass : Pass) :
    (Pass.notesAll o path pass docs).filterMap Note.event? =
      docs.map fun doc => { kind := .rendered, template := some path, output := some doc.1 } := by
  induction docs generalizing pass with
  | nil => rfl
  | cons doc docs ih =>
    rw [Pass.notesAll, List.filterMap_append, events_passNotes, ih]
    rfl

theorem events_visitNotes (o : Observers) (pass : Pass) (x : Visit Documents) :
    (x.notes o pass).filterMap Note.event? = x.events := by
  unfold Visit.notes Visit.events
  split
  · exact Observers.events_told o _
  · exact events_passNotesAll o _ _ _

theorem events_visitNotesAll (o : Observers) (xs : List (Visit Documents)) (pass : Pass) :
    (Visit.notesAll o pass xs).filterMap Note.event? = xs.flatMap Visit.events := by
  induction xs generalizing pass with
  | nil => rfl
  | cons x xs ih => rw [Visit.notesAll, List.filterMap_append, events_visitNotes, ih, List.flatMap_cons]

/-! ## Documents -/

theorem documents_with (pass : Pass) (path : String) (docs : Documents) :
    (pass.with path docs).documents = pass.documents.putAll docs := by
  induction docs generalizing pass with
  | nil => rfl
  | cons doc docs ih => exact ih (pass.with path [doc])

theorem documents_visitedAll (xs : List (Visit Documents)) (pass : Pass) :
    (xs.foldl Pass.visited pass).documents = pass.documents.putAll (xs.flatMap Visit.documents) := by
  induction xs generalizing pass with
  | nil => rfl
  | cons x xs ih =>
    rw [List.foldl_cons, ih, Pass.visited, documents_with, List.flatMap_cons, Documents.putAll_append]

/-! ## Other observers -/

section Other

variable (e : Engine) (o : Observers)

theorem renderTo_observers (n : Nat) : { e with observers := o }.renderTo n = e.renderTo n := by
  induction n with
  | zero => rfl
  | succ n ih =>
    funext path context
    unfold renderTo
    rw [ih]
    rfl

theorem page_observers (data : Value) : { e with observers := o }.page data = e.page data := by
  unfold page renderTemplate renderBranch renderThrough renderOne
  rw [renderTo_observers]
  rfl

theorem visit_observers (render : String → Run α) : { e with observers := o }.visit render = e.visit render := rfl

variable {e}

/-- A pass with other observers ends alike, and has the same events. -/
theorem passAll_observers (he : e.Lawful .whole) (data : Value) (paths : List String) (pass : Pass) {w w' : World}
    (hstore : w'.store = w.store) (hevents : w'.events = w.events) :
    (paths.foldlM ({ e with observers := o }.passOver data) pass).outcome w' =
        (paths.foldlM (e.passOver data) pass).outcome w ∧
      ((paths.foldlM ({ e with observers := o }.passOver data) pass).after w').events =
        ((paths.foldlM (e.passOver data) pass).after w).events := by
  have he' : Lawful .whole { e with observers := o } := { he with }
  induction paths generalizing pass w w' with
  | nil =>
    rw [List.foldlM_nil, List.foldlM_nil]
    exact ⟨rfl, hevents⟩
  | cons path paths ih =>
    -- both steps are compared with one visit
    have hstep := passOver_visit he data pass path (w := w) (v := w) rfl
    have hstep' := passOver_visit he' data pass path (w := w') (v := w) hstore.symm
    rw [page_observers, visit_observers] at hstep'
    rw [World.events_eq w', World.events_eq w] at hevents
    unfold Run.outcome Run.after at *
    rw [List.foldlM_cons, List.foldlM_cons, Run.run_bind, Run.run_bind]
    generalize (e.visit (e.page data) path).run.run w = x at hstep hstep'
    generalize (e.passOver data pass path).run.run w = y at hstep
    generalize ({ e with observers := o }.passOver data pass path).run.run w' = y' at hstep'
    cases hstep with
    | error hstore₁ h =>
      cases hstep' with
      | error hstore₁' h' =>
        refine ⟨rfl, ?_⟩
        rw [World.events_eq, World.events_eq, h.1, h'.1, List.filterMap_append, List.filterMap_append, hevents,
          events_announcement, events_announcement]
    | ok hstore₁ h =>
      cases hstep' with
      | ok hstore₁' h' =>
        dsimp only
        rw [h.1, h'.1]
        refine ih _ (hstore₁'.symm.trans hstore₁) ?_
        rw [World.events_eq, World.events_eq, h.2, h'.2, List.filterMap_append, List.filterMap_append, hevents,
          events_visitNotes, events_visitNotes]

end Other

theorem renderAll_run (e : Engine) (data : Value) (w : World) :
    (e.renderAll data).run.run w = match (e.paths.foldlM (e.passOver data) {}).run.run w with
      | (.ok pass, w') => (.ok pass.documents, w')
      | (.error f, w') => (.error f.told, w') := by
  unfold renderAll
  rw [Run.run_tryCatch, Run.run_bind]
  rcases (e.paths.foldlM (e.passOver data) {}).run.run w with ⟨f | pass, w'⟩ <;> rfl

end Engine

end NestedSite
