import NestedSite.Proofs.Relocation.Engine
import NestedSite.Proofs.Site.Observers

/-!
# Mappings beside a relocation

A world may hold more than what a relocation leads to. A mapping beside it (`Beside`) is not altered by what goes
together with a computation on what is moved (`Moves.stays`). The data of a page are such a mapping if nothing that is
reached leads back to it: a rendering reads its entries, which are moved, and puts them into a context of its own
(`Engine.copiedContext_stays`). So neither the rendering of one template (`Engine.passOver_leaves`) nor a pass over all
of them (`Engine.renderAll_leaves`) alters the mapping.
-/

namespace NestedSite

variable {α β γ δ : Type} {ρ : Relocation} {q : Nat} {es : Entries}

/-- The world holds what a relocation leads to, and besides a mapping at `q`, with entries that are moved. -/
structure Beside (ρ : Relocation) (q : Nat) (es : Entries) (w : World) : Prop where
  fits : ∃ s, ρ.Fits s w.store
  kept : w.store.dict q = es.moved ρ

/-- A computation leaves the mapping beside a relocation as it is, and ends with a result that is moved by `f`. -/
def Stays (ρ : Relocation) (q : Nat) (es : Entries) (f : α → β) (m : Run β) : Prop :=
  ∀ w, Beside ρ q es w → Beside ρ q es (m.after w) ∧ ∃ a, m.outcome w = Except.map f a

/-- A computation leaves the mapping beside a relocation as it is. -/
def Leaves (ρ : Relocation) (q : Nat) (es : Entries) (m : Run α) : Prop :=
  ∀ w, Beside ρ q es w → Beside ρ q es (m.after w)

theorem Moves.stays {f : α → β} {m : Run α} {m' : Run β} (h : Moves ρ f m m') (hq : ∀ p, ρ.dicts p ≠ q) :
    Stays ρ q es f m' := by
  intro w hw
  obtain ⟨s, hfits⟩ := hw.fits
  obtain ⟨houtcome, hfits', hspares⟩ := h { store := s } w hfits
  exact ⟨⟨⟨_, hfits'⟩, (hspares.dicts q hq).trans hw.kept⟩, _, houtcome⟩

/-- The mapping lies in the world, as places that are free are found. -/
theorem Beside.lt {w : World} (hw : Beside ρ q es w) (hq : ∀ p, ρ.dicts p ≠ q) : q < w.store.dicts.size := by
  obtain ⟨s, hfits⟩ := hw.fits
  exact lt_of_free hfits.freeDicts hq

namespace Stays

variable {f : α → β} {g : γ → δ} {m : Run β}

theorem leaves (h : Stays ρ q es f m) : Leaves ρ q es m := fun w hw => (h w hw).1

theorem pure (a : α) : Stays ρ q es f (Pure.pure (f a)) := fun _ hw => ⟨hw, .ok a, rfl⟩

theorem bind (h : Stays ρ q es f m) {k : β → Run δ} (hk : ∀ a, Stays ρ q es g (k (f a))) :
    Stays ρ q es g (m >>= k) := by
  intro w hw
  obtain ⟨hafter, r, hr⟩ := h w hw
  unfold Run.after Run.outcome at *
  rw [Run.run_bind]
  rcases hm : m.run.run w with ⟨e | b, v⟩
  · rw [hm] at hafter
    exact ⟨hafter, .error e, rfl⟩
  · rw [hm] at hafter hr
    cases r with
    | error e => cases hr
    | ok a =>
      cases hr
      exact hk a v hafter

theorem foldlM {k : β → δ → Run β} (hk : ∀ a x, Stays ρ q es f (k (f a) (g x))) :
    ∀ (xs : List γ) (a : α), Stays ρ q es f ((xs.map g).foldlM k (f a))
  | [], a => .pure a
  | x :: xs, a => by
    rw [List.map_cons, List.foldlM_cons]
    exact (hk a x).bind fun b => foldlM hk xs b

end Stays

namespace Leaves

variable {m : Run α}

theorem pure (a : α) : Leaves ρ q es (Pure.pure a) := fun _ hw => hw

theorem throw (e : Fault) : Leaves ρ q es (MonadExcept.throw e : Run α) := fun _ hw => hw

theorem note (n : Note) : Leaves ρ q es (Run.note n) := fun _ hw => ⟨hw.fits, hw.kept⟩

theorem emit (o : Observers) (e : Event) : Leaves ρ q es (Run.emit o e) := fun w hw => by
  unfold Run.after
  rw [Run.emit_run]
  exact ⟨hw.fits, hw.kept⟩

theorem bind (h : Leaves ρ q es m) {k : α → Run β} (hk : ∀ a, Leaves ρ q es (k a)) : Leaves ρ q es (m >>= k) := by
  intro w hw
  have hafter := h w hw
  unfold Run.after at *
  rw [Run.run_bind]
  rcases hm : m.run.run w with ⟨e | a, v⟩
  · rwa [hm] at hafter
  · rw [hm] at hafter
    exact hk a v hafter

theorem tryCatch (h : Leaves ρ q es m) {handle : Fault → Run α} (hk : ∀ e, Leaves ρ q es (handle e)) :
    Leaves ρ q es (MonadExcept.tryCatch m handle) := by
  intro w hw
  have hafter := h w hw
  unfold Run.after at *
  rw [Run.run_tryCatch]
  rcases hm : m.run.run w with ⟨e | a, v⟩
  · rw [hm] at hafter
    exact hk e v hafter
  · rwa [hm] at hafter

theorem foldlM {k : β → α → Run β} (hk : ∀ b x, Leaves ρ q es (k b x)) :
    ∀ (xs : List α) (b : β), Leaves ρ q es (xs.foldlM k b)
  | [], b => .pure b
  | x :: xs, b => by
    rw [List.foldlM_cons]
    exact (hk b x).bind fun c => foldlM hk xs c

end Leaves

namespace Engine

theorem add_leaves (observers : Observers) (pass : Pass) (path : String) (doc : String × Value) :
    Leaves ρ q es (pass.add observers path doc) := by
  have taken : Leaves ρ q es (do
      Run.emit observers { kind := .rendered, template := some path, output := some doc.1 }
      return ({ documents := pass.documents.put doc.1 doc.2, sources := (doc.1, path) :: pass.sources } : Pass)) :=
    (Leaves.emit _ _).bind fun _ => .pure _
  unfold Pass.add
  dsimp only
  split
  · exact (Leaves.note _).bind fun _ => taken
  · exact taken

theorem announce_leaves (e : Engine) (path : String) (f : Fault) : Leaves ρ q es (e.announce path f) := by
  unfold announce
  split
  · exact .emit _ _
  · exact .pure _

section Data

variable (hq : ∀ p, ρ.dicts p ≠ q)

include hq

/-- A copy of the mapping is one of its entries, which are moved. -/
theorem copiedContext_stays : Stays ρ q es ρ.dicts (copiedContext (.dict q)) := by
  intro w hw
  have new : Moves ρ ρ.dicts (do contextOf (← Run.newDict es)) (do contextOf (← Run.newDict (es.moved ρ))) :=
    (Run.newDict_moves rfl).bind contextOf_moves
  have read : (copiedContext (.dict q)).run.run w =
      (do contextOf (← Run.newDict (w.store.dict q)) : Run Nat).run.run w := rfl
  have hstays : Stays ρ q es ρ.dicts (do contextOf (← Run.newDict (es.moved ρ))) := new.stays hq
  have hcopied := hstays w hw
  unfold Run.after Run.outcome at *
  rw [read, hw.kept]
  exact hcopied

theorem pageContext_stays (path : String) (legend : Option Legend) :
    Stays ρ q es ρ.dicts (pageContext path (.dict q) (legend.map (Legend.moved ρ))) := by
  refine (copiedContext_stays hq).bind fun p => ?_
  have named : Moves ρ ρ.dicts (do setKey p nameKey (.text (Path.name path)); return p)
      (do setKey (ρ.dicts p) nameKey (.text (Path.name path)); return ρ.dicts p) :=
    (setKey_moves p nameKey (.text (Path.name path))).seq (.pure rfl)
  cases legend with
  | none => exact named.stays hq
  | some l => exact ((Run.mergeLegend_moves p l).seq named).stays hq

theorem pageContexts_stays (e : Engine) (path : String) :
    Stays ρ q es (List.map ρ.dicts) ((e.moved ρ).pageContexts path (.dict q)) := by
  unfold pageContexts
  rw [metadataAt?_moved]
  refine ((Directories.legendAt?_moves e.directories path).stays hq).bind fun place => ?_
  extract_lets next
  have hnext (legend : Option Legend) :
      Stays ρ q es (List.map ρ.dicts) (next (legend.map (Legend.moved ρ))) := by
    refine (pageContext_stays hq path legend).bind fun p => ?_
    cases legend with
    | none => exact .pure [p]
    | some l => exact (echoed_moves e path p l).stays hq
  cases place with
  | none => exact hnext none
  | some l =>
    intro w hw
    obtain ⟨s, hfits⟩ := hw.fits
    have hlegend : w.store.legend (ρ.legends l) = (s.legend l).moved ρ := hfits.legend l
    have hstays := hnext (some (s.legend l)) w hw
    rw [Option.map_some, ← hlegend] at hstays
    exact hstays

theorem renderTemplate_stays (e : Engine) (path : String) :
    Stays ρ q es (movedFields ρ) ((e.moved ρ).renderTemplate (.text path) (.dict q)) := by
  refine ((Run.nonemptyArgument_moves "path" (.text path)).stays hq).bind fun path => ?_
  refine (pageContexts_stays hq e path).bind fun contexts => ?_
  refine Stays.foldlM (f := movedFields ρ) (g := ρ.dicts) (fun docs context => ?_) contexts []
  exact (putBranch_moves e path docs context).stays hq

theorem passOver_leaves (e : Engine) (pass : Pass) (path : String) :
    Leaves ρ q es ((e.moved ρ).passOver (.dict q) pass path) := by
  refine ((Directories.ignores_moves e.directories path).stays hq).leaves.bind fun ignored => ?_
  split
  · exact (Leaves.note _).bind fun _ => (Leaves.emit _ _).bind fun _ => .pure _
  · refine Leaves.bind ?_ fun docs => .foldlM (fun pass doc => add_leaves e.observers pass path doc) docs pass
    exact (renderTemplate_stays hq e path).leaves.tryCatch fun f => (announce_leaves _ path f).bind fun _ => .throw f

theorem renderAll_leaves (e : Engine) : Leaves ρ q es ((e.moved ρ).renderAll (.dict q)) :=
  ((Leaves.foldlM (passOver_leaves hq e) _ {}).bind fun _ => .pure _).tryCatch fun _ => .throw _

end Data

end Engine

end NestedSite
