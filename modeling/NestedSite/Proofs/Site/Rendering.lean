import NestedSite.Proofs.Site.Observers
import NestedSite.Proofs.Site.Page

/-!
# What a rendering leaves behind

Rendering notes errors and nothing else, gives no mapping up, and leaves legends as they are (`Rendering`). Templates
are rendered so, whatever they do, and with them levels (`Engine.renderOne_confined`) and the documents of a page
(`Engine.branchDocuments_confined`). So events and warnings are none of its own (`Rendering.account`).
-/

namespace NestedSite

open Region (AllowsReads AllowsEdits)
open Template (AllowsTemplates)

variable {r : Region} {R : World → World → Prop}

/-! ## Errors only -/

/-- No mapping is given up, legends stay as they are, and errors only are noted. -/
structure Rendering (w w' : World) : Prop where
  dicts_le : w.store.dicts.size ≤ w'.store.dicts.size
  legends_le : w.store.legends.size ≤ w'.store.legends.size
  legends : ∀ p < w.store.legends.size, w'.store.legend p = w.store.legend p
  notes : ∃ errors : List Note, (∀ n ∈ errors, n.isError) ∧ w'.notes = (w.noted errors).notes

namespace Rendering

theorem refl (w : World) : Rendering w w :=
  ⟨Nat.le_refl _, Nat.le_refl _, fun _ _ => rfl, [], by simp, by rw [World.noted_nil]⟩

theorem trans {a b c : World} (h : Rendering a b) (k : Rendering b c) : Rendering a c where
  dicts_le := Nat.le_trans h.dicts_le k.dicts_le
  legends_le := Nat.le_trans h.legends_le k.legends_le
  legends p hp := (k.legends p (Nat.lt_of_lt_of_le hp h.legends_le)).trans (h.legends p hp)
  notes := by
    obtain ⟨ns, hns, hnotes⟩ := h.notes
    obtain ⟨ms, hms, hnotes'⟩ := k.notes
    refine ⟨ns ++ ms, fun n hn => (List.mem_append.1 hn).elim (hns n) (hms n), ?_⟩
    rw [hnotes', ← World.noted_noted]
    unfold World.noted at *
    rw [hnotes]

theorem of_notes_eq {w w' : World} (hle : w.store.dicts.size ≤ w'.store.dicts.size)
    (hlegends : w'.store.legends = w.store.legends) (h : w'.notes = w.notes) : Rendering w w' where
  dicts_le := hle
  legends_le := Nat.le_of_eq (congrArg Array.size hlegends.symm)
  legends p _ := by rw [Store.legend, Store.legend, hlegends]
  notes := ⟨[], by simp, by rw [h, World.noted_nil]⟩

theorem of_grows {w w' : World} (h : r.Grows w w') : Rendering w w' where
  dicts_le := h.dicts_le
  legends_le := h.legends_le
  legends := h.legends
  notes := ⟨[], by simp, by rw [h.notes, World.noted_nil]⟩

instance (r : Region) : AllowsEdits r Rendering where
  refl := refl
  trans := trans
  reads _ h := of_grows h.toGrows
  edits _ h := of_grows h.toGrows

theorem letsWrite (r : Region) (p : Nat) : LetsWrite r Rendering p := fun w es _ =>
  of_notes_eq (by simp [World.withDict]) rfl rfl

theorem record_confined {d : Deed} : Confined r Rendering (Run.record d) fun _ => True :=
  Run.step_confined (fun _ => rfl) fun _ hw => ⟨of_notes_eq (Nat.le_refl _) rfl rfl, hw, trivial⟩

instance (r : Region) [r.Open] : AllowsTemplates r Rendering :=
  .of_writes (fun _ => record_confined) (fun p _ => letsWrite r p) fun source message =>
    Run.step_confined (Run.note_run _) fun _ hw =>
      ⟨⟨Nat.le_refl _, Nat.le_refl _, fun _ _ => rfl, [.log .error source message], by simp [Note.isError], rfl⟩, hw,
        trivial⟩

/-- Notes other than errors stay as they were. -/
theorem account {w w' : World} (h : Rendering w w') : w'.account = w.account := by
  obtain ⟨errors, herrors, hnotes⟩ := h.notes
  have hnone : (errors.filter fun n => !n.isError) = [] := List.filter_eq_nil_iff.2 fun n hn => by simp [herrors n hn]
  have haccount : w'.account = (w.noted errors).account := by rw [World.account, hnotes]; rfl
  rw [haccount, World.account_noted, hnone, List.append_nil]

end Rendering

/-! ## Pages -/

theorem Run.mergeLegend_confined_whole [AllowsEdits .whole R] (p : Nat) (l : Legend) :
    Confined .whole R (mergeLegend p l) fun _ => True :=
  mergeLegend_confined (.unwatched (Nat.zero_le _)) trivial l.in_whole

namespace Engine

variable {e : Engine}

theorem renderOne_concur [AllowsTemplates r R] (he : e.Lawful r) (start : World) (path : Value) {p : Nat}
    (hp : Writable r R p) :
    Concur r R start (e.renderOne path (.dict p)) (e.renderOne path (.dict p)) (·.In r) :=
  (renderTo_confined he includeLimit fun _ hq => by cases hq; exact hp).concur

/-- A page is rendered as any relation admits that lets its context be written. -/
theorem renderBranch_confined_of [AllowsTemplates r R] (he : e.Lawful r) (path : String) {context : Nat}
    (hp : Writable r R context) : Confined r R (e.renderBranch path context) fun _ => True :=
  (Concur.confined fun start => renderBranch_concur rfl hp fun level _ =>
    renderOne_concur he start (.text level) hp).trivial

variable [AllowsTemplates .whole R]

theorem writable_whole {p : Nat} : Writable .whole R p := Fresh.writable ⟨trivial, Nat.zero_le _⟩

theorem renderOne_confined (he : e.Lawful .whole) (path context : Value) :
    Confined .whole R (e.renderOne path context) fun _ => True :=
  (renderTo_confined he includeLimit fun _ _ => writable_whole).trivial

theorem setKey_confined_whole (context : Nat) (key : String) (v : Value) :
    Confined .whole R (setKey context key v) fun _ => True :=
  setKey_confined (.unwatched (Nat.zero_le _)) trivial v.in_whole

theorem renderBranch_confined (he : e.Lawful .whole) (path : String) (context : Nat) :
    Confined .whole R (e.renderBranch path context) fun _ => True := renderBranch_confined_of he path writable_whole

theorem branchDocuments_confined (he : e.Lawful .whole) (path data : Value) :
    Confined .whole R (e.branchDocuments path data) fun _ => True := by
  refine Run.nonemptyArgument_confined.bind fun path _ => ?_
  refine (pageContexts_confined he.directories path data.in_whole).bind fun cs _ => ?_
  exact (Confined.mapM fun c _ => renderBranch_confined he path c).trivial

end Engine

end NestedSite
