import NestedSite.Proofs.Site.Pass
import NestedSite.Proofs.Site.Rendering

/-!
# Notes are of no account

A computation is oblivious (`Run.Oblivious`) if what it does to a store, and how it ends, does not depend on what was
noted or done before. What goes together with itself where every place stays is oblivious (`Moves.oblivious`), and so
are the documents of a page (`Engine.branchDocuments_oblivious`, `Engine.renderTemplate_oblivious`).

Two computations that differ in what they note of a fault only (`Run.EndsAlike`) still do so when others follow them
(`Run.EndsAlike.bind`).
-/

namespace NestedSite

/-! ## Stores that fit where every place stays -/

theorem array_eq {α : Type} {a b : Array α} {x y : α} (hsize : b.size = a.size)
    (h : ∀ i : Nat, (b[i]?).getD y = (a[i]?).getD x) : b = a := by
  refine Array.ext hsize fun i hb ha => ?_
  have hi := h i
  rwa [Array.getElem?_eq_getElem hb, Array.getElem?_eq_getElem ha] at hi

namespace Relocation.Fits

variable {s s' : Store}

theorem refl (s : Store) : Relocation.refl.Fits s s where
  list _ := (Value.map_moved_refl _).symm
  dict _ := (Entries.moved_refl _).symm
  set _ := (Value.map_moved_refl _).symm
  cursor _ := (Cursor.moved_refl _).symm
  legend _ := (Legend.moved_refl _).symm
  metadata _ := (Metadata.moved_refl _).symm
  freeLists _ := rfl
  freeDicts _ := rfl
  freeSets _ := rfl
  freeCursors _ := rfl
  freeLegends _ := rfl
  freeMetadata _ := rfl

theorem eq_of_refl (h : Relocation.refl.Fits s s') : s' = s := by
  have hlists := array_eq (h.freeLists 0).symm fun p => (h.list p).trans (Value.map_moved_refl _)
  have hdicts := array_eq (h.freeDicts 0).symm fun p => (h.dict p).trans (Entries.moved_refl _)
  have hsets := array_eq (h.freeSets 0).symm fun p => (h.set p).trans (Value.map_moved_refl _)
  have hcursors := array_eq (h.freeCursors 0).symm fun p => (h.cursor p).trans (Cursor.moved_refl _)
  have hlegends := array_eq (h.freeLegends 0).symm fun p => (h.legend p).trans (Legend.moved_refl _)
  have hmetadata := array_eq (h.freeMetadata 0).symm fun p => (h.metadata p).trans (Metadata.moved_refl _)
  cases s
  cases s'
  simp_all

end Relocation.Fits

/-! ## Oblivious computations -/

variable {α β : Type}

/-- What was noted and done before is of no account. -/
def Run.Oblivious (m : Run α) : Prop :=
  ∀ w w', w'.store = w.store → m.outcome w' = m.outcome w ∧ (m.after w').store = (m.after w).store

theorem Moves.oblivious {m : Run α} {f : α → α} (h : Moves .refl f m m) (hf : ∀ a, f a = a) : m.Oblivious := by
  intro w w' hw
  obtain ⟨houtcome, hfits, -⟩ := h w w' (hw ▸ .refl _)
  refine ⟨houtcome.trans ?_, hfits.eq_of_refl⟩
  cases m.outcome w with
  | error e => rfl
  | ok a => exact congrArg Except.ok (hf a)

namespace Run.Oblivious

theorem pure (a : α) : Oblivious (Pure.pure a) := fun _ _ hw => ⟨rfl, hw⟩

theorem bind {m : Run α} (h : m.Oblivious) {k : α → Run β} (hk : ∀ a, (k a).Oblivious) : (m >>= k).Oblivious := by
  intro w w' hw
  obtain ⟨houtcome, hstore⟩ := h w w' hw
  unfold Run.after Run.outcome at *
  rw [Run.run_bind, Run.run_bind]
  rcases hm : m.run.run w with ⟨r, v⟩
  rcases hm' : m.run.run w' with ⟨r', v'⟩
  rw [hm, hm'] at houtcome hstore
  cases houtcome
  cases r with
  | error e => exact ⟨rfl, hstore⟩
  | ok a => exact hk a v v' hstore

end Run.Oblivious

/-! ## Faults that are noted -/

/-- Computations end in the same way, or with the same fault and in worlds with other notes. -/
inductive Ended : Except Fault α × World → Except Fault α × World → Prop
  | same (r : Except Fault α × World) : Ended r r
  | fault (f : Fault) (w : World) (notes : Array Note) : Ended (.error f, w) (.error f, { w with notes })

/-- Started in one world, two computations end alike, but for what they note of a fault. -/
def Run.EndsAlike (m m' : Run α) (w : World) : Prop := Ended (m.run.run w) (m'.run.run w)

namespace Run.EndsAlike

variable {m m' : Run α} {w : World}

theorem of_run_eq (h : m.run.run w = m'.run.run w) : EndsAlike m m' w := by
  unfold EndsAlike
  rw [h]
  exact .same _

theorem outcome (h : EndsAlike m m' w) : m.outcome w = m'.outcome w := by
  unfold EndsAlike at h
  unfold Run.outcome
  cases h' : m.run.run w with
  | mk r u =>
    rw [h'] at h
    generalize m'.run.run w = other at h
    cases h <;> rfl

/-- What follows a success follows it in the same world. -/
theorem bind (h : EndsAlike m m' w) {f g : α → Run β}
    (hf : ∀ a u, m.run.run w = (.ok a, u) → EndsAlike (f a) (g a) u) : EndsAlike (m >>= f) (m' >>= g) w := by
  unfold EndsAlike at *
  rw [Run.run_bind, Run.run_bind]
  generalize m.run.run w = first at h hf
  generalize m'.run.run w = second at h
  cases h with
  | same =>
    obtain ⟨f | a, u⟩ := first
    · exact .same _
    · exact hf a u rfl
  | fault f u notes => exact .fault f u notes

/-- A fault is reported with the path as it is spelled. -/
theorem reporting (path other : String) (m : Run α) (w : World) :
    EndsAlike (Engine.reporting path m) (Engine.reporting other m) w := by
  unfold EndsAlike Engine.reporting
  rw [Run.run_tryCatch, Run.run_tryCatch]
  rcases m.run.run w with ⟨f | a, u⟩
  · exact .fault f _ _
  · exact .same _

end Run.EndsAlike

/-! ## Pages -/

namespace Engine

theorem branchDocuments_moves {ρ : Relocation} (e : Engine) (path data : Value) :
    Moves ρ (List.map (movedDocument ρ)) (e.branchDocuments path data)
      ((e.moved ρ).branchDocuments (path.moved ρ) (data.moved ρ)) :=
  (Run.nonemptyArgument_moves "path" path).bindPlain fun path => (pageContexts_moves e path data).bind fun _ =>
    Moves.mapM (renderBranch_moves e path)

theorem ignores_oblivious (ds : Directories) (path : String) : (ds.ignores path).Oblivious := by
  have h := ds.ignores_moves (ρ := .refl) path
  rw [show ds.moved .refl = ds from List.map_id _] at h
  exact h.oblivious fun _ => rfl

theorem branchDocuments_oblivious (e : Engine) (path data : Value) : (e.branchDocuments path data).Oblivious := by
  have h := branchDocuments_moves (ρ := .refl) e path data
  rw [moved_refl, Value.moved_refl, Value.moved_refl] at h
  exact h.oblivious movedFields_refl

theorem renderTemplate_oblivious (e : Engine) (path data : Value) : (e.renderTemplate path data).Oblivious := by
  rw [renderTemplate_eq, map_eq_pure_bind]
  exact (branchDocuments_oblivious e path data).bind fun _ => .pure _

end Engine

end NestedSite
