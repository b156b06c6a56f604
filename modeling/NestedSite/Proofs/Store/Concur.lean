import NestedSite.Proofs.Store.Confined

/-!
# Computations that concur

Two computations concur from a world on (`Concur r R start m m' Q`) if they do the same wherever a relation leads to
from there while a region holds: they end alike and leave the same world, and what they do is confined to the region as
`R` admits, with results as `Q` says. A computation that is confined concurs with itself (`Confined.concur`), and one
that concurs with itself from everywhere is confined (`Concur.confined`). So what is shown of two computations that are
put together alike holds of one alone, and the rules are those of confined computations.
-/

namespace NestedSite

open Region (AllowsReads)

variable {α β γ : Type}

def Concur (r : Region) (R : World → World → Prop) (start : World) (m m' : Run α) (Q : α → Prop) : Prop :=
  ∀ w, R start w → r.Holds w.store →
    m'.run.run w = m.run.run w ∧ R start (m.after w) ∧ r.Holds (m.after w).store ∧ ∀ a, m.outcome w = .ok a → Q a

variable {r : Region} {R : World → World → Prop} {start : World} {Q : α → Prop} {P : β → Prop}

theorem Confined.concur [AllowsReads r R] {m : Run α} (h : Confined r R m Q) : Concur r R start m m Q :=
  fun w hR hw =>
    have ⟨hrel, hholds, hres⟩ := h w hw
    ⟨rfl, AllowsReads.trans r hR hrel, hholds, hres⟩

namespace Concur

variable {m m' : Run α} {f f' : α → Run β}

theorem confined [AllowsReads r R] (h : ∀ start, Concur r R start m m Q) : Confined r R m Q := fun w hw =>
  (h w w (AllowsReads.refl r w) hw).2

theorem pure {a : α} (h : Q a) : Concur r R start (Pure.pure a) (Pure.pure a) Q := fun _ hR hw =>
  ⟨rfl, hR, hw, fun _ hb => by cases hb; exact h⟩

theorem bind (h : Concur r R start m m' Q) (k : ∀ a, Q a → Concur r R start (f a) (f' a) P) :
    Concur r R start (m >>= f) (m' >>= f') P := by
  intro w hR hw
  obtain ⟨hrun, hrel, hholds, hres⟩ := h w hR hw
  unfold Run.after Run.outcome at *
  rw [Run.run_bind, Run.run_bind, hrun]
  rcases hm : m.run.run w with ⟨e | a, w'⟩
  · rw [hm] at hrel hholds
    exact ⟨rfl, hrel, hholds, fun _ hb => by cases hb⟩
  · rw [hm] at hrel hholds hres
    exact k a (hres a rfl) w' hrel hholds

/-- Nothing follows a fault. -/
theorem throw_bind {e : Fault} :
    Concur r R start (MonadExcept.throw e >>= f) (MonadExcept.throw e >>= f') P := fun _ hR hw =>
  ⟨rfl, hR, hw, fun _ hb => by cases hb⟩

/-- Computations whose results do not matter. -/
theorem seq (h : Concur r R start m m' Q) {n n' : Run β} (k : Concur r R start n n' P) :
    Concur r R start (m >>= fun _ => n) (m' >>= fun _ => n') P := h.bind fun _ _ => k

theorem map (h : Concur r R start m m' Q) {g : α → β} (hg : ∀ a, Q a → P (g a)) :
    Concur r R start (g <$> m) (g <$> m') P := by
  rw [map_eq_pure_bind, map_eq_pure_bind]
  exact h.bind fun a ha => .pure (hg a ha)

theorem ite {c : Prop} [Decidable c] {n n' : Run α} (h : c → Concur r R start m m' Q)
    (k : ¬c → Concur r R start n n' Q) : Concur r R start (if c then m else n) (if c then m' else n') Q := by
  split
  · exact h ‹_›
  · exact k ‹_›

theorem tryCatch (h : Concur r R start m m' Q) {handle handle' : Fault → Run α}
    (k : ∀ e, Concur r R start (handle e) (handle' e) Q) :
    Concur r R start (MonadExcept.tryCatch m handle) (MonadExcept.tryCatch m' handle') Q := by
  intro w hR hw
  obtain ⟨hrun, hrel, hholds, hres⟩ := h w hR hw
  unfold Run.after Run.outcome at *
  rw [Run.run_tryCatch, Run.run_tryCatch, hrun]
  rcases hm : m.run.run w with ⟨e | a, w'⟩
  · rw [hm] at hrel hholds
    exact k e w' hrel hholds
  · rw [hm] at hrel hholds hres
    exact ⟨rfl, hrel, hholds, hres⟩

section Lists

variable {xs : List γ}

theorem mapM {g g' : γ → Run α} (h : ∀ x ∈ xs, Concur r R start (g x) (g' x) Q) :
    Concur r R start (xs.mapM g) (xs.mapM g') fun ys => ∀ y ∈ ys, Q y := by
  induction xs with
  | nil =>
    rw [List.mapM_nil, List.mapM_nil]
    exact .pure fun y hy => absurd hy List.not_mem_nil
  | cons x xs ih =>
    rw [List.mapM_cons, List.mapM_cons]
    refine (h x List.mem_cons_self).bind fun y hy => ?_
    refine (ih fun z hz => h z (List.mem_cons_of_mem _ hz)).bind fun ys hys => .pure ?_
    exact List.forall_mem_cons.2 ⟨hy, hys⟩

theorem forM {g g' : γ → Run PUnit} (h : ∀ x ∈ xs, Concur r R start (g x) (g' x) fun _ => True) :
    Concur r R start (xs.forM g) (xs.forM g') fun _ => True := by
  induction xs with
  | nil => exact .pure trivial
  | cons x xs ih => exact (h x List.mem_cons_self).seq (ih fun z hz => h z (List.mem_cons_of_mem _ hz))

end Lists

/-- Two computations that concur with a third one concur with each other. -/
theorem join {m₀ : Run α} (h : Concur r R start m₀ m Q) (k : Concur r R start m₀ m' Q) :
    Concur r R start m m' Q := by
  intro w hR hw
  obtain ⟨hrun, hrel, hholds, hres⟩ := h w hR hw
  unfold Run.after Run.outcome at *
  rw [hrun]
  exact ⟨(k w hR hw).1, hrel, hholds, hres⟩

/-- What is read off the store may be computed in two ways. -/
theorem ofStore {g g' : Store → α}
    (h : ∀ w, R start w → r.Holds w.store → g' w.store = g w.store ∧ Q (g w.store)) :
    Concur r R start (do return g (← Run.store)) (do return g' (← Run.store)) Q := fun w hR hw =>
  ⟨congrArg (fun a => (Except.ok a, w)) (h w hR hw).1, hR, hw, fun _ ha => by cases ha; exact (h w hR hw).2⟩

end Concur

end NestedSite
