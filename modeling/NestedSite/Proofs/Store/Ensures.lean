import NestedSite.Proofs.Store.Confined

/-!
# Computations that succeed

`Run.Ensures m w Q` says of a computation that is started in `w` that, if it succeeds, its result and the world that it
leaves are as `Q` says. The rules follow the way computations are put together. What a computation is confined to holds
whether it succeeds or not, and may be added (`Run.Ensures.of_confined`, `Run.Ensures.and`). Both together, for a
computation that is started in one world, are `ConfinedAt`.
-/

namespace NestedSite

open Region (AllowsReads)

namespace Run

variable {α β : Type}

/-- If the computation succeeds, what it gives and the world that it leaves are as `Q` says. -/
def Ensures (m : Run α) (w : World) (Q : α → World → Prop) : Prop := ∀ a w', m.run.run w = (.ok a, w') → Q a w'

namespace Ensures

variable {m : Run α} {f : α → Run β} {w : World} {Q : α → World → Prop} {P : β → World → Prop}

theorem pure {a : α} (h : Q a w) : Ensures (Pure.pure a) w Q := fun _ _ hrun => by cases hrun; exact h

theorem anything (m : Run α) (w : World) : m.Ensures w fun _ _ => True := fun _ _ _ => trivial

theorem throw {e : Fault} : Ensures (MonadExcept.throw e) w Q := fun _ _ hrun => by cases hrun

theorem bind (h : m.Ensures w Q) (k : ∀ a w', Q a w' → (f a).Ensures w' P) : (m >>= f).Ensures w P := by
  intro b u hrun
  rw [Run.run_bind] at hrun
  rcases hm : m.run.run w with ⟨e | a, w'⟩
  · rw [hm] at hrun
    cases hrun
  · rw [hm] at hrun
    exact k a w' (h a w' hm) b u hrun

theorem mono (h : m.Ensures w Q) {Q' : α → World → Prop} (hQ : ∀ a w', Q a w' → Q' a w') : m.Ensures w Q' :=
  fun a w' hrun => hQ a w' (h a w' hrun)

theorem and (h : m.Ensures w Q) {Q' : α → World → Prop} (h' : m.Ensures w Q') :
    m.Ensures w fun a w' => Q a w' ∧ Q' a w' := fun a w' hrun => ⟨h a w' hrun, h' a w' hrun⟩

theorem map {g : α → β} (h : m.Ensures w fun a w' => P (g a) w') : (g <$> m).Ensures w P := by
  rw [map_eq_pure_bind]
  exact h.bind fun _ _ ha => .pure ha

/-- A single step, which does not fail. -/
theorem step {a : α} {u : World} (hm : m.run.run w = (.ok a, u)) (h : Q a u) : m.Ensures w Q := by
  intro b v hrun
  rw [hm] at hrun
  cases hrun
  exact h

theorem step_bind {a : α} {u : World} (hm : m.run.run w = (.ok a, u)) (k : (f a).Ensures u P) :
    (m >>= f).Ensures w P :=
  (Ensures.step (Q := fun b v => b = a ∧ v = u) hm ⟨rfl, rfl⟩).bind fun _ _ ⟨hb, hv⟩ => hb ▸ hv ▸ k

/-- A computation that goes like another one, started elsewhere. -/
theorem of_run_eq {n : Run α} {u : World} (hrun : m.run.run w = n.run.run u) (h : n.Ensures u Q) : m.Ensures w Q :=
  fun a w' hm => h a w' (hrun ▸ hm)

theorem of_confined {R : World → World → Prop} {Q : α → Prop} (h : Confined .whole R m Q) (w : World) :
    m.Ensures w fun a w' => R w w' ∧ Q a := by
  intro a w' hrun
  obtain ⟨hrel, -, hres⟩ := h w (Region.whole_holds _)
  unfold Run.after Run.outcome at *
  rw [hrun] at hrel hres
  exact ⟨hrel, hres a rfl⟩

/-- What each item gives keeps satisfying `Q` while the others follow. -/
theorem mapM {R : World → World → Prop} [AllowsReads .whole R] {xs : List α} {Q : β → World → Prop}
    (hstable : ∀ {b u v}, Q b u → R u v → Q b v)
    (h : ∀ x ∈ xs, ∀ u, R w u → (f x).Ensures u fun b v => R u v ∧ Q b v) :
    (xs.mapM f).Ensures w fun bs v => R w v ∧ ∀ b ∈ bs, Q b v := by
  induction xs generalizing w with
  | nil =>
    rw [List.mapM_nil]
    exact .pure ⟨AllowsReads.refl .whole w, fun _ hb => absurd hb List.not_mem_nil⟩
  | cons x xs ih =>
    rw [List.mapM_cons]
    have hx := h x List.mem_cons_self w (AllowsReads.refl .whole w)
    refine hx.bind fun b u hb => ?_
    have hxs := ih (w := u) fun y hy v hv =>
      h y (List.mem_cons_of_mem _ hy) v (AllowsReads.trans .whole hb.1 hv)
    refine hxs.bind fun bs v hbs => .pure ⟨AllowsReads.trans .whole hb.1 hbs.1, ?_⟩
    exact List.forall_mem_cons.2 ⟨hstable hb.2 hbs.1, hbs.2⟩

end Ensures

/-- What goes through a list without a fault goes through each beginning of it, and then through the next item. -/
theorem mapM_prefix {f : α → Run β} {xs : List α} {ys : List β} {w w' : World}
    (h : (xs.mapM f).run.run w = (.ok ys, w')) {i : Nat} {x : α} (hx : xs[i]? = some x) :
    ∃ zs u y v, ((xs.take i).mapM f).run.run w = (.ok zs, u) ∧ (f x).run.run u = (.ok y, v) ∧ ys[i]? = some y := by
  induction xs generalizing i ys w with
  | nil => cases hx
  | cons x' xs ih =>
    rw [List.mapM_cons, run_bind] at h
    rcases hfirst : (f x').run.run w with ⟨_ | y', u'⟩
    · rw [hfirst] at h
      cases h
    rw [hfirst] at h
    dsimp only at h
    rw [run_bind] at h
    rcases hrest : (xs.mapM f).run.run u' with ⟨_ | ys', v'⟩
    · rw [hrest] at h
      cases h
    rw [hrest] at h
    cases h
    cases i with
    | zero =>
      obtain rfl : x' = x := by simpa using hx
      exact ⟨[], w, y', u', rfl, hfirst, rfl⟩
    | succ i =>
      obtain ⟨zs, u, y, v, htake, hitem, hget⟩ := ih hrest (by simpa using hx)
      refine ⟨y' :: zs, u, y, v, ?_, hitem, by simpa using hget⟩
      rw [List.take_succ_cons, List.mapM_cons, run_bind, hfirst]
      dsimp only
      rw [run_bind, htake]
      rfl

theorem length_of_mapM {f : α → Run β} {xs : List α} {ys : List β} {w w' : World}
    (h : (xs.mapM f).run.run w = (.ok ys, w')) : ys.length = xs.length := by
  have hlength : (xs.mapM f).Ensures w fun ys _ => ys.length = xs.length := by
    clear h
    induction xs generalizing w with
    | nil => exact .pure rfl
    | cons x xs ih =>
      rw [List.mapM_cons]
      refine (Ensures.anything (f x) w).bind fun y u _ => ih.bind fun ys v hys => .pure ?_
      rw [List.length_cons, List.length_cons, hys]
  exact hlength ys w' h

theorem read_ensures (f : Store → Except Fault α) (w : World) :
    (read f).Ensures w fun a w' => w' = w ∧ f w.store = .ok a := by
  intro a w' hrun
  have hread : (read f).run.run w = (f w.store, w) := by
    rw [read, run_bind, store_run]
    dsimp only
    cases f w.store <;> rfl
  rw [hread] at hrun
  obtain ⟨hresult, rfl⟩ := Prod.mk.inj hrun
  exact ⟨rfl, hresult⟩

end Run

/-! ## Confined computations that are started in one world -/

/-- Started in `w`, the computation is confined; if it succeeds, its result and the world that it leaves are as `Q`
says. -/
structure ConfinedAt {α : Type} (r : Region) (R : World → World → Prop) (m : Run α) (w : World)
    (Q : α → World → Prop) : Prop where
  rel : R w (m.after w)
  holds : r.Holds (m.after w).store
  ensures : m.Ensures w Q

section

variable {α β : Type} {r : Region} {R : World → World → Prop} {m : Run α} {f : α → Run β} {w : World}
  {Q : α → World → Prop} {P : β → World → Prop}

theorem Confined.at {Q : α → Prop} (h : Confined r R m Q) (hw : r.Holds w.store) :
    ConfinedAt r R m w fun a _ => Q a := by
  obtain ⟨hrel, hholds, hres⟩ := h w hw
  exact ⟨hrel, hholds, fun a w' hrun => hres a (congrArg Prod.fst hrun)⟩

namespace ConfinedAt

theorem confined {Q : α → Prop} (h : ∀ w, r.Holds w.store → ConfinedAt r R m w fun a _ => Q a) :
    Confined r R m Q := fun w hw => ⟨(h w hw).rel, (h w hw).holds, fun a ha => (h w hw).ensures a _ (Prod.ext ha rfl)⟩

theorem and (h : ConfinedAt r R m w Q) {Q' : α → World → Prop} (h' : m.Ensures w Q') :
    ConfinedAt r R m w fun a w' => Q a w' ∧ Q' a w' := ⟨h.rel, h.holds, h.ensures.and h'⟩

/-- If the computation succeeds, the world that it leaves is in the relation. -/
theorem related (h : ConfinedAt r R m w Q) : m.Ensures w fun _ w' => R w w' := fun a w' hrun => by
  have hafter : m.after w = w' := congrArg Prod.snd hrun
  exact hafter ▸ h.rel

theorem pure [AllowsReads r R] {a : α} (hw : r.Holds w.store) (h : Q a w) : ConfinedAt r R (Pure.pure a) w Q :=
  ⟨AllowsReads.refl r w, hw, .pure h⟩

theorem bind [AllowsReads r R] (h : ConfinedAt r R m w Q)
    (k : ∀ a w', r.Holds w'.store → Q a w' → ConfinedAt r R (f a) w' P) : ConfinedAt r R (m >>= f) w P := by
  obtain ⟨hrel, hholds, hres⟩ := h
  unfold Run.after at hrel hholds
  rcases hm : m.run.run w with ⟨e | a, w'⟩
  · have hbind : (m >>= f).run.run w = (.error e, w') := by rw [Run.run_bind, hm]
    rw [hm] at hrel hholds
    refine ⟨?_, ?_, fun b u hrun => ?_⟩
    · rwa [Run.after, hbind]
    · rwa [Run.after, hbind]
    · rw [hbind] at hrun
      cases hrun
  · have hbind : (m >>= f).run.run w = (f a).run.run w' := by rw [Run.run_bind, hm]
    rw [hm] at hrel hholds
    obtain ⟨hrel', hholds', hres'⟩ := k a w' hholds (hres a w' hm)
    refine ⟨?_, ?_, fun b u hrun => hres' b u (hbind ▸ hrun)⟩
    · rw [Run.after, hbind]
      exact AllowsReads.trans r hrel hrel'
    · rwa [Run.after, hbind]

end ConfinedAt

end

end NestedSite
