import NestedSite.Proofs.Store.Region

/-!
# Confined computations

A computation is confined to a region `r` by a relation `R` between worlds (`Confined r R m Q`) if, started in a world
where `r` holds, it leaves one that is in the relation to the first and where `r` holds again, whether it fails or not,
and its result satisfies `Q`. The rules follow the way computations are put together (`Confined.bind`,
`Confined.mapM`, …), so that the confinement of a function is read off its definition.

Of computations that need no store it suffices what they give (`Gives`).

The relation is left open: it has to be a preorder that contains `Region.Reads` (`Region.AllowsReads`), or
`Region.Edits` (`Region.AllowsEdits`).
-/

namespace NestedSite

variable {α β : Type}

/-! ## Computations that need no store -/

/-- What a computation that needs no store gives satisfies `P`. -/
def Gives (m : Except Fault α) (P : α → Prop) : Prop := ∀ a, m = .ok a → P a

namespace Gives

variable {m : Except Fault α} {f : α → Except Fault β} {P : α → Prop} {Q : β → Prop}

theorem pure {a : α} (h : P a) : Gives (Pure.pure a) P := fun _ hb => by cases hb; exact h

theorem throw {e : Fault} : Gives (MonadExcept.throw e) P := fun _ hb => by cases hb

theorem bind (h : Gives m P) (k : ∀ a, P a → Gives (f a) Q) : Gives (m >>= f) Q := by
  intro b hb
  cases m with
  | error e => cases hb
  | ok a => exact k a (h a rfl) b hb

theorem throw_bind {e : Fault} : Gives (MonadExcept.throw e >>= f) Q := fun _ hb => by cases hb

theorem any (m : Except Fault α) : Gives m fun _ => True := fun _ _ => trivial

theorem ite {c : Prop} [Decidable c] {n : Except Fault α} (h : Gives m P) (k : Gives n P) :
    Gives (if c then m else n) P := by
  split
  · exact h
  · exact k

theorem guard {c : Prop} [Decidable c] {e : Fault} {rest : PUnit → Except Fault α} (k : Gives (rest ()) P) :
    Gives (if c then (do let u ← MonadExcept.throw e; rest u) else rest ()) P :=
  ite (throw (P := fun _ => False) |>.bind fun _ h => h.elim) k

end Gives

theorem eq_ok_of_toOption {m : Except Fault α} {a : α} (h : m.toOption = some a) : m = .ok a := by
  cases m with
  | error e => cases h
  | ok b => exact congrArg Except.ok (Option.some.inj h)

/-- Where something is found of the result of a computation, there is a result. -/
theorem exists_ok_of_map {m : Except Fault α} {f : α → β} {b : β} (h : m.toOption.map f = some b) :
    ∃ a, m = .ok a ∧ f a = b := by
  cases m with
  | error e => cases h
  | ok a => exact ⟨a, rfl, Option.some.inj h⟩

/-! ## Computations on the store -/

/-- The world that a computation leaves. -/
def Run.after (m : Run α) (w : World) : World := (m.run.run w).2

/-- The result of a computation, or its fault. -/
def Run.outcome (m : Run α) (w : World) : Except Fault α := (m.run.run w).1

theorem Run.run_bind (m : Run α) (f : α → Run β) (w : World) :
    (m >>= f).run.run w = match m.run.run w with
      | (.ok a, w') => (f a).run.run w'
      | (.error e, w') => (.error e, w') := by
  simp only [ExceptT.run_bind, StateT.run_bind]
  rcases m.run.run w with ⟨_ | _, w'⟩ <;> rfl

/-- A computation succeeds just if its first part does, and the rest from there. -/
theorem Run.bind_eq_ok {m : Run α} {f : α → Run β} {w w' : World} {b : β} : (m >>= f).run.run w = (.ok b, w') ↔
    ∃ a u, m.run.run w = (.ok a, u) ∧ (f a).run.run u = (.ok b, w') := by
  rw [run_bind]
  constructor
  · rcases m.run.run w with ⟨e | a, u⟩
    · exact fun h => by cases h
    · exact fun h => ⟨a, u, rfl, h⟩
  · rintro ⟨a, u, hm, h⟩
    rw [hm]
    exact h

theorem Run.store_run (w : World) : Run.store.run.run w = (.ok w.store, w) := rfl

theorem Run.dict_run (p : Nat) (w : World) : (Run.dict p).run.run w = (.ok (w.store.dict p), w) := rfl

theorem Run.newDict_run (es : Entries) (w : World) : (Run.newDict es).run.run w =
    (.ok (.dict w.store.dicts.size), { w with store := { w.store with dicts := w.store.dicts.push es } }) := rfl

theorem Run.run_tryCatch (m : Run α) (handle : Fault → Run α) (w : World) :
    (MonadExcept.tryCatch m handle : Run α).run.run w = match m.run.run w with
      | (.ok a, w') => (.ok a, w')
      | (.error e, w') => (handle e).run.run w' := by
  simp only [MonadExcept.tryCatch, tryCatchThe, MonadExceptOf.tryCatch, ExceptT.tryCatch, ExceptT.run_mk]
  rw [StateT.run_bind]
  rcases hm : m.run.run w with ⟨_ | _, w'⟩
  · rw [show StateT.run m w = _ from hm]; rfl
  · rw [show StateT.run m w = _ from hm]; rfl

namespace Region

/-- A relation between worlds that lets values of the region be read. -/
class AllowsReads (r : Region) (R : World → World → Prop) : Prop where
  refl : ∀ w, R w w
  trans : ∀ {a b c}, R a b → R b c → R a c
  reads : ∀ {w w'}, r.Holds w.store → r.Reads w w' → R w w'

/-- A relation between worlds that lets values of the region be edited. -/
class AllowsEdits (r : Region) (R : World → World → Prop) : Prop extends AllowsReads r R where
  edits : ∀ {w w'}, r.Holds w.store → r.Edits w w' → R w w'

instance (r : Region) : AllowsReads r r.Reads where
  refl := Reads.refl r
  trans := Reads.trans
  reads _ h := h

instance (r : Region) : AllowsEdits r r.Edits where
  refl := Edits.refl r
  trans := Edits.trans
  reads := Reads.edits
  edits _ h := h

end Region

open Region (AllowsReads AllowsEdits)

def Confined (r : Region) (R : World → World → Prop) (m : Run α) (Q : α → Prop) : Prop :=
  ∀ w, r.Holds w.store → R w (m.after w) ∧ r.Holds (m.after w).store ∧ ∀ a, m.outcome w = .ok a → Q a

namespace Confined

variable {r : Region} {R : World → World → Prop} {m : Run α} {f : α → Run β} {Q : α → Prop} {P : β → Prop}

theorem weaken (h : Confined r R m Q) {Q' : α → Prop} (hQ : ∀ a, Q a → Q' a) : Confined r R m Q' := fun w hw =>
  ⟨(h w hw).1, (h w hw).2.1, fun a ha => hQ a ((h w hw).2.2 a ha)⟩

theorem trivial (h : Confined r R m Q) : Confined r R m fun _ => True := h.weaken fun _ _ => True.intro

theorem pure [AllowsReads r R] {a : α} (h : Q a) : Confined r R (Pure.pure a) Q := fun w hw =>
  ⟨AllowsReads.refl r w, hw, fun _ hb => by cases hb; exact h⟩

theorem throw [AllowsReads r R] {e : Fault} : Confined r R (MonadExcept.throw e) Q := fun w hw =>
  ⟨AllowsReads.refl r w, hw, fun _ hb => by cases hb⟩

theorem wrongType [AllowsReads r R] : Confined r R NestedSite.wrongType Q := throw

theorem bind [AllowsReads r R] (h : Confined r R m Q) (k : ∀ a, Q a → Confined r R (f a) P) :
    Confined r R (m >>= f) P := by
  intro w hw
  obtain ⟨hrel, hholds, hres⟩ := h w hw
  unfold Run.after Run.outcome at *
  rw [Run.run_bind]
  rcases hm : m.run.run w with ⟨e | a, w'⟩
  · rw [hm] at hrel hholds
    exact ⟨hrel, hholds, fun _ hb => by cases hb⟩
  · rw [hm] at hrel hholds hres
    obtain ⟨hrel', hholds', hres'⟩ := k a (hres a rfl) w' hholds
    exact ⟨AllowsReads.trans r hrel hrel', hholds', hres'⟩

/-- A computation whose result does not matter. -/
theorem seq [AllowsReads r R] (h : Confined r R m Q) {n : Run β} (k : Confined r R n P) :
    Confined r R (m >>= fun _ => n) P := h.bind fun _ _ => k

theorem map [AllowsReads r R] {g : α → β} (h : Confined r R m Q) (hg : ∀ a, Q a → P (g a)) :
    Confined r R (g <$> m) P := by
  rw [map_eq_pure_bind]
  exact h.bind fun a ha => .pure (hg a ha)

theorem discard [AllowsReads r R] (h : Confined r R m Q) : Confined r R (Functor.discard m) fun _ => True :=
  h.map fun _ _ => True.intro

theorem tryCatch [AllowsReads r R] (h : Confined r R m Q) {handle : Fault → Run α}
    (k : ∀ e, Confined r R (handle e) Q) : Confined r R (MonadExcept.tryCatch m handle) Q := by
  intro w hw
  obtain ⟨hrel, hholds, hres⟩ := h w hw
  unfold Run.after Run.outcome at *
  rw [Run.run_tryCatch]
  rcases hm : m.run.run w with ⟨e | a, w'⟩
  · rw [hm] at hrel hholds
    obtain ⟨hrel', hholds', hres'⟩ := k e w' hholds
    exact ⟨AllowsReads.trans r hrel hrel', hholds', hres'⟩
  · rw [hm] at hrel hholds hres
    exact ⟨hrel, hholds, hres⟩

theorem ite {c : Prop} [Decidable c] {n : Run α} (h : c → Confined r R m Q) (k : ¬c → Confined r R n Q) :
    Confined r R (if c then m else n) Q := by
  split
  · exact h ‹_›
  · exact k ‹_›

/-- Nothing follows a fault. -/
theorem throw_bind [AllowsReads r R] {e : Fault} : Confined r R (MonadExcept.throw e >>= f) P :=
  (throw (Q := fun _ => False)).bind fun _ h => h.elim

theorem wrongType_bind [AllowsReads r R] : Confined r R (NestedSite.wrongType >>= f) P := throw_bind

/-- A guard that fails with a fault lets the rest of a computation follow. -/
theorem guard [AllowsReads r R] {c : Prop} [Decidable c] {e : Fault} {rest : PUnit → Run α}
    (k : ¬c → Confined r R (rest ()) Q) :
    Confined r R (if c then (do let u ← MonadExcept.throw e; rest u) else rest ()) Q :=
  .ite (fun _ => throw_bind) k

theorem refuse [AllowsReads r R] {c : Prop} [Decidable c] {rest : PUnit → Run α} (k : ¬c → Confined r R (rest ()) Q) :
    Confined r R (if c then (do let u ← NestedSite.wrongType; rest u) else rest ()) Q := guard k

section Lists

variable {γ : Type} {xs : List γ}

theorem mapM [AllowsReads r R] {g : γ → Run α} (h : ∀ x ∈ xs, Confined r R (g x) Q) :
    Confined r R (xs.mapM g) fun ys => ∀ y ∈ ys, Q y := by
  induction xs with
  | nil =>
    rw [List.mapM_nil]
    exact .pure fun y hy => absurd hy List.not_mem_nil
  | cons x xs ih =>
    rw [List.mapM_cons]
    refine (h x List.mem_cons_self).bind fun y hy => ?_
    refine (ih fun z hz => h z (List.mem_cons_of_mem _ hz)).bind fun ys hys => .pure ?_
    exact List.forall_mem_cons.2 ⟨hy, hys⟩

theorem foldlM [AllowsReads r R] {g : α → γ → Run α} {a : α} (ha : Q a)
    (h : ∀ b, Q b → ∀ x ∈ xs, Confined r R (g b x) Q) : Confined r R (xs.foldlM g a) Q := by
  induction xs generalizing a with
  | nil => exact .pure ha
  | cons x xs ih =>
    rw [List.foldlM_cons]
    exact (h a ha x List.mem_cons_self).bind fun b hb => ih hb fun c hc z hz => h c hc z (List.mem_cons_of_mem _ hz)

theorem forM [AllowsReads r R] {g : γ → Run PUnit} (h : ∀ x ∈ xs, Confined r R (g x) fun _ => True) :
    Confined r R (xs.forM g) fun _ => True := by
  induction xs with
  | nil => exact .pure True.intro
  | cons x xs ih => exact (h x List.mem_cons_self).seq (ih fun z hz => h z (List.mem_cons_of_mem _ hz))

/-- A loop over a list that is never left early. -/
theorem forIn [AllowsReads r R] {g : γ → PUnit → Run (ForInStep PUnit)}
    (h : ∀ x ∈ xs, Confined r R (g x ()) fun s => s = .yield ()) :
    Confined r R (ForIn.forIn xs () g) fun _ => True := by
  induction xs with
  | nil => exact .pure True.intro
  | cons x xs ih =>
    rw [List.forIn_cons]
    refine (h x List.mem_cons_self).bind fun s hs => ?_
    subst hs
    exact ih fun z hz => h z (List.mem_cons_of_mem _ hz)

end Lists

end Confined

/-! ## The store -/

namespace Run

variable {r : Region} {R : World → World → Prop}

/-- What is read off the store has what follows from the region. -/
theorem store_confined [AllowsReads r R] : Confined r R store r.Holds := fun w hw =>
  ⟨AllowsReads.refl r w, hw, fun _ hs => by cases hs; exact hw⟩

theorem read_confined [AllowsReads r R] {f : Store → Except Fault α} {Q : α → Prop}
    (h : ∀ s a, r.Holds s → f s = .ok a → Q a) : Confined r R (read f) Q := by
  refine store_confined.bind fun s hs => ?_
  split
  · exact .pure (h s _ hs ‹_›)
  · exact .throw

/-- A single step, which does not fail. -/
theorem step_confined {m : Run α} {a : World → α} {f : World → World} {Q : α → Prop}
    (hm : ∀ w, m.run.run w = (.ok (a w), f w))
    (h : ∀ w, r.Holds w.store → R w (f w) ∧ r.Holds (f w).store ∧ Q (a w)) : Confined r R m Q := by
  intro w hw
  obtain ⟨hrel, hholds, hres⟩ := h w hw
  unfold Run.after Run.outcome
  rw [hm w]
  exact ⟨hrel, hholds, fun b hb => by cases hb; exact hres⟩

end Run

end NestedSite
