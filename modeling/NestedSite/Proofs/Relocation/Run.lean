import NestedSite.Proofs.Relocation.Format
import NestedSite.Proofs.Store.Places

/-!
# Computations on stores that fit

Two computations go together under a relocation (`Moves ρ f m m'`) if, started in worlds whose stores fit, they leave
worlds whose stores fit again, whether they fail or not, and end alike: with the same fault, or with results of which
the second one is the first one moved by `f`. Besides, the second one spares the places that no place of the first store
is found at. The notes and the deeds of the worlds do not matter. The rules follow the way computations are put
together (`Moves.bind`, `Moves.mapM`, …); for each way to use a place there is one lemma (`Run.newList_moves`,
`Run.setDict_moves`, …).
-/

namespace NestedSite

variable {α β γ δ : Type} {ρ : Relocation}

/-- Places where no place is found are as they were. -/
structure Relocation.Spares (ρ : Relocation) (s t : Store) : Prop where
  lists : ∀ p, (∀ q, ρ.lists q ≠ p) → t.list p = s.list p
  dicts : ∀ p, (∀ q, ρ.dicts q ≠ p) → t.dict p = s.dict p
  sets : ∀ p, (∀ q, ρ.sets q ≠ p) → t.set p = s.set p
  cursors : ∀ p, (∀ q, ρ.cursors q ≠ p) → t.cursor p = s.cursor p
  legends : ∀ p, (∀ q, ρ.legends q ≠ p) → t.legend p = s.legend p
  metadata : ∀ p, (∀ q, ρ.metadata q ≠ p) → t.metadataAt p = s.metadataAt p

theorem Relocation.Spares.refl (s : Store) : ρ.Spares s s where
  lists _ _ := rfl
  dicts _ _ := rfl
  sets _ _ := rfl
  cursors _ _ := rfl
  legends _ _ := rfl
  metadata _ _ := rfl

theorem Relocation.Spares.trans {s t u : Store} (h : ρ.Spares s t) (k : ρ.Spares t u) : ρ.Spares s u where
  lists p hp := (k.lists p hp).trans (h.lists p hp)
  dicts p hp := (k.dicts p hp).trans (h.dicts p hp)
  sets p hp := (k.sets p hp).trans (h.sets p hp)
  cursors p hp := (k.cursors p hp).trans (h.cursors p hp)
  legends p hp := (k.legends p hp).trans (h.legends p hp)
  metadata p hp := (k.metadata p hp).trans (h.metadata p hp)

def Moves (ρ : Relocation) (f : α → β) (m : Run α) (m' : Run β) : Prop :=
  ∀ w w', ρ.Fits w.store w'.store →
    m'.outcome w' = (m.outcome w).map f ∧ ρ.Fits (m.after w).store (m'.after w').store ∧
      ρ.Spares w'.store (m'.after w').store

namespace Moves

variable {f : α → β} {g : γ → δ} {m : Run α} {m' : Run β}

theorem pure {a : α} {b : β} (h : b = f a) : Moves ρ f (Pure.pure a) (Pure.pure b) :=
  fun _ _ hw => ⟨congrArg Except.ok h, hw, .refl _⟩

theorem throw {e : Fault} : Moves ρ f (MonadExcept.throw e) (MonadExcept.throw e) :=
  fun _ _ hw => ⟨rfl, hw, .refl _⟩

theorem wrongType : Moves ρ f NestedSite.wrongType NestedSite.wrongType := throw

theorem bind (h : Moves ρ f m m') {k : α → Run γ} {k' : β → Run δ} (hk : ∀ a, Moves ρ g (k a) (k' (f a))) :
    Moves ρ g (m >>= k) (m' >>= k') := by
  intro w w' hw
  obtain ⟨houtcome, hfits, hspares⟩ := h w w' hw
  unfold Run.after Run.outcome at *
  rw [Run.run_bind, Run.run_bind]
  rcases hm : m.run.run w with ⟨e | a, v⟩
  · rcases hm' : m'.run.run w' with ⟨r, v'⟩
    rw [hm, hm'] at houtcome hfits
    rw [hm'] at hspares
    cases houtcome
    exact ⟨rfl, hfits, hspares⟩
  · rcases hm' : m'.run.run w' with ⟨r, v'⟩
    rw [hm, hm'] at houtcome hfits
    rw [hm'] at hspares
    cases houtcome
    obtain ⟨hend, hfits', hspares'⟩ := hk a v v' hfits
    exact ⟨hend, hfits', hspares.trans hspares'⟩

/-- A result that holds no places is handed on as it is. -/
theorem bindPlain {n n' : Run α} (h : Moves ρ id n n') {k : α → Run γ} {k' : α → Run δ}
    (hk : ∀ a, Moves ρ g (k a) (k' a)) : Moves ρ g (n >>= k) (n' >>= k') := h.bind hk

/-- What follows on a result that may be missing. -/
theorem bindOption {n : Run (Option α)} {n' : Run (Option β)} (h : Moves ρ (Option.map f) n n')
    {k : Option α → Run γ} {k' : Option β → Run δ} (hnone : Moves ρ g (k none) (k' none))
    (hsome : ∀ a, Moves ρ g (k (some a)) (k' (some (f a)))) : Moves ρ g (n >>= k) (n' >>= k') := by
  refine h.bind fun a => ?_
  cases a with
  | none => exact hnone
  | some a => exact hsome a

/-- A computation whose result does not matter. -/
theorem seq (h : Moves ρ f m m') {n : Run γ} {n' : Run δ} (hn : Moves ρ g n n') :
    Moves ρ g (m >>= fun _ => n) (m' >>= fun _ => n') := h.bind fun _ => hn

theorem map (h : Moves ρ f m m') {k : α → γ} {k' : β → δ} (hk : ∀ a, k' (f a) = g (k a)) :
    Moves ρ g (k <$> m) (k' <$> m') := by
  rw [map_eq_pure_bind, map_eq_pure_bind]
  exact h.bind fun a => .pure (hk a)

theorem discard (h : Moves ρ f m m') : Moves ρ id (Functor.discard m) (Functor.discard m') := h.map fun _ => rfl

theorem tryCatch (h : Moves ρ f m m') {handle : Fault → Run α} {handle' : Fault → Run β}
    (k : ∀ e, Moves ρ f (handle e) (handle' e)) :
    Moves ρ f (MonadExcept.tryCatch m handle) (MonadExcept.tryCatch m' handle') := by
  intro w w' hw
  obtain ⟨houtcome, hfits, hspares⟩ := h w w' hw
  unfold Run.after Run.outcome at *
  rw [Run.run_tryCatch, Run.run_tryCatch]
  rcases hm : m.run.run w with ⟨e | a, v⟩
  · rcases hm' : m'.run.run w' with ⟨r, v'⟩
    rw [hm, hm'] at houtcome hfits
    rw [hm'] at hspares
    cases houtcome
    obtain ⟨hend, hfits', hspares'⟩ := k e v v' hfits
    exact ⟨hend, hfits', hspares.trans hspares'⟩
  · rcases hm' : m'.run.run w' with ⟨r, v'⟩
    rw [hm, hm'] at houtcome hfits
    rw [hm'] at hspares
    cases houtcome
    exact ⟨rfl, hfits, hspares⟩

theorem ite {c : Prop} [Decidable c] {n : Run α} {n' : Run β} (h : c → Moves ρ f m m') (k : ¬c → Moves ρ f n n') :
    Moves ρ f (if c then m else n) (if c then m' else n') := by
  split
  · exact h ‹_›
  · exact k ‹_›

/-- Nothing follows a fault. -/
theorem throw_bind {e : Fault} {k : α → Run γ} {k' : β → Run δ} :
    Moves ρ g (MonadExcept.throw e >>= k) (MonadExcept.throw e >>= k') :=
  fun _ _ hw => ⟨rfl, hw, .refl _⟩

theorem wrongType_bind {k : α → Run γ} {k' : β → Run δ} :
    Moves ρ g (NestedSite.wrongType >>= k) (NestedSite.wrongType >>= k') := throw_bind

/-- A guard that fails with a fault lets the rest of the computations follow. -/
theorem guard {c : Prop} [Decidable c] {e : Fault} {rest : PUnit → Run α} {rest' : PUnit → Run β}
    (k : ¬c → Moves ρ f (rest ()) (rest' ())) :
    Moves ρ f (if c then (do let u ← MonadExcept.throw e; rest u) else rest ())
      (if c then (do let u ← MonadExcept.throw e; rest' u) else rest' ()) :=
  .ite (fun _ => throw_bind) k

theorem refuse {c : Prop} [Decidable c] {rest : PUnit → Run α} {rest' : PUnit → Run β}
    (k : ¬c → Moves ρ f (rest ()) (rest' ())) :
    Moves ρ f (if c then (do let u ← NestedSite.wrongType; rest u) else rest ())
      (if c then (do let u ← NestedSite.wrongType; rest' u) else rest' ()) := guard k

section Lists

variable {xs : List γ} {h : γ → δ}

theorem mapM {k : γ → Run α} {k' : δ → Run β} (hk : ∀ x, Moves ρ f (k x) (k' (h x))) :
    Moves ρ (List.map f) (xs.mapM k) ((xs.map h).mapM k') := by
  induction xs with
  | nil => exact .pure rfl
  | cons x xs ih =>
    rw [List.map_cons, List.mapM_cons, List.mapM_cons]
    exact (hk x).bind fun a => ih.bind fun as => .pure rfl

/-- Results that hold no places. -/
theorem mapM_plain {k : γ → Run α} {k' : δ → Run α} (hk : ∀ x, Moves ρ id (k x) (k' (h x))) :
    Moves ρ id (xs.mapM k) ((xs.map h).mapM k') := by
  have taken : Moves ρ (List.map id) (xs.mapM k) ((xs.map h).mapM k') := mapM hk
  rwa [List.map_id_fun] at taken

theorem foldlM {k : α → γ → Run α} {k' : β → δ → Run β} (hk : ∀ a x, Moves ρ f (k a x) (k' (f a) (h x))) (a : α) :
    Moves ρ f (xs.foldlM k a) ((xs.map h).foldlM k' (f a)) := by
  induction xs generalizing a with
  | nil => exact .pure rfl
  | cons x xs ih =>
    rw [List.map_cons, List.foldlM_cons, List.foldlM_cons]
    exact (hk a x).bind fun b => ih b

theorem forIn {k : γ → PUnit → Run (ForInStep PUnit)} {k' : δ → PUnit → Run (ForInStep PUnit)}
    (hk : ∀ x, Moves ρ id (k x ()) (k' (h x) ())) :
    Moves ρ id (ForIn.forIn xs () k) (ForIn.forIn (xs.map h) () k') := by
  induction xs with
  | nil => exact .pure rfl
  | cons x xs ih =>
    rw [List.map_cons, List.forIn_cons, List.forIn_cons]
    refine (hk x).bindPlain fun s => ?_
    cases s with
    | done => exact .pure rfl
    | yield => exact ih

end Lists

/-- What is done for items that hold no places. -/
theorem forM {k k' : γ → Run PUnit} (hk : ∀ x, Moves ρ id (k x) (k' x)) : ∀ xs : List γ,
    Moves ρ id (xs.forM k) (xs.forM k')
  | [] => .pure rfl
  | x :: xs => (hk x).seq (forM hk xs)

end Moves

/-! ## Computations with a state -/

/-- Two computations with a state of their own go together if they do so for a state and for it moved by `move`. -/
def MovesWith {σ : Type} (ρ : Relocation) (move : σ → σ) (f : α → β) (m : StateT σ Run α)
    (m' : StateT σ Run β) : Prop :=
  ∀ s, Moves ρ (Prod.map f move) (m.run s) (m'.run (move s))

namespace MovesWith

variable {σ : Type} {move : σ → σ} {f : α → β} {g : γ → δ} {m : StateT σ Run α} {m' : StateT σ Run β}

theorem pure {a : α} {b : β} (h : b = f a) : MovesWith ρ move f (Pure.pure a) (Pure.pure b) :=
  fun s => .pure (congrArg (·, move s) h)

theorem bind (h : MovesWith ρ move f m m') {k : α → StateT σ Run γ} {k' : β → StateT σ Run δ}
    (hk : ∀ a, MovesWith ρ move g (k a) (k' (f a))) : MovesWith ρ move g (m >>= k) (m' >>= k') := by
  intro s
  rw [StateT.run_bind, StateT.run_bind]
  exact (h s).bind fun x => hk x.1 x.2

theorem bindPlain {n n' : StateT σ Run α} (h : MovesWith ρ move id n n') {k : α → StateT σ Run γ}
    {k' : α → StateT σ Run δ} (hk : ∀ a, MovesWith ρ move g (k a) (k' a)) :
    MovesWith ρ move g (n >>= k) (n' >>= k') := h.bind hk

theorem seq (h : MovesWith ρ move f m m') {n : StateT σ Run γ} {n' : StateT σ Run δ} (hn : MovesWith ρ move g n n') :
    MovesWith ρ move g (m >>= fun _ => n) (m' >>= fun _ => n') := h.bind fun _ => hn

theorem discard (h : MovesWith ρ move f m m') : MovesWith ρ move id (Functor.discard m) (Functor.discard m') := by
  have done : MovesWith ρ move id (m >>= fun _ => Pure.pure ()) (m' >>= fun _ => Pure.pure ()) := h.seq (.pure rfl)
  exact done

/-- What is computed from the state. -/
theorem get_bind {k k' : σ → StateT σ Run _} (hk : ∀ s, MovesWith ρ move f (k s) (k' (move s))) :
    MovesWith ρ move f (MonadState.get >>= k) (MonadState.get >>= k') := fun s => hk s s

theorem modify {u u' : σ → σ} (h : ∀ s, u' (move s) = move (u s)) :
    MovesWith ρ move id (modify u) (modify u') := fun s => .pure (congrArg ((PUnit.unit, ·)) (h s))

theorem lift {n : Run α} {n' : Run β} (h : Moves ρ f n n') : MovesWith ρ move f (monadLift n) (monadLift n') :=
  fun s => by
    rw [StateT.run_monadLift, StateT.run_monadLift]
    exact h.bind fun a => .pure rfl

theorem throw {e : Fault} : MovesWith ρ move f (MonadExcept.throw e) (MonadExcept.throw e) := by
  intro s
  have h : Moves ρ (Prod.map f move) (MonadExcept.throw e >>= fun a => Pure.pure (a, s))
      (MonadExcept.throw e >>= fun b => Pure.pure (b, move s)) := Moves.throw_bind
  exact h

theorem ite {c : Prop} [Decidable c] {n : StateT σ Run α} {n' : StateT σ Run β} (h : MovesWith ρ move f m m')
    (k : MovesWith ρ move f n n') : MovesWith ρ move f (if c then m else n) (if c then m' else n') := by
  split
  · exact h
  · exact k

theorem forM {k k' : γ → StateT σ Run PUnit} (hk : ∀ x, MovesWith ρ move id (k x) (k' x)) :
    ∀ xs : List γ, MovesWith ρ move id (xs.forM k) (xs.forM k')
  | [] => .pure rfl
  | x :: xs => (hk x).bindPlain fun _ => forM hk xs

theorem mapM {k : γ → StateT σ Run α} {k' : γ → StateT σ Run β} (hk : ∀ x, MovesWith ρ move f (k x) (k' x)) :
    ∀ xs : List γ, MovesWith ρ move (List.map f) (xs.mapM k) (xs.mapM k')
  | [] => .pure rfl
  | x :: xs => by
    rw [List.mapM_cons, List.mapM_cons]
    exact (hk x).bind fun a => (mapM hk xs).bind fun as => .pure rfl

theorem mapM_plain {k k' : γ → StateT σ Run α} (hk : ∀ x, MovesWith ρ move id (k x) (k' x)) (xs : List γ) :
    MovesWith ρ move id (xs.mapM k) (xs.mapM k') := by
  have h := mapM hk xs
  rwa [List.map_id_fun] at h

theorem foldlM {k : α → γ → StateT σ Run α} {k' : β → γ → StateT σ Run β}
    (hk : ∀ a x, MovesWith ρ move f (k a x) (k' (f a) x)) :
    ∀ (xs : List γ) (a : α), MovesWith ρ move f (xs.foldlM k a) (xs.foldlM k' (f a))
  | [], _ => .pure rfl
  | x :: xs, a => (hk a x).bind (foldlM hk xs)

end MovesWith

/-! ## Stores that fit after a change -/

/-- Where free places are found at free places in order, a place is in use where it is found if and only if it is in
use. -/
theorem lt_iff_of_free {f : Nat → Nat} {a b p : Nat} (inj : ∀ {p q}, f p = f q ↔ p = q)
    (free : ∀ n, f (a + n) = b + n) : f p < b ↔ p < a := by
  constructor
  · refine fun hp => Nat.lt_of_not_le fun hle => ?_
    have hfree := free (p - a)
    rw [Nat.add_sub_cancel' hle] at hfree
    omega
  · refine fun hp => Nat.lt_of_not_le fun hle => ?_
    have hfree := free (f p - b)
    rw [Nat.add_sub_cancel' hle, inj] at hfree
    omega

/-- The first free place is found at the first free place. -/
theorem eq_size_iff_of_free {f : Nat → Nat} {a b p : Nat} (inj : ∀ {p q}, f p = f q ↔ p = q)
    (free : ∀ n, f (a + n) = b + n) : f p = b ↔ p = a := by
  have := free 0
  rw [Nat.add_zero, Nat.add_zero] at this
  rw [← this, inj]

/-- A place where none is found is in use. -/
theorem lt_of_free {f : Nat → Nat} {a b p : Nat} (free : ∀ n, f (a + n) = b + n) (hp : ∀ q, f q ≠ p) : p < b := by
  refine Nat.lt_of_not_le fun hle => ?_
  obtain ⟨n, rfl⟩ := Nat.exists_eq_add_of_le hle
  exact hp (a + n) (free n)

theorem free_succ {f : Nat → Nat} {a b : Nat} (free : ∀ n, f (a + n) = b + n) (n : Nat) :
    f (a + 1 + n) = b + 1 + n := by
  rw [Nat.add_assoc, free, Nat.add_assoc]

namespace Relocation.Fits

variable {s s' : Store} (h : ρ.Fits s s')

include h

/-- Lists may be put in the place of the lists of both stores. -/
theorem withLists {lists lists' : Array (List Value)}
    (hlist : ∀ p, ({ s' with lists := lists' } : Store).list (ρ.lists p) =
      (({ s with lists := lists } : Store).list p).map (Value.moved ρ))
    (hfree : ∀ n, ρ.lists (lists.size + n) = lists'.size + n) :
    ρ.Fits { s with lists := lists } { s' with lists := lists' } where
  list := hlist
  dict := h.dict
  set := h.set
  cursor := h.cursor
  legend := h.legend
  metadata p := by
    have hlt := lt_iff_of_free (p := p) ρ.metadata_inj h.freeMetadata
    by_cases hp : p < s.metadata.size
    · rw [Store.metadataAt_lists _ _ (hlt.2 hp), Store.metadataAt_lists _ _ hp]
      exact h.metadata p
    · -- metadata that is not there has the first free place for its legends
      have hnone : s.metadata[p]? = none := Array.getElem?_eq_none (Nat.le_of_not_lt hp)
      have hnone' : s'.metadata[ρ.metadata p]? = none :=
        Array.getElem?_eq_none (Nat.le_of_not_lt fun hlt' => hp (hlt.1 hlt'))
      simp only [Store.metadataAt, hnone, hnone', Option.getD_none, Metadata.moved]
      exact congrArg (fun files => ({ files } : Metadata)) (hfree 0).symm
  freeLists := hfree
  freeDicts := h.freeDicts
  freeSets := h.freeSets
  freeCursors := h.freeCursors
  freeLegends := h.freeLegends
  freeMetadata := h.freeMetadata

theorem pushList {items items' : List Value} (hitems : items' = items.map (Value.moved ρ)) :
    ρ.Fits { s with lists := s.lists.push items } { s' with lists := s'.lists.push items' } := by
  refine h.withLists (fun p => ?_) fun n => ?_
  · rw [Store.list_push, Store.list_push, apply_ite (List.map (Value.moved ρ)), ← hitems, ← h.list]
    exact ite_cond_congr (propext (eq_size_iff_of_free ρ.lists_inj h.freeLists))
  · rw [Array.size_push, Array.size_push]
    exact free_succ h.freeLists n

theorem setList {items items' : List Value} (hitems : items' = items.map (Value.moved ρ)) (place : Nat) :
    ρ.Fits { s with lists := s.lists.setIfInBounds place items }
      { s' with lists := s'.lists.setIfInBounds (ρ.lists place) items' } := by
  refine h.withLists (fun p => ?_) fun n => ?_
  · rw [Store.list_setIfInBounds, Store.list_setIfInBounds, apply_ite (List.map (Value.moved ρ)), ← hitems, ← h.list]
    exact ite_cond_congr (propext (and_congr ρ.lists_inj (lt_iff_of_free ρ.lists_inj h.freeLists)))
  · rw [Array.size_setIfInBounds, Array.size_setIfInBounds]
    exact h.freeLists n

theorem pushDict {entries entries' : Entries} (hentries : entries' = entries.moved ρ) :
    ρ.Fits { s with dicts := s.dicts.push entries } { s' with dicts := s'.dicts.push entries' } :=
  { h with
    dict := fun p => by
      rw [Store.dict_push, Store.dict_push, apply_ite (Entries.moved ρ), ← hentries, ← h.dict]
      exact ite_cond_congr (propext (eq_size_iff_of_free ρ.dicts_inj h.freeDicts))
    freeDicts := fun n => by
      rw [Array.size_push, Array.size_push]
      exact free_succ h.freeDicts n }

theorem setDict {entries entries' : Entries} (hentries : entries' = entries.moved ρ) (place : Nat) :
    ρ.Fits { s with dicts := s.dicts.setIfInBounds place entries }
      { s' with dicts := s'.dicts.setIfInBounds (ρ.dicts place) entries' } :=
  { h with
    dict := fun p => by
      rw [Store.dict_setIfInBounds, Store.dict_setIfInBounds, apply_ite (Entries.moved ρ), ← hentries, ← h.dict]
      exact ite_cond_congr (propext (and_congr ρ.dicts_inj (lt_iff_of_free ρ.dicts_inj h.freeDicts)))
    freeDicts := fun n => by
      rw [Array.size_setIfInBounds, Array.size_setIfInBounds]
      exact h.freeDicts n }

theorem pushSet {items items' : List Value} (hitems : items' = items.map (Value.moved ρ)) :
    ρ.Fits { s with sets := s.sets.push items } { s' with sets := s'.sets.push items' } :=
  { h with
    set := fun p => by
      rw [Store.set_push, Store.set_push, apply_ite (List.map (Value.moved ρ)), ← hitems, ← h.set]
      exact ite_cond_congr (propext (eq_size_iff_of_free ρ.sets_inj h.freeSets))
    freeSets := fun n => by
      rw [Array.size_push, Array.size_push]
      exact free_succ h.freeSets n }

theorem setSet {items items' : List Value} (hitems : items' = items.map (Value.moved ρ)) (place : Nat) :
    ρ.Fits { s with sets := s.sets.setIfInBounds place items }
      { s' with sets := s'.sets.setIfInBounds (ρ.sets place) items' } :=
  { h with
    set := fun p => by
      rw [Store.set_setIfInBounds, Store.set_setIfInBounds, apply_ite (List.map (Value.moved ρ)), ← hitems, ← h.set]
      exact ite_cond_congr (propext (and_congr ρ.sets_inj (lt_iff_of_free ρ.sets_inj h.freeSets)))
    freeSets := fun n => by
      rw [Array.size_setIfInBounds, Array.size_setIfInBounds]
      exact h.freeSets n }

theorem pushCursor {c c' : Cursor} (hc : c' = c.moved ρ) :
    ρ.Fits { s with cursors := s.cursors.push c } { s' with cursors := s'.cursors.push c' } :=
  { h with
    cursor := fun p => by
      rw [Store.cursor_push, Store.cursor_push, apply_ite (Cursor.moved ρ), ← hc, ← h.cursor]
      exact ite_cond_congr (propext (eq_size_iff_of_free ρ.cursors_inj h.freeCursors))
    freeCursors := fun n => by
      rw [Array.size_push, Array.size_push]
      exact free_succ h.freeCursors n }

theorem setCursor {c c' : Cursor} (hc : c' = c.moved ρ) (place : Nat) :
    ρ.Fits { s with cursors := s.cursors.setIfInBounds place c }
      { s' with cursors := s'.cursors.setIfInBounds (ρ.cursors place) c' } :=
  { h with
    cursor := fun p => by
      rw [Store.cursor_setIfInBounds, Store.cursor_setIfInBounds, apply_ite (Cursor.moved ρ), ← hc, ← h.cursor]
      exact ite_cond_congr (propext (and_congr ρ.cursors_inj (lt_iff_of_free ρ.cursors_inj h.freeCursors)))
    freeCursors := fun n => by
      rw [Array.size_setIfInBounds, Array.size_setIfInBounds]
      exact h.freeCursors n }

theorem pushLegend {l l' : Legend} (hl : l' = l.moved ρ) :
    ρ.Fits { s with legends := s.legends.push l } { s' with legends := s'.legends.push l' } :=
  { h with
    legend := fun p => by
      rw [Store.legend_push, Store.legend_push, apply_ite (Legend.moved ρ), ← hl, ← h.legend]
      exact ite_cond_congr (propext (eq_size_iff_of_free ρ.legends_inj h.freeLegends))
    freeLegends := fun n => by
      rw [Array.size_push, Array.size_push]
      exact free_succ h.freeLegends n }

theorem pushMetadata {m m' : Metadata} (hm : m' = m.moved ρ) :
    ρ.Fits { s with metadata := s.metadata.push m } { s' with metadata := s'.metadata.push m' } :=
  { h with
    metadata := fun p => by
      rw [Store.metadataAt_push, Store.metadataAt_push, apply_ite (Metadata.moved ρ), ← hm, ← h.metadata]
      exact ite_cond_congr (propext (eq_size_iff_of_free ρ.metadata_inj h.freeMetadata))
    freeMetadata := fun n => by
      rw [Array.size_push, Array.size_push]
      exact free_succ h.freeMetadata n }

/-- Metadata at places that are spared does not depend on the lists. -/
theorem sparesLists {lists : Array (List Value)}
    (hlist : ∀ p, (∀ q, ρ.lists q ≠ p) → ({ s' with lists } : Store).list p = s'.list p) :
    ρ.Spares s' { s' with lists } :=
  { Spares.refl s' with
    lists := hlist
    metadata := fun _ hp => Store.metadataAt_lists _ _ (lt_of_free h.freeMetadata hp) }

/-! New places are found, as they are free before. -/

theorem spares_pushList (items : List Value) : ρ.Spares s' { s' with lists := s'.lists.push items } :=
  h.sparesLists fun p hp => by
    rw [Store.list_push, if_neg (Nat.ne_of_lt (lt_of_free h.freeLists hp))]

theorem spares_pushDict (entries : Entries) : ρ.Spares s' { s' with dicts := s'.dicts.push entries } :=
  { Spares.refl s' with
    dicts := fun p hp => by rw [Store.dict_push, if_neg (Nat.ne_of_lt (lt_of_free h.freeDicts hp))] }

theorem spares_pushSet (items : List Value) : ρ.Spares s' { s' with sets := s'.sets.push items } :=
  { Spares.refl s' with
    sets := fun p hp => by rw [Store.set_push, if_neg (Nat.ne_of_lt (lt_of_free h.freeSets hp))] }

theorem spares_pushCursor (c : Cursor) : ρ.Spares s' { s' with cursors := s'.cursors.push c } :=
  { Spares.refl s' with
    cursors := fun p hp => by rw [Store.cursor_push, if_neg (Nat.ne_of_lt (lt_of_free h.freeCursors hp))] }

theorem spares_pushLegend (l : Legend) : ρ.Spares s' { s' with legends := s'.legends.push l } :=
  { Spares.refl s' with
    legends := fun p hp => by rw [Store.legend_push, if_neg (Nat.ne_of_lt (lt_of_free h.freeLegends hp))] }

theorem spares_pushMetadata (m : Metadata) : ρ.Spares s' { s' with metadata := s'.metadata.push m } :=
  { Spares.refl s' with
    metadata := fun p hp => by rw [Store.metadataAt_push, if_neg (Nat.ne_of_lt (lt_of_free h.freeMetadata hp))] }

theorem spares_setList (place : Nat) (items : List Value) :
    ρ.Spares s' { s' with lists := s'.lists.setIfInBounds (ρ.lists place) items } :=
  h.sparesLists fun p hp => by rw [Store.list_setIfInBounds, if_neg fun hplace => hp place hplace.1.symm]

end Relocation.Fits

/-! What is at a place that is found may be replaced. -/

theorem Relocation.Spares.setDict (s : Store) (place : Nat) (entries : Entries) :
    ρ.Spares s { s with dicts := s.dicts.setIfInBounds (ρ.dicts place) entries } :=
  { refl s with
    dicts := fun p hp => by rw [Store.dict_setIfInBounds, if_neg fun hplace => hp place hplace.1.symm] }

theorem Relocation.Spares.setSet (s : Store) (place : Nat) (items : List Value) :
    ρ.Spares s { s with sets := s.sets.setIfInBounds (ρ.sets place) items } :=
  { refl s with
    sets := fun p hp => by rw [Store.set_setIfInBounds, if_neg fun hplace => hp place hplace.1.symm] }

theorem Relocation.Spares.setCursor (s : Store) (place : Nat) (c : Cursor) :
    ρ.Spares s { s with cursors := s.cursors.setIfInBounds (ρ.cursors place) c } :=
  { refl s with
    cursors := fun p hp => by rw [Store.cursor_setIfInBounds, if_neg fun hplace => hp place hplace.1.symm] }

/-! ## The places of a world -/

namespace Run

/-- A single step, which does not fail. -/
theorem step_moves {f : α → β} {m : Run α} {m' : Run β} {a : World → α} {b : World → β} {next next' : World → World}
    (hm : ∀ w, m.run.run w = (.ok (a w), next w)) (hm' : ∀ w, m'.run.run w = (.ok (b w), next' w))
    (h : ∀ w w', ρ.Fits w.store w'.store →
      b w' = f (a w) ∧ ρ.Fits (next w).store (next' w').store ∧ ρ.Spares w'.store (next' w').store) :
    Moves ρ f m m' := by
  intro w w' hw
  obtain ⟨hres, hfits, hspares⟩ := h w w' hw
  unfold Run.after Run.outcome
  rw [hm, hm']
  exact ⟨congrArg Except.ok hres, hfits, hspares⟩

/-- What is computed from the store may use that the stores fit. -/
theorem store_bind_moves {f : α → β} {k k' : Store → Run _}
    (h : ∀ s s', ρ.Fits s s' → Moves ρ f (k s) (k' s')) : Moves ρ f (store >>= k) (store >>= k') := by
  intro w w' hw
  have := h w.store w'.store hw w w' hw
  unfold Run.after Run.outcome at *
  rw [Run.run_bind, Run.run_bind]
  exact this

theorem read_moves {f : α → β} {k : Store → Except Fault α} {k' : Store → Except Fault β}
    (h : ∀ s s', ρ.Fits s s' → k' s' = (k s).map f) : Moves ρ f (read k) (read k') := by
  refine store_bind_moves fun s s' hs => ?_
  rw [h s s' hs]
  cases k s with
  | error e => exact .throw
  | ok a => exact .pure rfl

/-- What is read off the store and holds no places. -/
theorem read_plain_moves {k k' : Store → Except Fault α} (h : ∀ s s', ρ.Fits s s' → k' s' = k s) :
    Moves ρ id (read k) (read k') := by
  refine read_moves fun s s' hs => ?_
  rw [h s s' hs]
  cases k s <;> rfl

theorem note_moves (n n' : Note) : Moves ρ id (note n) (note n') :=
  step_moves (fun _ => rfl) (fun _ => rfl) fun _ _ hw => ⟨rfl, hw, .refl _⟩

theorem record_moves (d d' : Deed) : Moves ρ id (record d) (record d') :=
  step_moves (fun _ => rfl) (fun _ => rfl) fun _ _ hw => ⟨rfl, hw, .refl _⟩

theorem lack_moves {α β : Type} {f : α → β} (gap : Template.Gap) : Moves ρ f (lack gap) (lack gap) :=
  (record_moves _ _).seq .throw

theorem needRule_moves (there : Bool) (gap : Template.Gap) : Moves ρ id (needRule there gap) (needRule there gap) :=
  .ite (fun _ => .pure rfl) fun _ => lack_moves gap

theorem newList_moves {items items' : List Value} (h : items' = items.map (Value.moved ρ)) :
    Moves ρ (Value.moved ρ) (newList items) (newList items') :=
  step_moves (fun _ => rfl) (fun _ => rfl) fun _ _ hw =>
    ⟨congrArg Value.list (hw.freeLists 0).symm, hw.pushList h, hw.spares_pushList _⟩

theorem newDict_moves {entries entries' : Entries} (h : entries' = entries.moved ρ) :
    Moves ρ (Value.moved ρ) (newDict entries) (newDict entries') :=
  step_moves (fun _ => rfl) (fun _ => rfl) fun _ _ hw =>
    ⟨congrArg Value.dict (hw.freeDicts 0).symm, hw.pushDict h, hw.spares_pushDict _⟩

theorem newSet_moves {items items' : List Value} (h : items' = items.map (Value.moved ρ)) :
    Moves ρ (Value.moved ρ) (newSet items) (newSet items') :=
  step_moves (fun _ => rfl) (fun _ => rfl) fun _ _ hw =>
    ⟨congrArg Value.set (hw.freeSets 0).symm, hw.pushSet h, hw.spares_pushSet _⟩

theorem newCursor_moves {c c' : Cursor} (h : c' = c.moved ρ) : Moves ρ ρ.cursors (newCursor c) (newCursor c') :=
  step_moves (fun _ => rfl) (fun _ => rfl) fun _ _ hw =>
    ⟨(hw.freeCursors 0).symm, hw.pushCursor h, hw.spares_pushCursor _⟩

theorem newLegend_moves {l l' : Legend} (h : l' = l.moved ρ) :
    Moves ρ (Value.moved ρ) (newLegend l) (newLegend l') :=
  step_moves (fun _ => rfl) (fun _ => rfl) fun _ _ hw =>
    ⟨congrArg Value.legend (hw.freeLegends 0).symm, hw.pushLegend h, hw.spares_pushLegend _⟩

theorem newMetadata_moves {m m' : Metadata} (h : m' = m.moved ρ) :
    Moves ρ (Value.moved ρ) (newMetadata m) (newMetadata m') :=
  step_moves (fun _ => rfl) (fun _ => rfl) fun _ _ hw =>
    ⟨congrArg Value.metadata (hw.freeMetadata 0).symm, hw.pushMetadata h, hw.spares_pushMetadata _⟩

theorem list_moves (p : Nat) : Moves ρ (List.map (Value.moved ρ)) (list p) (list (ρ.lists p)) :=
  store_bind_moves fun _ _ hs => .pure (hs.list p)

theorem dict_moves (p : Nat) : Moves ρ (Entries.moved ρ) (dict p) (dict (ρ.dicts p)) :=
  store_bind_moves fun _ _ hs => .pure (hs.dict p)

theorem set_moves (p : Nat) : Moves ρ (List.map (Value.moved ρ)) (set p) (set (ρ.sets p)) :=
  store_bind_moves fun _ _ hs => .pure (hs.set p)

theorem setList_moves {items items' : List Value} (h : items' = items.map (Value.moved ρ)) (place : Nat) :
    Moves ρ id (setList place items) (setList (ρ.lists place) items') :=
  step_moves (fun _ => rfl) (fun _ => rfl) fun _ _ hw => ⟨rfl, hw.setList h place, hw.spares_setList place _⟩

theorem setDict_moves {entries entries' : Entries} (h : entries' = entries.moved ρ) (place : Nat) :
    Moves ρ id (setDict place entries) (setDict (ρ.dicts place) entries') :=
  step_moves (fun _ => rfl) (fun _ => rfl) fun _ _ hw => ⟨rfl, hw.setDict h place, .setDict _ place _⟩

theorem setSet_moves {items items' : List Value} (h : items' = items.map (Value.moved ρ)) (place : Nat) :
    Moves ρ id (setSet place items) (setSet (ρ.sets place) items') :=
  step_moves (fun _ => rfl) (fun _ => rfl) fun _ _ hw => ⟨rfl, hw.setSet h place, .setSet _ place _⟩

theorem setCursor_moves {c c' : Cursor} (h : c' = c.moved ρ) (place : Nat) :
    Moves ρ id (setCursor place c) (setCursor (ρ.cursors place) c') :=
  step_moves (fun _ => rfl) (fun _ => rfl) fun _ _ hw => ⟨rfl, hw.setCursor h place, .setCursor _ place _⟩

end Run

end NestedSite
