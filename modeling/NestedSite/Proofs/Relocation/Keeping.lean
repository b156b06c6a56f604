import NestedSite.Proofs.Relocation.Copy
import NestedSite.Proofs.Relocation.Growth
import NestedSite.Proofs.Store.Ensures

/-!
# Computations that keep what there is

A computation keeps what there is if every place in use holds afterwards what it held, whether the computation fails or
not (`Run.Keeps`). Copies are made so (`Run.dumpedTo_keeps`), and the fields of a legend are (`Run.legendFields_keeps`).
A mapping that came about later may be written as well (`Store.Keeps.setDict`). What is reached from given values is
kept with them (`Store.Keeps.unaltered`). As what is copied stays as it is, it can be told beforehand whether the copy
succeeds (`Run.dumpedTo_decides`): it does if nothing that is copied lies inside itself (`Store.copyable`).
-/

namespace NestedSite

variable {α β : Type} {s t : Store}

/-! ## Stores -/

namespace Store.Keeps

theorem dicts_le (h : s.Keeps t) : s.dicts.size ≤ t.dicts.size :=
  Nat.le_of_not_lt fun hlt => Nat.lt_irrefl _ (h.dicts t.dicts.size hlt).1

/-- More mappings may come, and those that came later may hold something else. -/
theorem withDicts (h : s.Keeps t) {dicts : Array Entries} (hle : t.dicts.size ≤ dicts.size)
    (hold : ∀ p < s.dicts.size, ({ t with dicts } : Store).dict p = t.dict p) : s.Keeps { t with dicts } where
  lists := h.lists
  dicts p hp := ⟨Nat.lt_of_lt_of_le (h.dicts p hp).1 hle, (hold p hp).trans (h.dicts p hp).2⟩
  sets := h.sets
  cursors := h.cursors
  legends := h.legends
  metadata := h.metadata

/-- A mapping that came about later is written. -/
theorem setDict (h : s.Keeps t) {place : Nat} (hlater : s.dicts.size ≤ place) (es : Entries) :
    s.Keeps { t with dicts := t.dicts.setIfInBounds place es } := by
  refine h.withDicts (Nat.le_of_eq Array.size_setIfInBounds.symm) fun p hp => ?_
  rw [t.dict_setIfInBounds, if_neg]
  rintro ⟨rfl, -⟩
  exact Nat.not_lt_of_le hlater hp

theorem pushDict (s : Store) (es : Entries) : s.Keeps { s with dicts := s.dicts.push es } := by
  refine (refl s).withDicts (by simp) fun p hp => ?_
  rw [s.dict_push, if_neg (Nat.ne_of_lt hp)]

theorem pushList (s : Store) (vs : List Value) : s.Keeps { s with lists := s.lists.push vs } where
  __ := refl s
  lists p hp :=
    ⟨Nat.lt_of_lt_of_le hp (by simp), (s.list_push vs p).trans (if_neg (Nat.ne_of_lt hp))⟩
  metadata p hp := ⟨hp, s.metadataAt_lists _ hp⟩

theorem pushSet (s : Store) (vs : List Value) : s.Keeps { s with sets := s.sets.push vs } where
  __ := refl s
  sets p hp :=
    ⟨Nat.lt_of_lt_of_le hp (by simp), (s.set_push vs p).trans (if_neg (Nat.ne_of_lt hp))⟩

theorem pushLegend (s : Store) (l : Legend) : s.Keeps { s with legends := s.legends.push l } where
  __ := refl s
  legends p hp :=
    ⟨Nat.lt_of_lt_of_le hp (by simp), (s.legend_push l p).trans (if_neg (Nat.ne_of_lt hp))⟩

theorem pushMetadata (s : Store) (m : Metadata) : s.Keeps { s with metadata := s.metadata.push m } where
  __ := refl s
  metadata p hp :=
    ⟨Nat.lt_of_lt_of_le hp (by simp), (s.metadataAt_push m p).trans (if_neg (Nat.ne_of_lt hp))⟩

/-- What is reached from values, all of which is there, is as it was. -/
theorem unaltered (h : s.Keeps t) {roots : List Value} (hthere : s.Unaltered roots s) : s.Unaltered roots t where
  lists p hp := ⟨(hthere.lists p hp).1, (h.lists p (hthere.lists p hp).1).1,
    (h.lists p (hthere.lists p hp).1).2.trans (Value.map_moved_refl _).symm⟩
  dicts p hp := ⟨(hthere.dicts p hp).1, (h.dicts p (hthere.dicts p hp).1).1,
    (h.dicts p (hthere.dicts p hp).1).2.trans (Entries.moved_refl _).symm⟩
  sets p hp := ⟨(hthere.sets p hp).1, (h.sets p (hthere.sets p hp).1).1,
    (h.sets p (hthere.sets p hp).1).2.trans (Value.map_moved_refl _).symm⟩
  cursors p hp := ⟨(hthere.cursors p hp).1, (h.cursors p (hthere.cursors p hp).1).1,
    (h.cursors p (hthere.cursors p hp).1).2.trans (Cursor.moved_refl _).symm⟩
  legends p hp := ⟨(hthere.legends p hp).1, (h.legends p (hthere.legends p hp).1).1,
    (h.legends p (hthere.legends p hp).1).2.trans (Legend.moved_refl _).symm⟩
  metadata p hp := ⟨(hthere.metadata p hp).1, (h.metadata p (hthere.metadata p hp).1).1,
    (h.metadata p (hthere.metadata p hp).1).2.trans (Metadata.moved_refl _).symm⟩

end Store.Keeps

/-- Every place in use is still in use, and holds what it held, but for the mapping at one place. -/
structure Store.KeepsBut (s : Store) (place : Nat) (t : Store) : Prop where
  lists : Found id id s.lists.size t.lists.size s.list t.list
  dicts_le : s.dicts.size ≤ t.dicts.size
  dicts : ∀ p < s.dicts.size, p ≠ place → t.dict p = s.dict p
  sets : Found id id s.sets.size t.sets.size s.set t.set
  cursors : Found id id s.cursors.size t.cursors.size s.cursor t.cursor
  legends : Found id id s.legends.size t.legends.size s.legend t.legend
  metadata : Found id id s.metadata.size t.metadata.size s.metadataAt t.metadataAt

namespace Store

variable {s t u : Store} {place : Nat}

theorem Keeps.but (h : s.Keeps t) (place : Nat) : s.KeepsBut place t where
  __ := h
  dicts_le := h.dicts_le
  dicts p hp _ := (h.dicts p hp).2

namespace KeepsBut

theorem trans (h : s.KeepsBut place t) (k : t.KeepsBut place u) : s.KeepsBut place u where
  lists := h.lists.trans k.lists
  dicts_le := Nat.le_trans h.dicts_le k.dicts_le
  dicts p hp hne := (k.dicts p (Nat.lt_of_lt_of_le hp h.dicts_le) hne).trans (h.dicts p hp hne)
  sets := h.sets.trans k.sets
  cursors := h.cursors.trans k.cursors
  legends := h.legends.trans k.legends
  metadata := h.metadata.trans k.metadata

theorem withDict {w : World} (h : s.KeepsBut place w.store) (es : Entries) :
    s.KeepsBut place (w.withDict place es).store where
  __ := h
  dicts_le := by simpa [World.withDict] using h.dicts_le
  dicts p hp hne := by rw [World.dict_withDict, if_neg fun hplace => hne hplace.1, h.dicts p hp hne]

/-- If the mapping holds what it held, every place does. -/
theorem keeps (h : s.KeepsBut place t) (hplace : t.dict place = s.dict place) : s.Keeps t where
  __ := h
  dicts p hp := ⟨Nat.lt_of_lt_of_le hp h.dicts_le, (em (p = place)).elim (fun heq => heq ▸ hplace) (h.dicts p hp)⟩

end KeepsBut

end Store

/-! ## Computations -/

namespace Run

/-- Whether it fails or not, the computation leaves every place in use as it is. -/
def Keeps (m : Run α) : Prop := ∀ w : World, w.store.Keeps (m.after w).store

namespace Keeps

variable {m : Run α} {f : α → Run β}

theorem pure (a : α) : Keeps (Pure.pure a) := fun w => .refl w.store

theorem throw {e : Fault} : Keeps (MonadExcept.throw e : Run α) := fun w => .refl w.store

theorem store : Keeps Run.store := fun w => .refl w.store

theorem bind (h : m.Keeps) (k : ∀ a, (f a).Keeps) : (m >>= f).Keeps := by
  intro w
  have hm := h w
  unfold Run.after at *
  rw [Run.run_bind]
  rcases hrun : m.run.run w with ⟨e | a, w'⟩
  · rwa [hrun] at hm
  · rw [hrun] at hm
    exact hm.trans (k a w')

/-- A guard that fails with a fault lets the rest of a computation follow. -/
theorem guard {c : Prop} [Decidable c] {e : Fault} {rest : PUnit → Run α} (k : (rest ()).Keeps) :
    Keeps (if c then (do let u ← MonadExcept.throw e; rest u) else rest ()) := by
  split
  · exact fun w => .refl w.store
  · exact k

theorem mapM {xs : List α} (h : ∀ x ∈ xs, (f x).Keeps) : (xs.mapM f).Keeps := by
  induction xs with
  | nil =>
    rw [List.mapM_nil]
    exact .pure []
  | cons x xs ih =>
    rw [List.mapM_cons]
    refine (h x List.mem_cons_self).bind fun _ => (ih fun y hy => h y (List.mem_cons_of_mem _ hy)).bind fun _ => ?_
    exact .pure _

theorem map {g : α → β} (h : m.Keeps) : (g <$> m).Keeps := by
  rw [map_eq_pure_bind]
  exact h.bind fun a => .pure (g a)

theorem foldlM {g : β → α → Run β} (h : ∀ b a, (g b a).Keeps) (xs : List α) (b : β) : (xs.foldlM g b).Keeps := by
  induction xs generalizing b with
  | nil => exact .pure b
  | cons x xs ih => exact (h b x).bind ih

theorem forIn {xs : List α} {g : α → PUnit → Run (ForInStep PUnit)} (h : ∀ x u, (g x u).Keeps) :
    Keeps (ForIn.forIn xs () g) := by
  induction xs with
  | nil => exact .pure _
  | cons x xs ih =>
    rw [List.forIn_cons]
    refine (h x ()).bind fun step => ?_
    cases step with
    | done u => exact .pure u
    | yield u => exact ih

/-- If the computation succeeds, the places that there were are as before. -/
theorem ensures (h : m.Keeps) (w : World) : m.Ensures w fun _ w' => w.store.Keeps w'.store := by
  intro a w' hrun
  have hafter : m.after w = w' := congrArg Prod.snd hrun
  exact hafter ▸ h w

end Keeps

theorem newDict_keeps (es : Entries) : (newDict es).Keeps := fun w => .pushDict w.store es

theorem dumpedTo_keeps (n : Nat) (inside : List Value) (v : Value) : (dumpedTo n inside v).Keeps := by
  induction n generalizing inside v with
  | zero => exact .throw
  | succ n ih =>
    have deeper (fields : List (String × Value)) :
        (do newRecord (← fields.mapM fun f => return (f.1, ← dumpedTo n (v :: inside) f.2)) : Run Value).Keeps :=
      (Keeps.mapM fun f _ => (ih _ f.2).bind fun _ => .pure _).bind fun _ => newDict_keeps _
    unfold dumpedTo
    refine .guard ?_
    split
    · exact .bind .store fun _ => .bind (.mapM fun u _ => ih _ u) fun us w => .pushList w.store us
    · exact .bind (.mapM fun u _ => ih _ u) fun _ => .pure _
    · exact .bind .store fun _ w => .pushSet w.store _
    · exact .bind .store fun _ => (Keeps.mapM fun e _ => (ih _ e.2).bind fun _ => .pure _).bind fun _ => newDict_keeps _
    · exact .bind .store fun s => deeper _
    · exact .bind .store fun s => deeper _
    · exact .pure _

theorem legendFields_keeps (l : Legend) : (legendFields l).Keeps := by
  refine (Keeps.forIn fun f _ => ?_).bind fun _ => newDict_keeps _
  exact (((dumpedTo_keeps _ _ f.2).bind fun _ => .pure ()).bind fun _ => .pure _)

end Run

/-! ## What can be copied -/

/-- Whether a value can be copied, with what it holds, to the depth `n`: nothing lies inside itself. -/
def Store.copyable (s : Store) : Nat → List Value → Value → Bool
  | 0, _, _ => false
  | n + 1, inside, v => !inside.any v.identical && match v with
    | .list p => (s.list p).all (s.copyable n (v :: inside))
    | .tuple vs => vs.all (s.copyable n inside)
    | .dict p => (s.dict p).all fun e => s.copyable n (v :: inside) e.2
    | .legend p => (s.legend p).fields.all fun f => s.copyable n (v :: inside) f.2
    | .metadata p => (s.metadataAt p).fields.all fun f => s.copyable n (v :: inside) f.2
    | _ => true

/-- Whether the fields of a legend can be copied. -/
def Legend.copyable (l : Legend) (s : Store) : Bool := l.extras.all fun f => s.copyable depthLimit [] f.2

/-- A mapping that holds itself cannot be copied. -/
theorem Store.copyable_eq_false {s : Store} {k : Value} {p : Nat} (h : (k, .dict p) ∈ s.dict p) (n : Nat)
    (inside : List Value) : s.copyable n inside (.dict p) = false := by
  have hinside (n : Nat) : s.copyable n (.dict p :: inside) (.dict p) = false := by
    cases n with
    | zero => rfl
    | succ n => simp [copyable, Value.identical_refl]
  cases n with
  | zero => rfl
  | succ n =>
    have hall : ((s.dict p).all fun e => s.copyable n (.dict p :: inside) e.2) = false :=
      List.all_eq_false.2 ⟨_, h, by simp [hinside n]⟩
    rw [copyable, hall, Bool.and_false]

/-- Values that are there: what they lead to is found at places of the region, all of which are in use. -/
structure Store.Closed (s : Store) (r : Region) : Prop where
  lists : ∀ p, r.lists p → p < s.lists.size ∧ ∀ v ∈ s.list p, v.In r
  dicts : ∀ p, r.dicts p → p < s.dicts.size ∧ (s.dict p).In r
  legends : ∀ p, r.legends p → p < s.legends.size ∧ (s.legend p).In r
  metadata : ∀ p, r.metadata p → p < s.metadata.size ∧ (s.metadataAt p).In r

namespace Run

variable {α β : Type} {m : Run α} {f : α → Run β} {s : Store} {a b : Bool}

/-- Wherever the places in use of a store are kept, the computation succeeds, or is refused. -/
def Decides (m : Run α) (s : Store) (b : Bool) : Prop :=
  ∀ w, s.Keeps w.store → if b then ∃ a, m.outcome w = .ok a else m.outcome w = .error .badValue

namespace Decides

theorem pure (x : α) : Decides (Pure.pure x) s true := fun _ _ => ⟨x, rfl⟩

theorem throw : Decides (MonadExcept.throw .badValue : Run α) s false := fun _ _ => rfl

theorem bind (hkeeps : m.Keeps) (h : m.Decides s a) (k : ∀ x, (f x).Decides s b) : (m >>= f).Decides s (a && b) := by
  intro w hw
  have hm := h w hw
  have hafter := hw.trans (hkeeps w)
  unfold Run.outcome Run.after at *
  rw [run_bind]
  rcases hrun : m.run.run w with ⟨e | x, w'⟩ <;> rw [hrun] at hm hafter <;> cases a
  · obtain rfl : e = .badValue := Except.error.inj hm
    rfl
  · obtain ⟨_, hx⟩ := hm
    cases hx
  · cases hm
  · exact k x w' hafter

/-- A computation is followed by one that succeeds. -/
theorem before (hkeeps : m.Keeps) (h : m.Decides s b) (k : ∀ x, (f x).Decides s true) : (m >>= f).Decides s b := by
  have hboth := h.bind hkeeps k
  rwa [Bool.and_true] at hboth

/-- A computation goes on with what it reads. -/
theorem reading {x : α} (hread : ∀ w : World, s.Keeps w.store → m.run.run w = (.ok x, w)) (k : (f x).Decides s b) :
    (m >>= f).Decides s b := by
  intro w hw
  unfold Run.outcome
  rw [run_bind, hread w hw]
  exact k w hw

theorem store {f : Store → Run β} (k : ∀ w : World, s.Keeps w.store → (f w.store).Decides s b) :
    (Run.store >>= f).Decides s b := fun w hw => k w hw w hw

theorem guard {c : Bool} {rest : PUnit → Run α} (k : (rest ()).Decides s b) :
    Decides (if c then (do let u ← MonadExcept.throw .badValue; rest u) else rest ()) s (!c && b) := by
  cases c with
  | true => exact fun _ _ => rfl
  | false => exact k

theorem mapM {xs : List α} {g : α → Bool} (hkeeps : ∀ x ∈ xs, (f x).Keeps) (h : ∀ x ∈ xs, (f x).Decides s (g x)) :
    (xs.mapM f).Decides s (xs.all g) := by
  induction xs with
  | nil => exact .pure []
  | cons x xs ih =>
    obtain ⟨hx, hxs⟩ := List.forall_mem_cons.1 h
    obtain ⟨hkeepsx, hkeepsxs⟩ := List.forall_mem_cons.1 hkeeps
    rw [List.mapM_cons, List.all_cons]
    exact hx.bind hkeepsx fun _ => (ih hkeepsxs hxs).before (.mapM hkeepsxs) fun _ => .pure _

end Decides

theorem newDict_decides (es : Entries) : (newDict es).Decides s true := fun _ _ => ⟨_, rfl⟩

/-- The parts of a value are copied one after the other. -/
theorem parts_decides {κ : Type} {n : Nat} {inside : List Value} {parts : List (κ × Value)}
    (h : ∀ e ∈ parts, (dumpedTo n inside e.2).Decides s (s.copyable n inside e.2)) {f : List (κ × Value) → Run Value}
    (hf : ∀ es, (f es).Decides s true) :
    (parts.mapM (fun e => do return (e.1, ← dumpedTo n inside e.2)) >>= f).Decides s
      (parts.all fun e => s.copyable n inside e.2) := by
  have hkeeps (e : κ × Value) : (do return (e.1, ← dumpedTo n inside e.2) : Run (κ × Value)).Keeps :=
    (dumpedTo_keeps n inside e.2).bind fun _ => .pure _
  refine .before (.mapM fun e _ => hkeeps e) (.mapM (fun e _ => hkeeps e) fun e he => ?_) hf
  exact (h e he).before (dumpedTo_keeps n inside e.2) fun _ => .pure _

/-- Copying succeeds just where it can. -/
theorem dumpedTo_decides {r : Region} (hs : s.Closed r) (n : Nat) : ∀ (inside : List Value) {v : Value}, v.In r →
    (dumpedTo n inside v).Decides s (s.copyable n inside v) := by
  induction n with
  | zero => exact fun _ _ _ => .throw
  | succ n ih =>
    intro inside v hv
    have hitems (inside : List Value) {vs : List Value} (hvs : ∀ u ∈ vs, u.In r) {f : List Value → Run Value}
        (hf : ∀ us, (f us).Decides s true) :
        (vs.mapM (dumpedTo n inside) >>= f).Decides s (vs.all (s.copyable n inside)) :=
      .before (.mapM fun u _ => dumpedTo_keeps n inside u)
        (.mapM (fun u _ => dumpedTo_keeps n inside u) fun u hu => ih inside (hvs u hu)) hf
    unfold dumpedTo Store.copyable
    refine .guard ?_
    dsimp only
    cases v with
    | list p =>
      obtain ⟨hp, hvs⟩ := hs.lists p hv
      refine .reading (x := s.list p) (fun w hw => ?_) (hitems _ hvs fun us w _ => ⟨_, rfl⟩)
      exact congrArg (fun vs => (Except.ok vs, w)) (hw.lists p hp).2
    | tuple vs => exact hitems inside (Value.in_tuple.1 hv) fun us => .pure _
    | set p => exact fun w _ => ⟨_, rfl⟩
    | dict p =>
      obtain ⟨hp, hes⟩ := hs.dicts p hv
      refine .reading (x := s.dict p) (fun w hw => ?_) (parts_decides (fun e he => ih _ (hes e he).2) newDict_decides)
      exact congrArg (fun es => (Except.ok es, w)) (hw.dicts p hp).2
    | legend p =>
      obtain ⟨hp, hl⟩ := hs.legends p hv
      refine .store fun w hw => ?_
      have hsame : w.store.legend p = s.legend p := (hw.legends p hp).2
      rw [hsame]
      exact parts_decides (fun f hf => ih _ (hl.fields f hf)) fun _ => newDict_decides _
    | metadata p =>
      obtain ⟨hp, hm⟩ := hs.metadata p hv
      refine .store fun w hw => ?_
      have hsame : w.store.metadataAt p = s.metadataAt p := (hw.metadata p hp).2
      rw [hsame]
      exact parts_decides (fun f hf => ih _ (hm.fields f hf)) fun _ => newDict_decides _
    | _ => exact .pure _

/-- The fields of a legend are copied one after the other. -/
theorem legendFields_decides {r : Region} (hs : s.Closed r) {l : Legend} (hl : l.In r) :
    (legendFields l).Decides s (l.copyable s) := by
  have hextras : ∀ fs : List (String × Value), (∀ f ∈ fs, f.2.In r) →
      (ForIn.forIn fs PUnit.unit fun f _ => do
        discard <| dumped f.2
        return ForInStep.yield PUnit.unit : Run PUnit).Decides s (fs.all fun f => s.copyable depthLimit [] f.2) := by
    intro fs hfs
    induction fs with
    | nil => exact .pure _
    | cons f fs ih =>
      obtain ⟨hf, hfs⟩ := List.forall_mem_cons.1 hfs
      have hdiscard : (discard (dumped f.2)).Decides s (s.copyable depthLimit [] f.2) :=
        (dumpedTo_decides hs depthLimit [] hf).before (dumpedTo_keeps _ _ _) fun _ => .pure ()
      have hkeeps : (discard (dumped f.2)).Keeps := (dumpedTo_keeps _ _ f.2).bind fun _ => .pure ()
      simp only [List.forIn_cons, List.all_cons, bind_assoc, pure_bind] at ih ⊢
      exact hdiscard.bind hkeeps fun _ => ih hfs
  refine .before (.forIn fun f _ => ?_) (hextras l.extras hl.extras) fun _ => newDict_decides _
  exact (((dumpedTo_keeps _ _ f.2).bind fun _ => .pure ()).bind fun _ => .pure _)

end Run

end NestedSite
