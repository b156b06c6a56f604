import NestedSite.Proofs.Store.WellFormed
import NestedSite.Proofs.Yaml.Reading
import NestedSite.Yaml.Load

/-!
# The values of documents

Whatever a document holds is a datum (`Value.IsDatum`): made in a store that holds nothing else, its values are data,
and so is all that they lead to (`Yaml.load_ends`). If there is no value, the fault is a known one. What they lead to is
in use, and no two keys of a mapping mean one entry, so that the store is well-formed again (`Yaml.load_wellFormed`).

The induction over the nodes carries that the values made so far are data at places in use (`Yaml.MadeData`): a
collection that holds itself has its place before its items, and a place is a datum. Places that are in use stay in use
(`Store.Adds`), so that values may be kept while others are made.
-/

namespace NestedSite

/-- Lists, mappings and sets may have come, and nothing else. -/
structure Store.Adds (s t : Store) : Prop where
  lists : s.lists.size ≤ t.lists.size
  dicts : s.dicts.size ≤ t.dicts.size
  sets : s.sets.size ≤ t.sets.size
  cursors : t.cursors = s.cursors
  legends : t.legends = s.legends
  metadata : t.metadata = s.metadata

namespace Store.Adds

variable {s t u : Store}

theorem refl (s : Store) : s.Adds s := ⟨Nat.le_refl _, Nat.le_refl _, Nat.le_refl _, rfl, rfl, rfl⟩

theorem trans (h : s.Adds t) (k : t.Adds u) : s.Adds u where
  lists := Nat.le_trans h.lists k.lists
  dicts := Nat.le_trans h.dicts k.dicts
  sets := Nat.le_trans h.sets k.sets
  cursors := k.cursors.trans h.cursors
  legends := k.legends.trans h.legends
  metadata := k.metadata.trans h.metadata

theorem leadsInto (h : s.Adds t) : Relocation.refl.LeadsInto s.inUse t.inUse where
  lists _ hp := Nat.lt_of_lt_of_le hp h.lists
  dicts _ hp := Nat.lt_of_lt_of_le hp h.dicts
  sets _ hp := Nat.lt_of_lt_of_le hp h.sets
  cursors _ hp := Nat.lt_of_lt_of_eq hp (congrArg Array.size h.cursors.symm)
  held _ hp := Nat.lt_of_lt_of_eq hp (congrArg Array.size h.cursors.symm)
  legends _ hp := Nat.lt_of_lt_of_eq hp (congrArg Array.size h.legends.symm)
  metadata _ hp := Nat.lt_of_lt_of_eq hp (congrArg Array.size h.metadata.symm)
  bound _ _ := trivial
  helpers _ _ := trivial

end Store.Adds

/-! ## Data at places in use -/

/-- A datum whose places are in use. -/
def Store.HasDatum (s : Store) (v : Value) : Prop := v.IsDatum ∧ v.In s.inUse

/-- Entries whose keys and values are data at places in use; no two keys mean one entry. -/
structure Store.HasEntries (s : Store) (es : Entries) : Prop where
  data : ∀ e ∈ es, s.HasDatum e.1 ∧ s.HasDatum e.2
  distinct : es.Distinct

/-- All that is held in lists, sets and mappings is data. -/
structure Store.HoldsData (s : Store) : Prop where
  lists : ∀ p, ∀ v ∈ s.list p, s.HasDatum v
  dicts : ∀ p, s.HasEntries (s.dict p)
  sets : ∀ p, ∀ v ∈ s.set p, s.HasDatum v

namespace Store

variable {s t : Store}

theorem HasDatum.mono {v : Value} (hv : s.HasDatum v) (h : s.Adds t) : t.HasDatum v :=
  ⟨hv.1, by simpa using hv.2.moved h.leadsInto⟩

theorem HasEntries.mono {es : Entries} (hes : s.HasEntries es) (h : s.Adds t) : t.HasEntries es :=
  ⟨fun e he => ⟨(hes.data e he).1.mono h, (hes.data e he).2.mono h⟩, hes.distinct⟩

theorem HasEntries.nil (s : Store) : s.HasEntries [] := ⟨nofun, Entries.distinct_nil⟩

theorem HasEntries.insert {es : Entries} (h : s.HasEntries es) {k v : Value} (hk : s.HasDatum k) (hv : s.HasDatum v) :
    s.HasEntries (es.insert k v) := by
  refine ⟨?_, h.distinct.insert k v⟩
  obtain ⟨hdata, -⟩ := h
  induction es with
  | nil => exact List.forall_mem_singleton.2 ⟨hk, hv⟩
  | cons e rest ih =>
    have hfirst := hdata e List.mem_cons_self
    have hrest := fun e he => hdata e (List.mem_cons_of_mem _ he)
    unfold Entries.insert
    split
    · exact List.forall_mem_cons.2 ⟨⟨hfirst.1, hv⟩, hrest⟩
    · exact List.forall_mem_cons.2 ⟨hfirst, ih hrest⟩

theorem empty_holdsData : ({} : Store).HoldsData where
  lists _ _ hv := absurd hv List.not_mem_nil
  dicts _ := .nil _
  sets _ _ hv := absurd hv List.not_mem_nil

namespace HoldsData

/-- A store may hold more data, and other data. -/
theorem adds (h : s.HoldsData) (hadds : s.Adds t)
    (lists : ∀ p, t.list p = s.list p ∨ ∀ v ∈ t.list p, t.HasDatum v)
    (dicts : ∀ p, t.dict p = s.dict p ∨ t.HasEntries (t.dict p))
    (sets : ∀ p, t.set p = s.set p ∨ ∀ v ∈ t.set p, t.HasDatum v) : t.HoldsData where
  lists p := (lists p).elim (fun heq v hv => (h.lists p v (heq ▸ hv)).mono hadds) id
  dicts p := (dicts p).elim (fun heq => heq ▸ (h.dicts p).mono hadds) id
  sets p := (sets p).elim (fun heq v hv => (h.sets p v (heq ▸ hv)).mono hadds) id

theorem pushDict (h : s.HoldsData) : ({ s with dicts := s.dicts.push [] } : Store).HoldsData := by
  refine h.adds { Adds.refl _ with dicts := by simp } (fun p => .inl rfl) (fun p => ?_) fun p => .inl rfl
  rw [Store.dict_push]
  split
  · exact .inr (.nil _)
  · exact .inl rfl

/-- Where there are no cursors, legends and metadata, the store is well-formed. -/
theorem wellFormed (h : s.HoldsData) (hadds : ({} : Store).Adds s) : s.WellFormed where
  lists p _ v hv := (h.lists p v hv).2
  dicts p _ := ⟨fun e he => ⟨((h.dicts p).data e he).1.2, ((h.dicts p).data e he).2.2⟩, (h.dicts p).distinct⟩
  sets p _ v hv := (h.sets p v hv).2
  cursors p hp := by simp [hadds.cursors] at hp
  legends p hp := by simp [hadds.legends] at hp
  metadata p hp := by simp [hadds.metadata] at hp

end HoldsData

end Store

namespace Yaml

/-- The values made so far are data, and so is what the store holds. -/
structure MadeData (made : List (Nat × Value)) (s : Store) : Prop where
  made : ∀ e ∈ made, s.HasDatum e.2
  store : s.HoldsData

/-- Started with data in a store that has come from `s`, a computation leaves data; its result is as `Q` says of the
store that it leaves, and its fault is a known one. -/
def Makes {α : Type} (s : Store) (Q : Store → α → Prop) (x : Make α) : Prop :=
  ∀ m w, s.Adds w.store → MadeData m.made w.store →
    match (x.run m).run.run w with
    | (.ok (a, m'), w') => w.store.Adds w'.store ∧ Q w'.store a ∧ MadeData m'.made w'.store
    | (.error f, _) => Known f

/-- What is of no account. -/
abbrev Any {α : Type} (_ : Store) (_ : α) : Prop := True

namespace Makes

variable {α β : Type} {s : Store} {Q : Store → α → Prop} {R : Store → β → Prop} {x y : Make α} {f : α → Make β}

theorem pure {a : α} (h : ∀ t, s.Adds t → Q t a) : Makes s Q (Pure.pure a) := fun _ w hs hm =>
  ⟨.refl w.store, h w.store hs, hm⟩

theorem done {a : α} : Makes s Any (Pure.pure a) := pure fun _ _ => trivial

theorem throw {e : Fault} (h : Known e) : Makes s Q (MonadExcept.throw e) := fun _ _ _ _ => h

theorem malformed : Makes s Q Make.malformed := throw (.inl rfl)

theorem bind (h : Makes s Q x) (k : ∀ t a, s.Adds t → Q t a → Makes t R (f a)) : Makes s R (x >>= f) := by
  intro m w hs hm
  have hx := h m w hs hm
  rw [StateT.run_bind, Run.run_bind]
  rcases hrun : (x.run m).run.run w with ⟨e | ⟨a, m'⟩, w'⟩
  · rw [hrun] at hx
    exact hx
  · rw [hrun] at hx
    obtain ⟨hadds, ha, hm'⟩ := hx
    have hf := k w'.store a (hs.trans hadds) ha m' w' (.refl _) hm'
    dsimp only
    rcases hrun' : ((f a).run m').run.run w' with ⟨e | ⟨b, m''⟩, w''⟩
    · rw [hrun'] at hf
      exact hf
    · rw [hrun'] at hf
      exact ⟨hadds.trans hf.1, hf.2⟩

theorem seq (h : Makes s Q x) {y : Make β} (k : ∀ t, s.Adds t → Makes t R y) : Makes s R (x >>= fun _ => y) :=
  h.bind fun t _ ht _ => k t ht

theorem discard (h : Makes s Q x) : Makes s Any (Functor.discard x) :=
  h.bind (f := fun _ => Pure.pure ()) fun _ _ _ _ => .done

theorem malformed_bind : Makes s R (Make.malformed >>= f) :=
  (malformed (Q := fun _ _ => False)).bind fun _ _ _ h => h.elim

theorem get : Makes s (fun t m => ∀ e ∈ m.made, t.HasDatum e.2) (MonadState.get : Make Making) := fun _ w _ hm =>
  ⟨.refl w.store, hm.made, hm⟩

theorem modify {g : Making → Making}
    (h : ∀ t m, s.Adds t → (∀ e ∈ m.made, t.HasDatum e.2) → ∀ e ∈ (g m).made, t.HasDatum e.2) :
    Makes s Any (modify g : Make PUnit) := fun m w hs hm =>
  ⟨.refl w.store, trivial, h w.store m hs hm.made, hm.store⟩

theorem ite {c : Prop} [Decidable c] (h : Makes s Q x) (k : Makes s Q y) : Makes s Q (if c then x else y) := by
  split
  · exact h
  · exact k

theorem read {g : Except Fault Value} (h : Ends Value.IsScalar g) :
    Makes s Store.HasDatum (Run.read fun _ => g : Make Value) := by
  cases h with
  | ok h => exact fun _ w _ hm => ⟨.refl w.store, ⟨h.datum, h.free _⟩, hm⟩
  | error h => exact fun _ _ _ _ => h

theorem mapM {P : Store → β → Prop} (hP : ∀ {t u b}, P t b → t.Adds u → P u b)
    (h : ∀ t a, s.Adds t → Makes t P (f a)) (xs : List α) :
    Makes s (fun t ys => ∀ y ∈ ys, P t y) (xs.mapM f) := by
  induction xs generalizing s with
  | nil => exact .pure fun _ _ _ hy => absurd hy List.not_mem_nil
  | cons a xs ih =>
    rw [List.mapM_cons]
    refine (h s a (.refl s)).bind fun t y ht hy => ?_
    refine (ih fun u a hu => h u a (ht.trans hu)).bind fun u ys hu hys => .pure fun v hv => ?_
    exact List.forall_mem_cons.2 ⟨hP (hP hy hu) hv, fun z hz => hP (hys z hz) hv⟩

theorem forM {f : α → Make PUnit} (h : ∀ t a, s.Adds t → Makes t Any (f a)) (xs : List α) :
    Makes s Any (xs.forM f) := by
  induction xs generalizing s with
  | nil => exact .done
  | cons a xs ih => exact (h s a (.refl s)).seq fun t ht => ih fun u a hu => h u a (ht.trans hu)

theorem foldlM {P : Store → β → Prop} {f : β → α → Make β} (hP : ∀ {t u b}, P t b → t.Adds u → P u b)
    (h : ∀ t b a, s.Adds t → P t b → Makes t P (f b a)) (xs : List α) {b : β} (hb : P s b) :
    Makes s P (xs.foldlM f b) := by
  induction xs generalizing s b with
  | nil => exact .pure fun _ ht => hP hb ht
  | cons a xs ih =>
    rw [List.foldlM_cons]
    exact (h s b a (.refl s) hb).bind fun t c ht hc => ih (fun u b a hu => h u b a (ht.trans hu)) hc

/-- The number of nodes that have a value is of no account in the end. -/
theorem ends {x : Make Value} {w : World} (h : Makes w.store Store.HasDatum x) {m : Making}
    (hm : MadeData m.made w.store) :
    Ends (fun v => w.store.Adds ((x.run' m).after w).store ∧ ((x.run' m).after w).store.HasDatum v ∧
      ((x.run' m).after w).store.HoldsData) ((x.run' m).outcome w) := by
  have hx := h m w (.refl _) hm
  unfold Run.after Run.outcome
  rw [StateT.run'_eq, map_eq_pure_bind, Run.run_bind]
  rcases hrun : (x.run m).run.run w with ⟨e | ⟨a, m'⟩, w'⟩
  · rw [hrun] at hx
    exact .error hx
  · rw [hrun] at hx
    exact .ok ⟨hx.1, hx.2.1, hx.2.2.store⟩

end Makes

namespace Make

variable {s : Store}

/-! ## Places -/

theorem newList_makes : Makes s Store.HasDatum (Run.newList [] : Make Value) := fun _ w _ hm => by
  have hadds : w.store.Adds { w.store with lists := w.store.lists.push [] } := { Store.Adds.refl _ with lists := by simp }
  refine ⟨hadds, ⟨.list _, by simp [Store.inUse]⟩, fun e he => (hm.made e he).mono hadds, hm.store.adds hadds
    (fun p => ?_) (fun p => .inl rfl) fun p => .inl rfl⟩
  rw [Store.list_push]
  split
  · exact .inr fun v hv => absurd hv List.not_mem_nil
  · exact .inl rfl

theorem newDict_makes : Makes s Store.HasDatum (Run.newDict [] : Make Value) := fun _ w _ hm => by
  have hadds : w.store.Adds { w.store with dicts := w.store.dicts.push [] } := { Store.Adds.refl _ with dicts := by simp }
  exact ⟨hadds, ⟨.dict _, by simp [Store.inUse]⟩, fun e he => (hm.made e he).mono hadds, hm.store.pushDict⟩

theorem newSet_makes : Makes s Store.HasDatum (Run.newSet [] : Make Value) := fun _ w _ hm => by
  have hadds : w.store.Adds { w.store with sets := w.store.sets.push [] } := { Store.Adds.refl _ with sets := by simp }
  refine ⟨hadds, ⟨.set _, by simp [Store.inUse]⟩, fun e he => (hm.made e he).mono hadds, hm.store.adds hadds
    (fun p => .inl rfl) (fun p => .inl rfl) fun p => ?_⟩
  rw [Store.set_push]
  split
  · exact .inr fun v hv => absurd hv List.not_mem_nil
  · exact .inl rfl

theorem setList_makes (place : Nat) {vs : List Value} (h : ∀ v ∈ vs, s.HasDatum v) :
    Makes s Any (Run.setList place vs : Make Unit) := fun _ w hs hm => by
  have hadds : w.store.Adds { w.store with lists := w.store.lists.setIfInBounds place vs } :=
    { Store.Adds.refl _ with lists := by simp }
  refine ⟨hadds, trivial, fun e he => (hm.made e he).mono hadds, hm.store.adds hadds (fun p => ?_) (fun p => .inl rfl)
    fun p => .inl rfl⟩
  rw [Store.list_setIfInBounds]
  split
  · exact .inr fun v hv => (h v hv).mono (hs.trans hadds)
  · exact .inl rfl

theorem setDict_makes (place : Nat) {es : Entries} (h : s.HasEntries es) :
    Makes s Any (Run.setDict place es : Make Unit) := fun _ w hs hm => by
  have hadds : w.store.Adds { w.store with dicts := w.store.dicts.setIfInBounds place es } :=
    { Store.Adds.refl _ with dicts := by simp }
  refine ⟨hadds, trivial, fun e he => (hm.made e he).mono hadds, hm.store.adds hadds (fun p => .inl rfl) (fun p => ?_)
    fun p => .inl rfl⟩
  rw [Store.dict_setIfInBounds]
  split
  · exact .inr (h.mono (hs.trans hadds))
  · exact .inl rfl

theorem setSet_makes (place : Nat) {vs : List Value} (h : ∀ v ∈ vs, s.HasDatum v) :
    Makes s Any (Run.setSet place vs : Make Unit) := fun _ w hs hm => by
  have hadds : w.store.Adds { w.store with sets := w.store.sets.setIfInBounds place vs } :=
    { Store.Adds.refl _ with sets := by simp }
  refine ⟨hadds, trivial, fun e he => (hm.made e he).mono hadds, hm.store.adds hadds (fun p => .inl rfl)
    (fun p => .inl rfl) fun p => ?_⟩
  rw [Store.set_setIfInBounds]
  split
  · exact .inr fun v hv => (h v hv).mono (hs.trans hadds)
  · exact .inl rfl

/-! ## Nodes -/

theorem node_makes (n : Nat) : Makes s Any (node n) := Makes.get.bind fun _ _ _ _ => .done

theorem setNode_makes (n : Nat) (node : Node) : Makes s Any (setNode n node) := .modify fun _ _ _ h => h

theorem entries_makes (n : Nat) : Makes s Any (entries n) := by
  refine (node_makes n).bind fun _ node _ _ => ?_
  split
  · exact .done
  · exact .done

theorem scalarTextGo_makes {s : Store} : ∀ fuel n : Nat, Makes s Any (scalarText.go fuel n)
  | 0, _ => .throw (.inr .tooDeep)
  | fuel + 1, n => by
    refine (node_makes n).bind fun t node _ _ => ?_
    split
    · exact .done
    · exact .malformed
    · refine (Makes.mapM (P := Any) (fun h _ => h) (fun u e _ => ?_) _).bind fun _ tags _ _ => ?_
      · exact (node_makes e.1).bind fun _ _ _ _ => .done
      · split
        · exact scalarTextGo_makes fuel _
        · exact .malformed

theorem scalarText_makes (n : Nat) : Makes s Any (scalarText n) :=
  Makes.get.bind fun _ _ _ _ => scalarTextGo_makes _ n

/-! ## Merge keys -/

theorem gather_makes {flatten : Nat → Make Unit} (h : ∀ s n, Makes s Any (flatten n)) (n : Nat) :
    ∀ (s : Store) (fuel i : Nat) (merged : List (Nat × Nat)), Makes s Any (gather flatten n fuel i merged)
  | _, 0, _, _ => .done
  | s, fuel + 1, i, merged => by
    have rest (t : Store) := gather_makes h n t fuel
    unfold gather
    refine (entries_makes n).bind fun _ es _ _ => ?_
    split
    · exact .done
    refine (node_makes _).bind fun _ key _ _ => ?_
    split
    case h_1 =>
      refine (node_makes n).bind fun _ node _ _ => (setNode_makes n _).seq fun _ _ => (node_makes _).bind fun _ v _ _ => ?_
      split
      · exact (h _ _).seq fun _ _ => (entries_makes _).bind fun _ _ _ _ => rest _ _ _
      · refine (Makes.mapM (P := Any) (fun h _ => h) (fun _ item _ => ?_) _).bind fun _ parts _ _ => rest _ _ _
        refine (node_makes item).bind fun _ node _ _ => ?_
        split
        · exact (h _ item).seq fun _ _ => entries_makes item
        · exact .malformed
      · exact .malformed
    case h_2 => exact (setNode_makes _ _).seq fun _ _ => rest _ _ _
    case h_3 => exact rest _ _ _

theorem flatten_makes : ∀ (fuel : Nat) (s : Store) (n : Nat), Makes s Any (flatten fuel n)
  | 0, _, _ => .throw (.inr .tooDeep)
  | fuel + 1, _, n => by
    refine (entries_makes n).bind fun _ es _ _ => (gather_makes (flatten_makes fuel) n _ _ _ _).bind fun _ merged _ _ =>
      .ite ?_ ?_
    · exact (node_makes n).bind fun _ node _ _ => (entries_makes n).bind fun _ es _ _ => setNode_makes n _
    · exact .done

/-! ## Values -/

theorem begin_makes (n : Nat) : Makes s Store.HasDatum (begin n) := by
  unfold begin
  extract_lets scalar collection
  have hscalar {s : Store} (f : String → Except Fault Value) (hf : ∀ t, Ends Value.IsScalar (f t)) :
      Makes s Store.HasDatum (scalar f) :=
    (scalarText_makes n).bind fun _ t _ _ => .read (hf t)
  have hcollection {s : Store} (v : Value) (hv : s.HasDatum v) : Makes s Store.HasDatum (collection v) :=
    (Makes.modify fun _ _ _ h => h).seq fun _ ht => .pure fun _ hu => hv.mono (ht.trans hu)
  clear_value scalar collection
  refine (node_makes n).bind fun _ node _ _ => ?_
  split
  · exact hscalar _ fun _ => .pure ⟨.none, fun _ => trivial⟩
  · exact hscalar _ fun t => (Scalar.bool_ends t).bind fun b _ => .pure ⟨.bool b, fun _ => trivial⟩
  · exact hscalar _ fun t => (Scalar.int_ends t).bind fun i _ => .pure ⟨.int i, fun _ => trivial⟩
  · exact hscalar _ fun t => (Scalar.float_ends t).bind fun x _ => .pure ⟨.float x, fun _ => trivial⟩
  · exact hscalar _ fun t => (Scalar.binary_ends t).bind fun bs _ => .pure ⟨.bytes bs, fun _ => trivial⟩
  · exact hscalar _ fun t => .pure ⟨.text t, fun _ => trivial⟩
  · refine (scalarText_makes n).bind fun _ t _ _ => (node_makes n).bind fun _ node _ _ => ?_
    split
    · have htime := Scalar.timestamp_ends t
      -- the pattern of times is not to be unfolded
      generalize Scalar.timestamp t = time at htime ⊢
      exact .read htime
    · exact .throw (.inr .wrongType)
  · exact newList_makes.bind fun _ v _ => hcollection v
  · exact newList_makes.bind fun _ v _ => hcollection v
  · exact newList_makes.bind fun _ v _ => hcollection v
  · exact newDict_makes.bind fun _ v _ => hcollection v
  · exact newSet_makes.bind fun _ v _ => hcollection v
  · exact .malformed
  · exact .malformed
  · exact .malformed

theorem value_makes (n : Nat) : Makes s Store.HasDatum (value n) := by
  refine Makes.get.bind fun t m _ hm => ?_
  split
  · next found => exact .pure fun _ hu => (hm _ (List.mem_of_find?_eq_some found)).mono hu
  · refine (begin_makes n).bind fun t v _ hv => (Makes.modify fun u m hu hm => ?_).seq fun u hu => ?_
    · exact List.forall_mem_cons.2 ⟨hv.mono hu, hm⟩
    · exact .pure fun _ hu' => hv.mono (hu.trans hu')

theorem visitParts_makes : ∀ (fuel : Nat) (s : Store) (n : Nat), Makes s Any (visitParts fuel n)
  | 0, _, _ => .malformed
  | fuel + 1, s, n => by
    unfold visitParts
    extract_lets visit
    have hvisit (s : Store) (m : Nat) : Makes s Any (visit m) := by
      refine Makes.get.bind fun _ _ _ _ => .ite ?_ .done
      exact (begin_makes m).discard.seq fun _ _ => visitParts_makes fuel _ m
    clear_value visit
    refine (node_makes n).bind fun _ node _ _ => ?_
    split
    case h_1 => exact .forM (fun _ _ _ => hvisit _ _) _
    case h_2 | h_3 =>
      refine .forM (fun _ item _ => (entries_makes item).bind fun _ es _ _ => ?_) _
      split
      · exact (hvisit _ _).seq fun _ _ => hvisit _ _
      · exact .malformed
    case h_4 | h_5 =>
      refine Makes.get.bind fun _ m _ _ => (flatten_makes _ _ n).seq fun _ _ =>
        (entries_makes n).bind fun _ es _ _ => .forM (fun _ e _ => ?_) es
      refine (hvisit _ e.1).seq fun _ _ => (node_makes e.1).bind fun _ key _ _ => .ite ?_ (hvisit _ e.2)
      exact .malformed_bind
    case h_6 => exact .ite .malformed .done

theorem mapping_makes (n : Nat) : Makes s Store.HasEntries (mapping n) := by
  refine (node_makes n).bind fun _ node _ _ => ?_
  split
  · refine Makes.get.bind fun _ m _ _ => (flatten_makes _ _ n).seq fun _ _ =>
      (entries_makes n).bind fun t es _ _ => ?_
    refine Makes.foldlM (fun h => h.mono) (fun u all e _ hall => ?_) es (.nil t)
    refine (value_makes e.1).bind fun v key hv hkey => ?_
    have rest : Makes v Store.HasEntries (do return all.insert key (← value e.2)) :=
      (value_makes e.2).bind fun x val hx hval => .pure fun y hy =>
        (hall.mono ((hv.trans hx).trans hy)).insert (hkey.mono (hx.trans hy)) (hval.mono hy)
    exact .ite (Makes.get.bind fun _ m _ _ => (visitParts_makes _ _ e.1).seq fun _ _ => Makes.malformed_bind) rest
  · exact .malformed

theorem finish_makes (n : Nat) (v : Value) : Makes s Any (finish n v) := by
  unfold finish
  refine (node_makes n).bind fun t node _ _ => ?_
  split
  · exact (Makes.mapM (fun h => h.mono) (fun _ _ _ => value_makes _) _).bind fun _ vs _ hvs => setList_makes _ hvs
  case h_2 | h_3 =>
    refine (Makes.mapM (P := Store.HasDatum) (fun h => h.mono) (fun _ item _ => ?_) _).bind fun _ pairs _ hpairs =>
      setList_makes _ hpairs
    refine (entries_makes item).bind fun _ es _ _ => ?_
    split
    · refine (value_makes _).bind fun t k _ hk => (value_makes _).bind fun u v hu hv => .pure fun x hx => ?_
      have hk := hk.mono (hu.trans hx)
      have hv := hv.mono hx
      refine ⟨.tuple (List.forall_mem_cons.2 ⟨hk.1, List.forall_mem_singleton.2 hv.1⟩), Value.in_tuple.2 ?_⟩
      exact List.forall_mem_cons.2 ⟨hk.2, List.forall_mem_singleton.2 hv.2⟩
    · exact .malformed
  · exact (mapping_makes n).bind fun _ es _ hes => setDict_makes _ hes
  · refine (mapping_makes n).bind fun _ es _ hes => setSet_makes _ fun v hv => ?_
    obtain ⟨e, he, rfl⟩ := List.mem_map.1 hv
    exact (hes.data e he).1
  · exact .malformed

theorem finishAll_makes (fuel : Nat) (s : Store) : Makes s Any (finishAll fuel) := by
  induction fuel generalizing s with
  | zero => exact .done
  | succ fuel ih =>
    refine Makes.get.bind fun _ m _ _ => ?_
    split
    · exact .done
    · next n v pending _ =>
      have drop {t : Store} : Makes t Any (modify fun m => { m with pending }) := .modify fun _ _ _ h => h
      exact drop.seq fun _ _ => (finish_makes n v).seq fun _ _ => ih _

end Make

/-- In a store that holds data only, the value of a document is a datum at a place in use, or the fault is a known
one. -/
theorem load_ends (text : String) {w : World} (h : w.store.HoldsData) :
    Ends (fun v => w.store.Adds ((load text).after w).store ∧ ((load text).after w).store.HasDatum v ∧
      ((load text).after w).store.HoldsData) ((load text).outcome w) := by
  unfold load
  cases hdocument : Document.ofText text with
  | error f => exact .error (Document.ofText_fault hdocument)
  | ok found =>
    cases found with
    | none => exact .ok ⟨.refl _, ⟨.none, trivial⟩, h⟩
    | some d =>
      have hmake : Makes w.store Store.HasDatum (do
          let root ← Make.value d.root
          Make.finishAll (d.nodes.size + 1)
          return root) :=
        (Make.value_makes d.root).bind fun _ v _ hv => (Make.finishAll_makes _ _).seq fun _ ht =>
          .pure fun _ hu => hv.mono (ht.trans hu)
      exact hmake.ends ⟨nofun, h⟩

/-- A document adds its values to a well-formed store, which stays well-formed and keeps what it held. -/
theorem load_wellFormed (text : String) {w : World} (hw : w.store.WellFormed) :
    (load text).Ensures w fun v w' => w'.store.WellFormed ∧ w.store.Keeps w'.store ∧ w.store.SameRecords w'.store ∧
      v.In w'.store.inUse := by
  intro v w' hrun
  have hmoves : Moves (.behind w.store) (Value.moved _) (load text) (load text) := load_moves text
  obtain ⟨houtcome, hcarries, hkeeps⟩ := hmoves.beginning
  obtain ⟨-, hfits, -⟩ := hmoves {} w (Relocation.behind_fits w.store)
  have hends := load_ends text (w := {}) Store.empty_holdsData
  have hafter : (load text).after w = w' := congrArg Prod.snd hrun
  have hok : (load text).outcome w = .ok v := congrArg Prod.fst hrun
  rw [houtcome] at hok
  cases hvalue : (load text).outcome {} with
  | error f =>
    rw [hvalue] at hok
    cases hok
  | ok u =>
    rw [hvalue] at hok hends
    cases hok
    cases hends with
    | ok hends =>
      obtain ⟨hadds, hdatum, hdata⟩ := hends
      rw [hafter] at hcarries hkeeps hfits
      refine ⟨?_, hkeeps, .behind ?_ hfits, hdatum.2.moved hcarries.leadsInto⟩
      · exact hafter ▸ hmoves.wellFormed hw (hdata.wellFormed hadds)
      · exact ⟨congrArg Array.size hadds.cursors, congrArg Array.size hadds.legends, congrArg Array.size hadds.metadata⟩

/-! ## Every fault is met -/

deriving instance DecidableEq for Fault

/-- The fault of a text, if it has no value. -/
def fault? (text : String) : Option Fault :=
  match (load text).outcome {} with
  | .ok _ => none
  | .error f => some f

theorem fault?_eq_some {text : String} {f : Fault} : fault? text = some f ↔ (load text).outcome {} = .error f := by
  unfold fault?
  cases (load text).outcome {} <;> simp

/-- The known faults are those of texts. -/
theorem known_iff {f : Fault} : Known f ↔ ∃ text, (load text).outcome {} = .error f := by
  constructor
  · simp only [← fault?_eq_some]
    rintro (rfl | h)
    · exact ⟨"[", by decide +kernel⟩
    cases h
    case tooDeep => exact ⟨"!!str &a \x7b!!value \x22\x22: *a\x7d", by decide +kernel⟩
    case overflow => exact ⟨"\x22\\UFFFFFFFF\x22", by decide +kernel⟩
    case badValue => exact ⟨"!!int x", by decide +kernel⟩
    case missingKey => exact ⟨"!!bool x", by decide +kernel⟩
    case missingIndex => exact ⟨"!!int _", by decide +kernel⟩
    case missingAttribute => exact ⟨"!!timestamp x", by decide +kernel⟩
    case wrongType => exact ⟨"!!timestamp \x7b!!value \x22\x22: x\x7d", by decide +kernel⟩
  · rintro ⟨text, h⟩
    have hends := load_ends text (w := {}) Store.empty_holdsData
    rw [h] at hends
    cases hends with
    | error h => exact h

end Yaml

end NestedSite
