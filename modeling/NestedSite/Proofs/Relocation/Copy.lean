import Mathlib.Data.List.Nodup
import NestedSite.Proofs.Relocation.Store
import NestedSite.Proofs.Store.Reach

/-!
# Deep copies

What is reached from given values in a store may have a copy in another store, or in the same one
(`Store.CopiedTo`): for every place that is reached there is a place of its own, which holds the same, with the places
of the copy for those of the original. Whatever else the stores hold, what is reached can be taken out of the first one
into a store of its own (`Store.extract`), and that store fits the second one (`Store.CopiedTo.fits`).
-/

namespace NestedSite

/-! ## No relocation -/

/-- Every place stays where it is. -/
def Relocation.refl : Relocation where
  lists := id
  dicts := id
  sets := id
  cursors := id
  legends := id
  metadata := id
  lists_inj := Iff.rfl
  dicts_inj := Iff.rfl
  sets_inj := Iff.rfl
  cursors_inj := Iff.rfl
  legends_inj := Iff.rfl
  metadata_inj := Iff.rfl

mutual

@[simp] theorem Value.moved_refl : ∀ v : Value, v.moved .refl = v
  | .tuple vs => by rw [Value.moved, Value.movedAll_refl vs]
  | .slice a b c => by rw [Value.moved, Value.moved_refl a, Value.moved_refl b, Value.moved_refl c]
  | .method v _ => by rw [Value.moved, Value.moved_refl v]
  | .list _ | .dict _ | .set _ | .cursor _ | .view .. | .legend _ | .metadata _ | .none | .bool _ | .int _ | .float _
  | .complex .. | .text _ | .bytes _ | .date _ | .moment _ | .ellipsis | .range .. | .builtin _ | .helper _
  | .foreignType _ | .typeMethod .. | .classMethod .. | .typeField .. => rfl

theorem Value.movedAll_refl : ∀ vs : List Value, Value.movedAll .refl vs = vs
  | [] => rfl
  | v :: vs => by rw [Value.movedAll, Value.moved_refl v, Value.movedAll_refl vs]

end

@[simp] theorem Value.map_moved_refl (vs : List Value) : vs.map (Value.moved .refl) = vs := by
  rw [← Value.movedAll_eq_map, Value.movedAll_refl]

@[simp] theorem movedFields_refl (fields : List (String × Value)) : movedFields .refl fields = fields := by
  simp [movedFields]

@[simp] theorem Entries.moved_refl (es : Entries) : es.moved .refl = es := by
  simp [Entries.moved]

@[simp] theorem Cursor.moved_refl (c : Cursor) : c.moved .refl = c := by
  cases c with
  | items type rest => exact congrArg (Cursor.items type) (Value.map_moved_refl rest)
  | zip inner strict => exact congrArg (Cursor.zip · strict) (List.map_id inner)
  | list | listBack | dict | dictBack | range | enumerate | done => rfl

@[simp] theorem Legend.moved_refl (l : Legend) : l.moved .refl = l := by
  simp [Legend.moved]

@[simp] theorem Metadata.moved_refl (m : Metadata) : m.moved .refl = m := by
  unfold Metadata.moved
  rw [movedFields_refl]
  rfl

/-! ## One relocation after another -/

/-- For the places that are reached, moving them by `σ` and then by `ρ` is moving them by `τ`. -/
structure Relocation.Factors (s : Store) (roots : List Value) (σ ρ τ : Relocation) : Prop where
  lists : ∀ p, s.Reaches roots (.list p) → ρ.lists (σ.lists p) = τ.lists p
  dicts : ∀ p, s.Reaches roots (.dict p) → ρ.dicts (σ.dicts p) = τ.dicts p
  sets : ∀ p, s.Reaches roots (.set p) → ρ.sets (σ.sets p) = τ.sets p
  cursors : ∀ p, s.Reaches roots (.cursor p) → ρ.cursors (σ.cursors p) = τ.cursors p
  legends : ∀ p, s.Reaches roots (.legend p) → ρ.legends (σ.legends p) = τ.legends p
  metadata : ∀ p, s.Reaches roots (.metadata p) → ρ.metadata (σ.metadata p) = τ.metadata p

namespace Relocation.Factors

variable {s : Store} {roots : List Value} {σ ρ τ : Relocation} (h : Factors s roots σ ρ τ)

include h

set_option linter.unusedSectionVars false in
mutual

theorem value : ∀ v : Value, s.Reaches roots v → (v.moved σ).moved ρ = v.moved τ
  | .tuple vs, hv => by
    rw [Value.moved, Value.moved, Value.moved, values vs fun v hmem => .part hv hmem]
  | .slice a b c, hv => by
    simp only [Value.moved]
    rw [value a (.part hv (by simp [Value.parts])), value b (.part hv (by simp [Value.parts])),
      value c (.part hv (by simp [Value.parts]))]
  | .method v _, hv => by
    simp only [Value.moved]
    rw [value v (.part hv (by simp [Value.parts]))]
  | .list p, hv => congrArg Value.list (h.lists p hv)
  | .dict p, hv => congrArg Value.dict (h.dicts p hv)
  | .set p, hv => congrArg Value.set (h.sets p hv)
  | .cursor p, hv => congrArg Value.cursor (h.cursors p hv)
  | .view kind p, hv => congrArg (Value.view kind) (h.dicts p (.part hv (by simp [Value.parts])))
  | .legend p, hv => congrArg Value.legend (h.legends p hv)
  | .metadata p, hv => congrArg Value.metadata (h.metadata p hv)
  | .none, _ | .bool _, _ | .int _, _ | .float _, _ | .complex .., _ | .text _, _ | .bytes _, _ | .date _, _
  | .moment _, _ | .ellipsis, _ | .range .., _ | .builtin _, _ | .helper _, _ | .foreignType _, _ | .typeMethod .., _
  | .classMethod .., _ | .typeField .., _ => rfl

theorem values : ∀ vs : List Value, (∀ v ∈ vs, s.Reaches roots v) →
    Value.movedAll ρ (Value.movedAll σ vs) = Value.movedAll τ vs
  | [], _ => rfl
  | v :: vs, hvs => by
    rw [Value.movedAll, Value.movedAll, Value.movedAll, value v (hvs v List.mem_cons_self),
      values vs fun u hu => hvs u (List.mem_cons_of_mem _ hu)]

end

theorem list {vs : List Value} (hvs : ∀ v ∈ vs, s.Reaches roots v) :
    (vs.map (Value.moved σ)).map (Value.moved ρ) = vs.map (Value.moved τ) := by
  rw [← Value.movedAll_eq_map, ← Value.movedAll_eq_map, ← Value.movedAll_eq_map, h.values vs hvs]

theorem fields {fields : List (String × Value)} (hfields : ∀ f ∈ fields, s.Reaches roots f.2) :
    movedFields ρ (movedFields σ fields) = movedFields τ fields := by
  unfold movedFields
  rw [List.map_map]
  exact List.map_congr_left fun f hf => congrArg (f.1, ·) (h.value f.2 (hfields f hf))

theorem entries {es : Entries} (hes : ∀ e ∈ es, s.Reaches roots e.1 ∧ s.Reaches roots e.2) :
    (es.moved σ).moved ρ = es.moved τ := by
  unfold Entries.moved
  rw [List.map_map]
  exact List.map_congr_left fun e he => Prod.ext (h.value e.1 (hes e he).1) (h.value e.2 (hes e he).2)

theorem cursor {c : Cursor} (hc : ∀ v ∈ c.parts, s.Reaches roots v) : (c.moved σ).moved ρ = c.moved τ := by
  cases c with
  | list p next => exact congrArg (Cursor.list · next) (h.lists p (hc _ (by simp [Cursor.parts])))
  | listBack p left => exact congrArg (Cursor.listBack · left) (h.lists p (hc _ (by simp [Cursor.parts])))
  | dict kind p next size =>
    exact congrArg (Cursor.dict kind · next size) (h.dicts p (hc _ (by simp [Cursor.parts])))
  | dictBack kind p left size =>
    exact congrArg (Cursor.dictBack kind · left size) (h.dicts p (hc _ (by simp [Cursor.parts])))
  | items type rest => exact congrArg (Cursor.items type) (h.list hc)
  | enumerate inner count =>
    exact congrArg (Cursor.enumerate · count) (h.cursors inner (hc _ (by simp [Cursor.parts])))
  | zip inner strict =>
    refine congrArg (Cursor.zip · strict) ?_
    rw [List.map_map]
    exact List.map_congr_left fun p hp => h.cursors p (hc _ (List.mem_map_of_mem hp))
  | range | done => rfl

theorem legend {p : Nat} (hp : s.Reaches roots (.legend p)) :
    ((s.legend p).moved σ).moved ρ = (s.legend p).moved τ := by
  have hextras := h.fields fun f hf => .part hp (List.mem_map_of_mem hf)
  unfold Legend.moved
  rw [hextras]

theorem metadataAt {p : Nat} (hp : s.Reaches roots (.metadata p)) :
    ((s.metadataAt p).moved σ).moved ρ = (s.metadataAt p).moved τ := by
  have hfiles := h.lists _ (.part hp List.mem_cons_self)
  have hextras := h.fields fun f hf => .part hp (List.mem_cons_of_mem _ (List.mem_map_of_mem hf))
  unfold Metadata.moved
  rw [hextras, hfiles]

end Relocation.Factors

/-! ## Numbering places -/

/-- The number of a place among `ps`; other places come behind. -/
def numberIn (ps : List Nat) (p : Nat) : Nat := if p ∈ ps then ps.idxOf p else ps.length + p

/-- The place with a number among `ps`; behind them come the places from `size` on. -/
def placeAt (ps : List Nat) (size n : Nat) : Nat := ps[n]?.getD (size + (n - ps.length))

section Numbering

variable {ps : List Nat} {size : Nat}

theorem numberIn_inj {p q : Nat} : numberIn ps p = numberIn ps q ↔ p = q := by
  refine ⟨fun h => ?_, congrArg _⟩
  unfold numberIn at h
  split at h
  · rename_i hp
    have hlt := List.idxOf_lt_length_of_mem hp
    split at h
    · exact (List.idxOf_inj hp).1 h
    · omega
  · split at h
    · rename_i hq
      have hlt := List.idxOf_lt_length_of_mem hq
      omega
    · omega

theorem placeAt_of_lt {n : Nat} (h : n < ps.length) : placeAt ps size n = ps[n] := by
  rw [placeAt, List.getElem?_eq_getElem h, Option.getD_some]

theorem placeAt_length_add (n : Nat) : placeAt ps size (ps.length + n) = size + n := by
  rw [placeAt, List.getElem?_eq_none (Nat.le_add_right _ _), Option.getD_none, Nat.add_sub_cancel_left]

theorem placeAt_inj (hnodup : ps.Nodup) (hlt : ∀ p ∈ ps, p < size) {m n : Nat} :
    placeAt ps size m = placeAt ps size n ↔ m = n := by
  refine ⟨fun h => ?_, congrArg _⟩
  rcases Nat.lt_or_ge m ps.length with hm | hm <;> rcases Nat.lt_or_ge n ps.length with hn | hn
  · rw [placeAt_of_lt hm, placeAt_of_lt hn] at h
    exact (List.Nodup.getElem_inj_iff hnodup).1 h
  · obtain ⟨k, rfl⟩ := Nat.exists_eq_add_of_le hn
    rw [placeAt_of_lt hm, placeAt_length_add] at h
    have := hlt _ (List.getElem_mem hm)
    omega
  · obtain ⟨k, rfl⟩ := Nat.exists_eq_add_of_le hm
    rw [placeAt_of_lt hn, placeAt_length_add] at h
    have := hlt _ (List.getElem_mem hn)
    omega
  · obtain ⟨k, rfl⟩ := Nat.exists_eq_add_of_le hm
    obtain ⟨l, rfl⟩ := Nat.exists_eq_add_of_le hn
    rw [placeAt_length_add, placeAt_length_add] at h
    omega

/-- The places of a copy have the numbers of those of the original. -/
theorem placeAt_numberIn (f : Nat → Nat) {p : Nat} (h : p ∈ ps) : placeAt (ps.map f) size (numberIn ps p) = f p := by
  have hlt := List.idxOf_lt_length_of_mem h
  rw [numberIn, if_pos h, placeAt_of_lt (by rwa [List.length_map]), List.getElem_map, List.getElem_idxOf hlt]

end Numbering

/-! ## Copies -/

/-- What is reached from `roots` in `s` has a copy in `s'`, at the places that `φ` says. -/
structure Store.CopiedTo (s : Store) (roots : List Value) (φ : Relocation) (s' : Store) : Prop where
  lists : ∀ p, s.Reaches roots (.list p) →
    p < s.lists.size ∧ φ.lists p < s'.lists.size ∧ s'.list (φ.lists p) = (s.list p).map (Value.moved φ)
  dicts : ∀ p, s.Reaches roots (.dict p) →
    p < s.dicts.size ∧ φ.dicts p < s'.dicts.size ∧ s'.dict (φ.dicts p) = (s.dict p).moved φ
  sets : ∀ p, s.Reaches roots (.set p) →
    p < s.sets.size ∧ φ.sets p < s'.sets.size ∧ s'.set (φ.sets p) = (s.set p).map (Value.moved φ)
  cursors : ∀ p, s.Reaches roots (.cursor p) →
    p < s.cursors.size ∧ φ.cursors p < s'.cursors.size ∧ s'.cursor (φ.cursors p) = (s.cursor p).moved φ
  legends : ∀ p, s.Reaches roots (.legend p) →
    p < s.legends.size ∧ φ.legends p < s'.legends.size ∧ s'.legend (φ.legends p) = (s.legend p).moved φ
  metadata : ∀ p, s.Reaches roots (.metadata p) →
    p < s.metadata.size ∧ φ.metadata p < s'.metadata.size ∧ s'.metadataAt (φ.metadata p) = (s.metadataAt p).moved φ

/-- Everything that is reached from `roots` in `s` is as it was in `s'`. -/
abbrev Store.Unaltered (s : Store) (roots : List Value) (s' : Store) : Prop := s.CopiedTo roots .refl s'

namespace Store

variable {s s' : Store} {roots others : List Value} {φ : Relocation}

theorem Reaches.trans {v : Value} (h : s.Reaches roots v) (hroots : ∀ u ∈ roots, s.Reaches others u) :
    s.Reaches others v := by
  induction h with
  | root hmem => exact hroots _ hmem
  | part _ hpart ih => exact .part ih hpart

/-- A root is reached itself, or from its parts and the other roots. -/
theorem Reaches.cases_cons {u v : Value} (h : s.Reaches (u :: roots) v) :
    v = u ∨ s.Reaches (u.parts s ++ roots) v := by
  induction h with
  | root hmem =>
    rcases List.mem_cons.1 hmem with rfl | hmem
    · exact .inl rfl
    · exact .inr (.root (List.mem_append_right _ hmem))
  | part _ hpart ih =>
    rcases ih with rfl | ih
    · exact .inr (.root (List.mem_append_left _ hpart))
    · exact .inr (.part ih hpart)

/-- Fewer values have a copy where more of them have one. -/
theorem CopiedTo.mono (h : s.CopiedTo roots φ s') (hroots : ∀ u ∈ others, s.Reaches roots u) :
    s.CopiedTo others φ s' where
  lists p hp := h.lists p (hp.trans hroots)
  dicts p hp := h.dicts p (hp.trans hroots)
  sets p hp := h.sets p (hp.trans hroots)
  cursors p hp := h.cursors p (hp.trans hroots)
  legends p hp := h.legends p (hp.trans hroots)
  metadata p hp := h.metadata p (hp.trans hroots)

/-- What has a copy at all is there itself. -/
theorem CopiedTo.self (h : s.CopiedTo roots φ s') : s.CopiedTo roots .refl s where
  lists p hp := ⟨(h.lists p hp).1, (h.lists p hp).1, (Value.map_moved_refl _).symm⟩
  dicts p hp := ⟨(h.dicts p hp).1, (h.dicts p hp).1, (Entries.moved_refl _).symm⟩
  sets p hp := ⟨(h.sets p hp).1, (h.sets p hp).1, (Value.map_moved_refl _).symm⟩
  cursors p hp := ⟨(h.cursors p hp).1, (h.cursors p hp).1, (Cursor.moved_refl _).symm⟩
  legends p hp := ⟨(h.legends p hp).1, (h.legends p hp).1, (Legend.moved_refl _).symm⟩
  metadata p hp := ⟨(h.metadata p hp).1, (h.metadata p hp).1, (Metadata.moved_refl _).symm⟩

/-- A mapping has a copy if its parts have one, and its entries are those of the copy. -/
theorem CopiedTo.consDict {p : Nat} (h : s.CopiedTo ((Value.dict p).parts s ++ roots) φ s') (hp : p < s.dicts.size)
    (hp' : φ.dicts p < s'.dicts.size) (hentries : s'.dict (φ.dicts p) = (s.dict p).moved φ) :
    s.CopiedTo (.dict p :: roots) φ s' where
  lists q hq := h.lists q (hq.cases_cons.resolve_left nofun)
  dicts q hq := by
    rcases hq.cases_cons with heq | hq
    · cases heq
      exact ⟨hp, hp', hentries⟩
    · exact h.dicts q hq
  sets q hq := h.sets q (hq.cases_cons.resolve_left nofun)
  cursors q hq := h.cursors q (hq.cases_cons.resolve_left nofun)
  legends q hq := h.legends q (hq.cases_cons.resolve_left nofun)
  metadata q hq := h.metadata q (hq.cases_cons.resolve_left nofun)

end Store

open Classical in
/-- The places below `size` with a property, in their order. -/
noncomputable def placesBelow (size : Nat) (P : Nat → Prop) : List Nat :=
  (List.range size).filter fun p => decide (P p)

theorem mem_placesBelow {size : Nat} {P : Nat → Prop} {p : Nat} : p ∈ placesBelow size P ↔ p < size ∧ P p := by
  simp [placesBelow]

theorem nodup_placesBelow (size : Nat) (P : Nat → Prop) : (placesBelow size P).Nodup :=
  List.nodup_range.filter _

namespace Store

variable (s : Store) (roots : List Value)

noncomputable def reachedLists : List Nat := placesBelow s.lists.size fun p => s.Reaches roots (.list p)

noncomputable def reachedDicts : List Nat := placesBelow s.dicts.size fun p => s.Reaches roots (.dict p)

noncomputable def reachedSets : List Nat := placesBelow s.sets.size fun p => s.Reaches roots (.set p)

noncomputable def reachedCursors : List Nat := placesBelow s.cursors.size fun p => s.Reaches roots (.cursor p)

noncomputable def reachedLegends : List Nat := placesBelow s.legends.size fun p => s.Reaches roots (.legend p)

noncomputable def reachedMetadata : List Nat := placesBelow s.metadata.size fun p => s.Reaches roots (.metadata p)

/-- The places that are reached, by their numbers. -/
noncomputable def numbering : Relocation where
  lists := numberIn (s.reachedLists roots)
  dicts := numberIn (s.reachedDicts roots)
  sets := numberIn (s.reachedSets roots)
  cursors := numberIn (s.reachedCursors roots)
  legends := numberIn (s.reachedLegends roots)
  metadata := numberIn (s.reachedMetadata roots)
  lists_inj := numberIn_inj
  dicts_inj := numberIn_inj
  sets_inj := numberIn_inj
  cursors_inj := numberIn_inj
  legends_inj := numberIn_inj
  metadata_inj := numberIn_inj

/-- What is reached, in a store of its own. -/
noncomputable def extract : Store where
  lists := ((s.reachedLists roots).map fun p => (s.list p).map (Value.moved (s.numbering roots))).toArray
  dicts := ((s.reachedDicts roots).map fun p => (s.dict p).moved (s.numbering roots)).toArray
  sets := ((s.reachedSets roots).map fun p => (s.set p).map (Value.moved (s.numbering roots))).toArray
  cursors := ((s.reachedCursors roots).map fun p => (s.cursor p).moved (s.numbering roots)).toArray
  legends := ((s.reachedLegends roots).map fun p => (s.legend p).moved (s.numbering roots)).toArray
  metadata := ((s.reachedMetadata roots).map fun p => (s.metadataAt p).moved (s.numbering roots)).toArray

end Store

/-- Distinct places of a store have distinct places in a copy. -/
theorem placeAt_map_inj {f : Nat → Nat} (hf : ∀ {p q}, f p = f q ↔ p = q) {size size' : Nat} {P : Nat → Prop}
    (h : ∀ p, P p → f p < size') {m n : Nat} :
    placeAt ((placesBelow size P).map f) size' m = placeAt ((placesBelow size P).map f) size' n ↔ m = n := by
  refine placeAt_inj ((nodup_placesBelow size P).map fun _ _ => hf.1) fun q hq => ?_
  obtain ⟨p, hp, rfl⟩ := List.mem_map.1 hq
  exact h p (mem_placesBelow.1 hp).2

/-- What numbered places hold is found at their copies: `held` in the original and `held'` in the copy. -/
theorem held_placeAt {γ : Type} {ps : List Nat} {f : Nat → Nat} {size : Nat} {held held' : Nat → γ} {g k t : γ → γ}
    {d : γ} (hcopy : ∀ p ∈ ps, held' (f p) = t (held p)) (hfactor : ∀ p ∈ ps, k (g (held p)) = t (held p))
    (hfree : ∀ n, held' (size + n) = k d) (n : Nat) :
    held' (placeAt (ps.map f) size n) = k ((ps.map fun p => g (held p)).toArray[n]?.getD d) := by
  rcases Nat.lt_or_ge n ps.length with hn | hn
  · have hmem := List.getElem_mem hn
    rw [placeAt_of_lt (by rwa [List.length_map]), List.getElem_map, hcopy _ hmem, ← hfactor _ hmem,
      List.getElem?_toArray, List.getElem?_map, List.getElem?_eq_getElem hn, Option.map_some, Option.getD_some]
  · obtain ⟨m, rfl⟩ := Nat.exists_eq_add_of_le hn
    have hplace : placeAt (ps.map f) size ((ps.map f).length + m) = size + m := placeAt_length_add m
    rw [List.length_map] at hplace
    rw [hplace, hfree, List.getElem?_toArray, List.getElem?_map, List.getElem?_eq_none (Nat.le_add_right _ _),
      Option.map_none, Option.getD_none]

/-- The free places behind numbered ones. -/
theorem placeAt_size_add {γ : Type} (ps : List Nat) (f : Nat → Nat) (g : Nat → γ) (size n : Nat) :
    placeAt (ps.map f) size ((ps.map g).toArray.size + n) = size + n := by
  have hplace : placeAt (ps.map f) size ((ps.map f).length + n) = size + n := placeAt_length_add n
  rw [List.length_map] at hplace
  rwa [List.size_toArray, List.length_map]

namespace Store.CopiedTo

variable {s s' : Store} {roots : List Value} {φ : Relocation} (h : s.CopiedTo roots φ s')

/-- Where the numbered places are found in the copy. -/
noncomputable def spread : Relocation where
  lists := placeAt ((s.reachedLists roots).map φ.lists) s'.lists.size
  dicts := placeAt ((s.reachedDicts roots).map φ.dicts) s'.dicts.size
  sets := placeAt ((s.reachedSets roots).map φ.sets) s'.sets.size
  cursors := placeAt ((s.reachedCursors roots).map φ.cursors) s'.cursors.size
  legends := placeAt ((s.reachedLegends roots).map φ.legends) s'.legends.size
  metadata := placeAt ((s.reachedMetadata roots).map φ.metadata) s'.metadata.size
  lists_inj := placeAt_map_inj φ.lists_inj fun p hp => (h.lists p hp).2.1
  dicts_inj := placeAt_map_inj φ.dicts_inj fun p hp => (h.dicts p hp).2.1
  sets_inj := placeAt_map_inj φ.sets_inj fun p hp => (h.sets p hp).2.1
  cursors_inj := placeAt_map_inj φ.cursors_inj fun p hp => (h.cursors p hp).2.1
  legends_inj := placeAt_map_inj φ.legends_inj fun p hp => (h.legends p hp).2.1
  metadata_inj := placeAt_map_inj φ.metadata_inj fun p hp => (h.metadata p hp).2.1

include h

/-- By number and from there to the copy is to the copy at once. -/
theorem factors : Relocation.Factors s roots (s.numbering roots) h.spread φ where
  lists p hp := placeAt_numberIn φ.lists (mem_placesBelow.2 ⟨(h.lists p hp).1, hp⟩)
  dicts p hp := placeAt_numberIn φ.dicts (mem_placesBelow.2 ⟨(h.dicts p hp).1, hp⟩)
  sets p hp := placeAt_numberIn φ.sets (mem_placesBelow.2 ⟨(h.sets p hp).1, hp⟩)
  cursors p hp := placeAt_numberIn φ.cursors (mem_placesBelow.2 ⟨(h.cursors p hp).1, hp⟩)
  legends p hp := placeAt_numberIn φ.legends (mem_placesBelow.2 ⟨(h.legends p hp).1, hp⟩)
  metadata p hp := placeAt_numberIn φ.metadata (mem_placesBelow.2 ⟨(h.metadata p hp).1, hp⟩)

/-- What is reached fits every store that it has a copy in. -/
theorem fits : h.spread.Fits (s.extract roots) s' where
  list := held_placeAt (k := List.map (Value.moved h.spread)) (fun p hp => (h.lists p (mem_placesBelow.1 hp).2).2.2)
    (fun p hp => h.factors.list fun _ hv => .part (mem_placesBelow.1 hp).2 hv) fun n => by simp [Store.list]
  dict := by
    refine held_placeAt (k := Entries.moved h.spread) (fun p hp => (h.dicts p (mem_placesBelow.1 hp).2).2.2)
      (fun p hp => h.factors.entries fun e he => ?_) fun n => by simp [Store.dict, Entries.moved]
    exact ⟨.part (mem_placesBelow.1 hp).2 (List.mem_flatMap.2 ⟨e, he, by simp⟩),
      .part (mem_placesBelow.1 hp).2 (List.mem_flatMap.2 ⟨e, he, by simp⟩)⟩
  set := held_placeAt (k := List.map (Value.moved h.spread)) (fun p hp => (h.sets p (mem_placesBelow.1 hp).2).2.2)
    (fun p hp => h.factors.list fun _ hv => .part (mem_placesBelow.1 hp).2 hv) fun n => by simp [Store.set]
  cursor := held_placeAt (k := Cursor.moved h.spread) (fun p hp => (h.cursors p (mem_placesBelow.1 hp).2).2.2)
    (fun p hp => h.factors.cursor fun _ hv => .part (mem_placesBelow.1 hp).2 hv) fun n => by
      simp [Store.cursor, Cursor.moved]
  legend := held_placeAt (k := Legend.moved h.spread) (fun p hp => (h.legends p (mem_placesBelow.1 hp).2).2.2)
    (fun p hp => h.factors.legend (mem_placesBelow.1 hp).2) fun n => by
      simp only [Store.legend, Array.getElem?_eq_none (Nat.le_add_right _ _), Option.getD_none]
      rfl
  metadata := held_placeAt (k := Metadata.moved h.spread) (fun p hp => (h.metadata p (mem_placesBelow.1 hp).2).2.2)
    (fun p hp => h.factors.metadataAt (mem_placesBelow.1 hp).2) fun n => by
      have hfiles : h.spread.lists ((s.extract roots).lists.size + 0) = s'.lists.size := placeAt_size_add _ _ _ _ _
      simp only [Store.metadataAt, Array.getElem?_eq_none (Nat.le_add_right _ _), Option.getD_none, Metadata.moved]
      exact congrArg (fun files => ({ files } : Metadata)) hfiles.symm
  freeLists := placeAt_size_add _ _ _ _
  freeDicts := placeAt_size_add _ _ _ _
  freeSets := placeAt_size_add _ _ _ _
  freeCursors := placeAt_size_add _ _ _ _
  freeLegends := placeAt_size_add _ _ _ _
  freeMetadata := placeAt_size_add _ _ _ _

/-- A copy holds the copies of what the original holds. -/
theorem parts_moved {v : Value} (hv : s.Reaches roots v) : (v.moved φ).parts s' = (v.parts s).map (Value.moved φ) := by
  cases v with
  | tuple vs => exact Value.movedAll_eq_map φ vs
  | list p => exact (h.lists p hv).2.2
  | dict p =>
    simp only [Value.moved, Value.parts, (h.dicts p hv).2.2, Entries.moved, List.flatMap_map, List.map_flatMap,
      List.map_cons, List.map_nil]
  | set p => exact (h.sets p hv).2.2
  | cursor p =>
    simp only [Value.moved, Value.parts, (h.cursors p hv).2.2]
    cases s.cursor p with
    | zip inner _ => simp [Cursor.moved, Cursor.parts, Value.moved]
    | list | listBack | dict | dictBack | range | items | enumerate | done => rfl
  | legend p =>
    simp only [Value.moved, Value.parts, (h.legends p hv).2.2, Legend.moved, movedFields, List.map_map]
    rfl
  | metadata p =>
    simp only [Value.moved, Value.parts, (h.metadata p hv).2.2, Metadata.moved, movedFields, List.map_map, List.map_cons]
    rfl
  | slice | view | method | none | bool | int | float | complex | text | bytes | date | moment | ellipsis | range
  | builtin | helper | foreignType | typeMethod | classMethod | typeField => rfl

/-- What is reached from the copies of the roots is a copy of what is reached. -/
theorem reaches {u : Value} (hu : s'.Reaches (roots.map (Value.moved φ)) u) :
    ∃ v, s.Reaches roots v ∧ u = v.moved φ := by
  induction hu with
  | root hmem =>
    obtain ⟨v, hv, rfl⟩ := List.mem_map.1 hmem
    exact ⟨v, .root hv, rfl⟩
  | part _ hpart ih =>
    obtain ⟨v, hv, rfl⟩ := ih
    rw [h.parts_moved hv] at hpart
    obtain ⟨part, hmem, rfl⟩ := List.mem_map.1 hpart
    exact ⟨part, .part hv hmem, rfl⟩

/-- A mapping that nothing is copied to is not among the places of the copy. -/
theorem spread_ne {q : Nat} (hq : q < s'.dicts.size) (hnot : ∀ p, s.Reaches roots (.dict p) → φ.dicts p ≠ q) (n : Nat) :
    h.spread.dicts n ≠ q := by
  have hspread : h.spread.dicts n = placeAt ((s.reachedDicts roots).map φ.dicts) s'.dicts.size n := rfl
  rw [hspread]
  rcases Nat.lt_or_ge n ((s.reachedDicts roots).map φ.dicts).length with hn | hn
  · rw [placeAt_of_lt hn]
    obtain ⟨p, hp, hplace⟩ := List.mem_map.1 (List.getElem_mem hn)
    rw [← hplace]
    exact hnot p (mem_placesBelow.1 hp).2
  · obtain ⟨k, rfl⟩ := Nat.exists_eq_add_of_le hn
    rw [placeAt_length_add]
    omega

end Store.CopiedTo

end NestedSite
