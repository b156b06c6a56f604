import NestedSite.Proofs.Relocation.Keeping
import NestedSite.Proofs.Store.Keys

/-!
# Well-formed stores

A store is well-formed (`Store.WellFormed`) if all that it holds is found at places in use, and no two keys of a mapping
mean one entry. It stays so when it grows, if what the new places hold is found at places in use
(`Store.WellFormed.grow`), and when a computation that was started in the empty world leaves its places behind it
(`Store.WellFormed.behind`).
-/

namespace NestedSite

variable {r r' : Region} {ρ : Relocation} {s t u : Store}

/-! ## Values that are moved into a region -/

/-- The places of a region are found in another one. -/
structure Relocation.LeadsInto (ρ : Relocation) (r r' : Region) : Prop where
  lists : ∀ p, r.lists p → r'.lists (ρ.lists p)
  dicts : ∀ p, r.dicts p → r'.dicts (ρ.dicts p)
  sets : ∀ p, r.sets p → r'.sets (ρ.sets p)
  cursors : ∀ p, r.cursors p → r'.cursors (ρ.cursors p)
  held : ∀ p, r.held p → r'.held (ρ.cursors p)
  legends : ∀ p, r.legends p → r'.legends (ρ.legends p)
  metadata : ∀ p, r.metadata p → r'.metadata (ρ.metadata p)
  bound : ∀ name, r.bound name → r'.bound name
  helpers : ∀ h, r.helpers h → r'.helpers h

mutual

theorem Value.In.moved (h : ρ.LeadsInto r r') : ∀ {v : Value}, v.In r → (v.moved ρ).In r'
  | .tuple _, hv => Value.AllIn.moved h hv
  | .slice .., hv => ⟨Value.In.moved h hv.1, Value.In.moved h hv.2.1, Value.In.moved h hv.2.2⟩
  | .method v _, hv => ⟨Value.In.moved h hv.1, fun hmapping => h.bound _ (hv.2 (by cases v <;> exact hmapping))⟩
  | .list p, hv => h.lists p hv
  | .dict p, hv => h.dicts p hv
  | .set p, hv => h.sets p hv
  | .cursor p, hv => h.held p hv
  | .view _ p, hv => h.dicts p hv
  | .legend p, hv => h.legends p hv
  | .metadata p, hv => h.metadata p hv
  | .helper k, hv => h.helpers k hv
  | .none, _ | .bool _, _ | .int _, _ | .float _, _ | .complex .., _ | .text _, _ | .bytes _, _ | .date _, _
  | .moment _, _ | .ellipsis, _ | .range .., _ | .builtin _, _ | .foreignType _, _ | .typeMethod .., _
  | .classMethod .., _ | .typeField .., _ => trivial

theorem Value.AllIn.moved (h : ρ.LeadsInto r r') :
    ∀ {vs : List Value}, Value.AllIn r vs → Value.AllIn r' (Value.movedAll ρ vs)
  | [], _ => trivial
  | _ :: _, hvs => ⟨Value.In.moved h hvs.1, Value.AllIn.moved h hvs.2⟩

end

namespace Relocation.LeadsInto

variable (h : ρ.LeadsInto r r')

include h

theorem values {vs : List Value} (hvs : ∀ v ∈ vs, v.In r) : ∀ v ∈ vs.map (Value.moved ρ), v.In r' := by
  intro v hv
  obtain ⟨u, hu, rfl⟩ := List.mem_map.1 hv
  exact (hvs u hu).moved h

theorem entries {es : Entries} (hes : es.In r) : (es.moved ρ).In r' := by
  intro e he
  obtain ⟨f, hf, rfl⟩ := List.mem_map.1 he
  exact ⟨(hes f hf).1.moved h, (hes f hf).2.moved h⟩

theorem fields {fields : List (String × Value)} (hfields : FieldsIn r fields) : FieldsIn r' (movedFields ρ fields) := by
  intro f hf
  obtain ⟨g, hg, rfl⟩ := List.mem_map.1 hf
  exact (hfields g hg).moved h

theorem cursor {c : Cursor} (hc : c.In r) : (c.moved ρ).In r' := by
  cases c with
  | list p _ | listBack p _ => exact h.lists p hc
  | dict _ p _ _ | dictBack _ p _ _ => exact h.dicts p hc
  | items _ rest => exact h.values hc
  | enumerate inner _ => exact h.cursors inner hc
  | zip inner _ =>
    intro p hp
    obtain ⟨q, hq, rfl⟩ := List.mem_map.1 hp
    exact h.cursors q (hc q hq)
  | range | done => trivial

theorem legend {l : Legend} (hl : l.In r) : (l.moved ρ).In r' := ⟨h.fields hl.extras⟩

theorem metadataOf {m : Metadata} (hm : m.In r) : (m.moved ρ).In r' := ⟨h.lists _ hm.files, h.fields hm.extras⟩

end Relocation.LeadsInto

/-- Distinct keys stay distinct when their places are moved. -/
theorem Entries.Distinct.moved {es : Entries} (h : es.Distinct) : (es.moved ρ).Distinct := by
  rw [Distinct, Entries.keys_moved, List.pairwise_map]
  simpa [Distinct] using h

/-! ## Places in use -/

/-- What holds at the places that there were, and at those that came, holds at all places. -/
theorem Found.split {α : Type} {n n' : Nat} {look look' : Nat → α} (h : Found id id n n' look look') {P : α → Prop}
    (old : ∀ p < n, P (look p)) (new : ∀ p < n', n ≤ p → P (look' p)) : ∀ p < n', P (look' p) := by
  intro p hp
  rcases Nat.lt_or_ge p n with hold | hnew
  · have hlook : look' p = look p := (h p hold).2
    exact hlook ▸ old p hold
  · exact new p hp hnew

/-- The region of the places in use. -/
def Store.inUse (s : Store) : Region where
  lists p := p < s.lists.size
  dicts p := p < s.dicts.size
  sets p := p < s.sets.size
  cursors p := p < s.cursors.size
  legends p := p < s.legends.size
  metadata p := p < s.metadata.size
  bound _ := True
  bound_safe _ _ := trivial
  floor := 0

/-- Places in use are found at places in use. -/
theorem Relocation.Carries.leadsInto (h : ρ.Carries s t) : ρ.LeadsInto s.inUse t.inUse where
  lists p hp := (h.lists p hp).1
  dicts p hp := (h.dicts p hp).1
  sets p hp := (h.sets p hp).1
  cursors p hp := (h.cursors p hp).1
  held p hp := (h.cursors p hp).1
  legends p hp := (h.legends p hp).1
  metadata p hp := (h.metadata p hp).1
  bound _ _ := trivial
  helpers _ _ := trivial

namespace Store

/-- All that is held is found at places in use, and no two keys of a mapping mean one entry. -/
structure WellFormed (s : Store) : Prop where
  lists : ∀ p < s.lists.size, ∀ v ∈ s.list p, v.In s.inUse
  dicts : ∀ p < s.dicts.size, (s.dict p).In s.inUse ∧ (s.dict p).Distinct
  sets : ∀ p < s.sets.size, ∀ v ∈ s.set p, v.In s.inUse
  cursors : ∀ p < s.cursors.size, (s.cursor p).In s.inUse
  legends : ∀ p < s.legends.size, (s.legend p).In s.inUse
  metadata : ∀ p < s.metadata.size, (s.metadataAt p).In s.inUse

theorem empty_wellFormed : ({} : Store).WellFormed where
  lists p hp := absurd hp (Nat.not_lt_zero p)
  dicts p hp := absurd hp (Nat.not_lt_zero p)
  sets p hp := absurd hp (Nat.not_lt_zero p)
  cursors p hp := absurd hp (Nat.not_lt_zero p)
  legends p hp := absurd hp (Nat.not_lt_zero p)
  metadata p hp := absurd hp (Nat.not_lt_zero p)

/-- Places in use stay in use. -/
theorem Keeps.leadsInto (h : s.Keeps t) : Relocation.refl.LeadsInto s.inUse t.inUse where
  lists p hp := (h.lists p hp).1
  dicts p hp := (h.dicts p hp).1
  sets p hp := (h.sets p hp).1
  cursors p hp := (h.cursors p hp).1
  held p hp := (h.cursors p hp).1
  legends p hp := (h.legends p hp).1
  metadata p hp := (h.metadata p hp).1
  bound _ _ := trivial
  helpers _ _ := trivial

theorem Keeps.value (h : s.Keeps t) {v : Value} (hv : v.In s.inUse) : v.In t.inUse := by
  simpa using hv.moved h.leadsInto

theorem Keeps.entries (h : s.Keeps t) {es : Entries} (hes : es.In s.inUse) : es.In t.inUse := by
  simpa using h.leadsInto.entries hes

/-- No cursors, legends and metadata have come. -/
structure SameRecords (s t : Store) : Prop where
  cursors : t.cursors.size = s.cursors.size
  legends : t.legends.size = s.legends.size
  metadata : t.metadata.size = s.metadata.size

theorem SameRecords.refl (s : Store) : s.SameRecords s := ⟨rfl, rfl, rfl⟩

theorem SameRecords.trans (h : s.SameRecords t) (k : t.SameRecords u) : s.SameRecords u :=
  ⟨k.cursors.trans h.cursors, k.legends.trans h.legends, k.metadata.trans h.metadata⟩

/-- If none came about in the empty world, none have come behind a store. -/
theorem SameRecords.behind (h : ({} : Store).SameRecords u) (hfits : (Relocation.behind s).Fits u t) :
    s.SameRecords t where
  cursors := by
    have hfree := hfits.freeCursors 0
    rw [h.cursors] at hfree
    exact hfree.symm
  legends := by
    have hfree := hfits.freeLegends 0
    rw [h.legends] at hfree
    exact hfree.symm
  metadata := by
    have hfree := hfits.freeMetadata 0
    rw [h.metadata] at hfree
    exact hfree.symm

namespace WellFormed

/-- A store that keeps what there was may hold more, if that is found at places in use. -/
theorem grow (hs : s.WellFormed) (h : s.Keeps t)
    (lists : ∀ p < t.lists.size, s.lists.size ≤ p → ∀ v ∈ t.list p, v.In t.inUse)
    (dicts : ∀ p < t.dicts.size, s.dicts.size ≤ p → (t.dict p).In t.inUse ∧ (t.dict p).Distinct)
    (sets : ∀ p < t.sets.size, s.sets.size ≤ p → ∀ v ∈ t.set p, v.In t.inUse)
    (cursors : ∀ p < t.cursors.size, s.cursors.size ≤ p → (t.cursor p).In t.inUse)
    (legends : ∀ p < t.legends.size, s.legends.size ≤ p → (t.legend p).In t.inUse)
    (metadata : ∀ p < t.metadata.size, s.metadata.size ≤ p → (t.metadataAt p).In t.inUse) : t.WellFormed where
  lists := h.lists.split (P := fun vs => ∀ v ∈ vs, v.In t.inUse)
    (fun p hp => by simpa using h.leadsInto.values (hs.lists p hp)) lists
  dicts := h.dicts.split (P := fun es => es.In t.inUse ∧ es.Distinct)
    (fun p hp => ⟨h.entries (hs.dicts p hp).1, (hs.dicts p hp).2⟩) dicts
  sets := h.sets.split (P := fun vs => ∀ v ∈ vs, v.In t.inUse)
    (fun p hp => by simpa using h.leadsInto.values (hs.sets p hp)) sets
  cursors := h.cursors.split (fun p hp => by simpa using h.leadsInto.cursor (hs.cursors p hp)) cursors
  legends := h.legends.split (fun p hp => by simpa using h.leadsInto.legend (hs.legends p hp)) legends
  metadata := h.metadata.split (fun p hp => by simpa using h.leadsInto.metadataOf (hs.metadata p hp)) metadata

/-- The places that a computation leaves in the empty world may stand behind others. -/
theorem behind (hs : s.WellFormed) (hu : u.WellFormed) (h : (Relocation.behind s).Fits u t)
    (hspares : (Relocation.behind s).Spares s t) : t.WellFormed := by
  have hleads : (Relocation.behind s).LeadsInto u.inUse t.inUse := h.carries.leadsInto
  -- a place that came is one of `u`, moved
  have place {a n n' p : Nat} (free : ∀ k, a + (n + k) = n' + k) (hp : p < n') (hnew : a ≤ p) :
      ∃ q < n, a + q = p := ⟨p - a, by have := free 0; omega, by omega⟩
  refine hs.grow (h.keeps hspares) ?_ ?_ ?_ ?_ ?_ ?_
  · intro p hp hnew
    obtain ⟨q, hq, rfl⟩ := place h.freeLists hp hnew
    exact (h.list q).symm ▸ hleads.values (hu.lists q hq)
  · intro p hp hnew
    obtain ⟨q, hq, rfl⟩ := place h.freeDicts hp hnew
    exact (h.dict q).symm ▸ ⟨hleads.entries (hu.dicts q hq).1, (hu.dicts q hq).2.moved⟩
  · intro p hp hnew
    obtain ⟨q, hq, rfl⟩ := place h.freeSets hp hnew
    exact (h.set q).symm ▸ hleads.values (hu.sets q hq)
  · intro p hp hnew
    obtain ⟨q, hq, rfl⟩ := place h.freeCursors hp hnew
    exact (h.cursor q).symm ▸ hleads.cursor (hu.cursors q hq)
  · intro p hp hnew
    obtain ⟨q, hq, rfl⟩ := place h.freeLegends hp hnew
    exact (h.legend q).symm ▸ hleads.legend (hu.legends q hq)
  · intro p hp hnew
    obtain ⟨q, hq, rfl⟩ := place h.freeMetadata hp hnew
    exact (h.metadata q).symm ▸ hleads.metadataOf (hu.metadata q hq)

theorem pushDict (hs : s.WellFormed) {es : Entries} (hes : es.In s.inUse) (hdistinct : es.Distinct) :
    ({ s with dicts := s.dicts.push es } : Store).WellFormed := by
  have hkeeps := Keeps.pushDict s es
  refine hs.grow hkeeps (fun p hp hnew => absurd hp (Nat.not_lt_of_le hnew)) (fun p hp hnew => ?_)
    (fun p hp hnew => absurd hp (Nat.not_lt_of_le hnew)) (fun p hp hnew => absurd hp (Nat.not_lt_of_le hnew))
    (fun p hp hnew => absurd hp (Nat.not_lt_of_le hnew)) (fun p hp hnew => absurd hp (Nat.not_lt_of_le hnew))
  have hplace : p = s.dicts.size := by simp at hp; omega
  rw [s.dict_push, if_pos hplace]
  exact ⟨hkeeps.entries hes, hdistinct⟩

theorem pushList (hs : s.WellFormed) {vs : List Value} (hvs : ∀ v ∈ vs, v.In s.inUse) :
    ({ s with lists := s.lists.push vs } : Store).WellFormed := by
  have hkeeps := Keeps.pushList s vs
  refine hs.grow hkeeps (fun p hp hnew => ?_) (fun p hp hnew => absurd hp (Nat.not_lt_of_le hnew))
    (fun p hp hnew => absurd hp (Nat.not_lt_of_le hnew)) (fun p hp hnew => absurd hp (Nat.not_lt_of_le hnew))
    (fun p hp hnew => absurd hp (Nat.not_lt_of_le hnew)) (fun p hp hnew => absurd hp (Nat.not_lt_of_le hnew))
  have hplace : p = s.lists.size := by simp at hp; omega
  rw [s.list_push, if_pos hplace]
  exact fun v hv => hkeeps.value (hvs v hv)

theorem pushLegend (hs : s.WellFormed) {l : Legend} (hl : l.In s.inUse) :
    ({ s with legends := s.legends.push l } : Store).WellFormed := by
  have hkeeps := Keeps.pushLegend s l
  refine hs.grow hkeeps (fun p hp hnew => absurd hp (Nat.not_lt_of_le hnew))
    (fun p hp hnew => absurd hp (Nat.not_lt_of_le hnew)) (fun p hp hnew => absurd hp (Nat.not_lt_of_le hnew))
    (fun p hp hnew => absurd hp (Nat.not_lt_of_le hnew)) (fun p hp hnew => ?_)
    (fun p hp hnew => absurd hp (Nat.not_lt_of_le hnew))
  have hplace : p = s.legends.size := by simp at hp; omega
  rw [s.legend_push, if_pos hplace]
  simpa using hkeeps.leadsInto.legend hl

theorem pushMetadata (hs : s.WellFormed) {m : Metadata} (hm : m.In s.inUse) :
    ({ s with metadata := s.metadata.push m } : Store).WellFormed := by
  have hkeeps := Keeps.pushMetadata s m
  refine hs.grow hkeeps (fun p hp hnew => absurd hp (Nat.not_lt_of_le hnew))
    (fun p hp hnew => absurd hp (Nat.not_lt_of_le hnew)) (fun p hp hnew => absurd hp (Nat.not_lt_of_le hnew))
    (fun p hp hnew => absurd hp (Nat.not_lt_of_le hnew)) (fun p hp hnew => absurd hp (Nat.not_lt_of_le hnew))
    (fun p hp hnew => ?_)
  have hplace : p = s.metadata.size := by simp at hp; omega
  rw [s.metadataAt_push, if_pos hplace]
  simpa using hkeeps.leadsInto.metadataOf hm

end WellFormed

end Store

/-- What a computation does to an empty world, it does to every other. -/
theorem Moves.wellFormed {α β : Type} {f : α → β} {m : Run α} {m' : Run β} {w : World}
    (h : Moves (.behind w.store) f m m') (hw : w.store.WellFormed) (hm : (m.after {}).store.WellFormed) :
    (m'.after w).store.WellFormed :=
  hw.behind hm (h {} w (Relocation.behind_fits w.store)).2.1 (h {} w (Relocation.behind_fits w.store)).2.2

end NestedSite
