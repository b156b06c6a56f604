import NestedSite.Proofs.Store.Confined

/-!
# Places

New places, and what is written to places, keep a region as long as the values that are put there lie in it
(`Run.newList_confined`, `Run.setList_confined`, …). A mapping that is watched is only written where the relation lets
it be written (`Run.setDict_confined`).
-/

namespace NestedSite

open Region (AllowsReads AllowsEdits)

variable {r : Region} {R : World → World → Prop}

/-! ## Looking at a store after a change -/

namespace Store

variable (s : Store)

theorem list_push (items : List Value) (p : Nat) :
    ({ s with lists := s.lists.push items } : Store).list p = if p = s.lists.size then items else s.list p := by
  simp only [Store.list, Array.getElem?_push]
  split <;> rfl

theorem dict_push (entries : Entries) (p : Nat) :
    ({ s with dicts := s.dicts.push entries } : Store).dict p = if p = s.dicts.size then entries else s.dict p := by
  simp only [Store.dict, Array.getElem?_push]
  split <;> rfl

theorem set_push (items : List Value) (p : Nat) :
    ({ s with sets := s.sets.push items } : Store).set p = if p = s.sets.size then items else s.set p := by
  simp only [Store.set, Array.getElem?_push]
  split <;> rfl

theorem cursor_push (c : Cursor) (p : Nat) :
    ({ s with cursors := s.cursors.push c } : Store).cursor p = if p = s.cursors.size then c else s.cursor p := by
  simp only [Store.cursor, Array.getElem?_push]
  split <;> rfl

theorem legend_push (l : Legend) (p : Nat) :
    ({ s with legends := s.legends.push l } : Store).legend p = if p = s.legends.size then l else s.legend p := by
  simp only [Store.legend, Array.getElem?_push]
  split <;> rfl

theorem metadataAt_push (m : Metadata) (p : Nat) :
    ({ s with metadata := s.metadata.push m } : Store).metadataAt p =
      if p = s.metadata.size then m else s.metadataAt p := by
  simp only [Store.metadataAt, Array.getElem?_push]
  split <;> rfl

theorem list_setIfInBounds (place : Nat) (items : List Value) (p : Nat) :
    ({ s with lists := s.lists.setIfInBounds place items } : Store).list p =
      if p = place ∧ place < s.lists.size then items else s.list p := by
  by_cases hp : p = place
  · subst hp
    by_cases hlt : p < s.lists.size <;> simp [Store.list, hlt]
  · simp [Store.list, Array.getElem?_setIfInBounds_ne (Ne.symm hp), hp]

theorem dict_setIfInBounds (place : Nat) (entries : Entries) (p : Nat) :
    ({ s with dicts := s.dicts.setIfInBounds place entries } : Store).dict p =
      if p = place ∧ place < s.dicts.size then entries else s.dict p := by
  by_cases hp : p = place
  · subst hp
    by_cases hlt : p < s.dicts.size <;> simp [Store.dict, hlt]
  · simp [Store.dict, Array.getElem?_setIfInBounds_ne (Ne.symm hp), hp]

theorem set_setIfInBounds (place : Nat) (items : List Value) (p : Nat) :
    ({ s with sets := s.sets.setIfInBounds place items } : Store).set p =
      if p = place ∧ place < s.sets.size then items else s.set p := by
  by_cases hp : p = place
  · subst hp
    by_cases hlt : p < s.sets.size <;> simp [Store.set, hlt]
  · simp [Store.set, Array.getElem?_setIfInBounds_ne (Ne.symm hp), hp]

theorem cursor_setIfInBounds (place : Nat) (c : Cursor) (p : Nat) :
    ({ s with cursors := s.cursors.setIfInBounds place c } : Store).cursor p =
      if p = place ∧ place < s.cursors.size then c else s.cursor p := by
  by_cases hp : p = place
  · subst hp
    by_cases hlt : p < s.cursors.size <;> simp [Store.cursor, hlt]
  · simp [Store.cursor, Array.getElem?_setIfInBounds_ne (Ne.symm hp), hp]

/-- Only metadata that is not there depends on the number of lists. -/
theorem metadataAt_lists (lists : Array (List Value)) {p : Nat} (hp : p < s.metadata.size) :
    ({ s with lists } : Store).metadataAt p = s.metadataAt p := by
  simp [Store.metadataAt, hp]

end Store

/-! ## A region after a change -/

namespace Region.Holds

variable {s : Store} (hr : r.Holds s)

include hr

/-- Lists may be put in the place of the lists of a store, and more may be added. -/
theorem withLists {lists : Array (List Value)} (hle : s.lists.size ≤ lists.size)
    (h : ∀ p, r.lists p → ∀ v ∈ ({ s with lists } : Store).list p, v.In r) : r.Holds { s with lists } where
  lists := h
  dicts := hr.dicts
  sets := hr.sets
  cursors := hr.cursors
  legends := hr.legends
  metadata p hp := by
    by_cases hlt : p < s.metadata.size
    · rw [s.metadataAt_lists lists hlt]
      exact hr.metadata p hp
    · have hnone : s.metadata[p]? = none := Array.getElem?_eq_none (Nat.le_of_not_lt hlt)
      simp only [Store.metadataAt, hnone, Option.getD_none]
      exact ⟨hr.freeLists _ hle, fun f hf => absurd hf List.not_mem_nil⟩
  freeLists p hp := hr.freeLists p (Nat.le_trans hle hp)
  freeDicts := hr.freeDicts
  freeSets := hr.freeSets
  freeCursors := hr.freeCursors
  freeLegends := hr.freeLegends
  freeMetadata := hr.freeMetadata
  floor := hr.floor

theorem withDicts {dicts : Array Entries} (hle : s.dicts.size ≤ dicts.size)
    (h : ∀ p, r.dicts p → (({ s with dicts } : Store).dict p).In r) : r.Holds { s with dicts } where
  lists := hr.lists
  dicts := h
  sets := hr.sets
  cursors := hr.cursors
  legends := hr.legends
  metadata := hr.metadata
  freeLists := hr.freeLists
  freeDicts p hp := hr.freeDicts p (Nat.le_trans hle hp)
  freeSets := hr.freeSets
  freeCursors := hr.freeCursors
  freeLegends := hr.freeLegends
  freeMetadata := hr.freeMetadata
  floor := Nat.le_trans hr.floor hle

theorem withSets {sets : Array (List Value)} (hle : s.sets.size ≤ sets.size)
    (h : ∀ p, r.sets p → ∀ v ∈ ({ s with sets } : Store).set p, v.In r) : r.Holds { s with sets } where
  lists := hr.lists
  dicts := hr.dicts
  sets := h
  cursors := hr.cursors
  legends := hr.legends
  metadata := hr.metadata
  freeLists := hr.freeLists
  freeDicts := hr.freeDicts
  freeSets p hp := hr.freeSets p (Nat.le_trans hle hp)
  freeCursors := hr.freeCursors
  freeLegends := hr.freeLegends
  freeMetadata := hr.freeMetadata
  floor := hr.floor

theorem withCursors {cursors : Array Cursor} (hle : s.cursors.size ≤ cursors.size)
    (h : ∀ p, r.cursors p → (({ s with cursors } : Store).cursor p).In r) : r.Holds { s with cursors } where
  lists := hr.lists
  dicts := hr.dicts
  sets := hr.sets
  cursors := h
  legends := hr.legends
  metadata := hr.metadata
  freeLists := hr.freeLists
  freeDicts := hr.freeDicts
  freeSets := hr.freeSets
  freeCursors p hp := hr.freeCursors p (Nat.le_trans hle hp)
  freeLegends := hr.freeLegends
  freeMetadata := hr.freeMetadata
  floor := hr.floor

theorem withLegends {legends : Array Legend} (hle : s.legends.size ≤ legends.size)
    (h : ∀ p, r.legends p → (({ s with legends } : Store).legend p).In r) : r.Holds { s with legends } where
  lists := hr.lists
  dicts := hr.dicts
  sets := hr.sets
  cursors := hr.cursors
  legends := h
  metadata := hr.metadata
  freeLists := hr.freeLists
  freeDicts := hr.freeDicts
  freeSets := hr.freeSets
  freeCursors := hr.freeCursors
  freeLegends p hp := hr.freeLegends p (Nat.le_trans hle hp)
  freeMetadata := hr.freeMetadata
  floor := hr.floor

theorem withMetadata {metadata : Array Metadata} (hle : s.metadata.size ≤ metadata.size)
    (h : ∀ p, r.metadata p → (({ s with metadata } : Store).metadataAt p).In r) : r.Holds { s with metadata } where
  lists := hr.lists
  dicts := hr.dicts
  sets := hr.sets
  cursors := hr.cursors
  legends := hr.legends
  metadata := h
  freeLists := hr.freeLists
  freeDicts := hr.freeDicts
  freeSets := hr.freeSets
  freeCursors := hr.freeCursors
  freeLegends := hr.freeLegends
  freeMetadata p hp := hr.freeMetadata p (Nat.le_trans hle hp)
  floor := hr.floor

theorem setDict {place : Nat} {entries : Entries} (he : entries.In r) :
    r.Holds { s with dicts := s.dicts.setIfInBounds place entries } := by
  refine hr.withDicts (Nat.le_of_eq Array.size_setIfInBounds.symm) fun p hp => ?_
  rw [s.dict_setIfInBounds]
  split
  · exact he
  · exact hr.dicts p hp

end Region.Holds

/-! ## Changes that the relations allow -/

namespace Region

variable (r) (w : World)

theorem Grows.withLists {lists : Array (List Value)} (hle : w.store.lists.size ≤ lists.size) :
    r.Grows w { w with store := { w.store with lists } } :=
  { Grows.refl r w with lists_le := hle, metadata := fun _ hp => w.store.metadataAt_lists lists hp }

theorem Grows.withDicts {dicts : Array Entries} (hle : w.store.dicts.size ≤ dicts.size) :
    r.Grows w { w with store := { w.store with dicts } } :=
  { Grows.refl r w with dicts_le := hle }

theorem Grows.withSets {sets : Array (List Value)} (hle : w.store.sets.size ≤ sets.size) :
    r.Grows w { w with store := { w.store with sets } } :=
  { Grows.refl r w with sets_le := hle }

end Region

/-- A world with other entries at the place of a mapping. -/
def World.withDict (w : World) (place : Nat) (entries : Entries) : World :=
  { w with store := { w.store with dicts := w.store.dicts.setIfInBounds place entries } }

theorem World.dict_withDict (w : World) (place : Nat) (entries : Entries) (p : Nat) :
    (w.withDict place entries).store.dict p =
      if p = place ∧ place < w.store.dicts.size then entries else w.store.dict p :=
  w.store.dict_setIfInBounds place entries p

/-- The relation lets the mapping at a place be written. -/
def LetsWrite (r : Region) (R : World → World → Prop) (place : Nat) : Prop :=
  ∀ w entries, r.Holds w.store → R w (w.withDict place entries)

/-- A mapping that is not watched may be written. -/
theorem LetsWrite.unwatched [AllowsEdits r R] {place : Nat} (hp : r.floor ≤ place) : LetsWrite r R place := by
  refine fun w entries hw => AllowsEdits.edits hw { Region.Grows.withDicts r w (by simp) with
      lists := fun _ _ => rfl, sets := fun _ _ => rfl, dicts := fun p hq => ?_ }
  rw [w.dict_withDict, if_neg]
  rintro ⟨rfl, _⟩
  exact Nat.not_lt_of_le hp hq

/-! ## New places -/

namespace Run

theorem newList_confined [AllowsReads r R] {items : List Value} (h : ∀ v ∈ items, v.In r) :
    Confined r R (newList items) (·.In r) := by
  refine step_confined (fun _ => rfl) fun w hw => ⟨?_, ?_, hw.freeLists _ (Nat.le_refl _)⟩
  · refine AllowsReads.reads hw { Region.Grows.withLists r w (by simp) with
      lists := fun p hp => ?_, sets := fun _ _ => rfl, dicts := fun _ _ => rfl }
    rw [Store.list_push, if_neg (Nat.ne_of_lt hp)]
  · refine hw.withLists (by simp) fun p hp => ?_
    rw [Store.list_push]
    split
    · exact h
    · exact hw.lists p hp

/-- A new mapping is not watched. -/
theorem newDict_confined [AllowsReads r R] {entries : Entries} (h : entries.In r) :
    Confined r R (newDict entries) fun v => ∃ p, v = .dict p ∧ r.dicts p ∧ r.floor ≤ p := by
  refine step_confined (fun _ => rfl) fun w hw => ⟨?_, ?_, _, rfl, hw.freeDicts _ (Nat.le_refl _), hw.floor⟩
  · refine AllowsReads.reads hw { Region.Grows.withDicts r w (by simp) with
      lists := fun _ _ => rfl, sets := fun _ _ => rfl, dicts := fun p hp => ?_ }
    rw [Store.dict_push, if_neg (Nat.ne_of_lt hp)]
  · refine hw.withDicts (by simp) fun p hp => ?_
    rw [Store.dict_push]
    split
    · exact h
    · exact hw.dicts p hp

theorem newDict_in [AllowsReads r R] {entries : Entries} (h : entries.In r) :
    Confined r R (newDict entries) (·.In r) :=
  (newDict_confined h).weaken fun _ ⟨_, hv, hp, _⟩ => hv ▸ hp

theorem newSet_confined [AllowsReads r R] {items : List Value} (h : ∀ v ∈ items, v.In r) :
    Confined r R (newSet items) (·.In r) := by
  refine step_confined (fun _ => rfl) fun w hw => ⟨?_, ?_, hw.freeSets _ (Nat.le_refl _)⟩
  · refine AllowsReads.reads hw { Region.Grows.withSets r w (by simp) with
      lists := fun _ _ => rfl, sets := fun p hp => ?_, dicts := fun _ _ => rfl }
    rw [Store.set_push, if_neg (Nat.ne_of_lt hp)]
  · refine hw.withSets (by simp) fun p hp => ?_
    rw [Store.set_push]
    split
    · exact h
    · exact hw.sets p hp

theorem newCursor_confined [AllowsReads r R] {c : Cursor} (h : c.In r) :
    Confined r R (newCursor c) fun p => r.cursors p := by
  refine step_confined (fun _ => rfl) fun w hw => ⟨?_, ?_, hw.freeCursors _ (Nat.le_refl _)⟩
  · refine AllowsReads.reads hw { Region.Reads.refl r w with cursors_le := by simp, cursors := fun p hp => ?_ }
    rw [Store.cursor_push, if_neg]
    rintro rfl
    exact hp (hw.freeCursors _ (Nat.le_refl _))
  · refine hw.withCursors (by simp) fun p hp => ?_
    rw [Store.cursor_push]
    split
    · exact h
    · exact hw.cursors p hp

theorem newLegend_confined [AllowsReads r R] {l : Legend} (h : l.In r) :
    Confined r R (newLegend l) (·.In r) := by
  refine step_confined (fun _ => rfl) fun w hw => ⟨?_, ?_, hw.freeLegends _ (Nat.le_refl _)⟩
  · refine AllowsReads.reads hw { Region.Reads.refl r w with legends_le := by simp, legends := fun p hp => ?_ }
    rw [Store.legend_push, if_neg (Nat.ne_of_lt hp)]
  · refine hw.withLegends (by simp) fun p hp => ?_
    rw [Store.legend_push]
    split
    · exact h
    · exact hw.legends p hp

theorem newMetadata_confined [AllowsReads r R] {m : Metadata} (h : m.In r) :
    Confined r R (newMetadata m) (·.In r) := by
  refine step_confined (fun _ => rfl) fun w hw => ⟨?_, ?_, hw.freeMetadata _ (Nat.le_refl _)⟩
  · refine AllowsReads.reads hw { Region.Reads.refl r w with metadata_le := by simp, metadata := fun p hp => ?_ }
    rw [Store.metadataAt_push, if_neg (Nat.ne_of_lt hp)]
  · refine hw.withMetadata (by simp) fun p hp => ?_
    rw [Store.metadataAt_push]
    split
    · exact h
    · exact hw.metadata p hp

/-! ## Reading and writing places -/

theorem list_confined [AllowsReads r R] {place : Nat} (h : r.lists place) :
    Confined r R (list place) fun vs => ∀ v ∈ vs, v.In r :=
  store_confined.bind fun _ hs => .pure (hs.lists place h)

theorem dict_confined [AllowsReads r R] {place : Nat} (h : r.dicts place) :
    Confined r R (dict place) (·.In r) :=
  store_confined.bind fun _ hs => .pure (hs.dicts place h)

theorem set_confined [AllowsReads r R] {place : Nat} (h : r.sets place) :
    Confined r R (set place) fun vs => ∀ v ∈ vs, v.In r :=
  store_confined.bind fun _ hs => .pure (hs.sets place h)

theorem setList_confined [AllowsEdits r R] {place : Nat} {items : List Value} (hp : r.lists place)
    (h : ∀ v ∈ items, v.In r) : Confined r R (setList place items) fun _ => True := by
  refine step_confined (fun _ => rfl) fun w hw => ⟨?_, ?_, trivial⟩
  · refine AllowsEdits.edits hw { Region.Grows.withLists r w (by simp) with
      lists := fun p hq => ?_, sets := fun _ _ => rfl, dicts := fun _ _ => rfl }
    rw [Store.list_setIfInBounds, if_neg]
    rintro ⟨rfl, _⟩
    exact hq hp
  · refine hw.withLists (by simp) fun p hp => ?_
    rw [Store.list_setIfInBounds]
    split
    · exact h
    · exact hw.lists p hp

theorem setSet_confined [AllowsEdits r R] {place : Nat} {items : List Value} (hp : r.sets place)
    (h : ∀ v ∈ items, v.In r) : Confined r R (setSet place items) fun _ => True := by
  refine step_confined (fun _ => rfl) fun w hw => ⟨?_, ?_, trivial⟩
  · refine AllowsEdits.edits hw { Region.Grows.withSets r w (by simp) with
      lists := fun _ _ => rfl, sets := fun p hq => ?_, dicts := fun _ _ => rfl }
    rw [Store.set_setIfInBounds, if_neg]
    rintro ⟨rfl, _⟩
    exact hq hp
  · refine hw.withSets (by simp) fun p hp => ?_
    rw [Store.set_setIfInBounds]
    split
    · exact h
    · exact hw.sets p hp

theorem setCursor_confined [AllowsReads r R] {place : Nat} {c : Cursor} (hp : r.cursors place) (h : c.In r) :
    Confined r R (setCursor place c) fun _ => True := by
  refine step_confined (fun _ => rfl) fun w hw => ⟨?_, ?_, trivial⟩
  · refine AllowsReads.reads hw { Region.Reads.refl r w with cursors_le := by simp, cursors := fun p hq => ?_ }
    rw [Store.cursor_setIfInBounds, if_neg]
    rintro ⟨rfl, _⟩
    exact hq hp
  · refine hw.withCursors (by simp) fun p hp => ?_
    rw [Store.cursor_setIfInBounds]
    split
    · exact h
    · exact hw.cursors p hp

/-- A mapping may be written where the relation lets it be written. -/
theorem setDict_confined {place : Nat} {entries : Entries} (hR : LetsWrite r R place) (h : entries.In r) :
    Confined r R (setDict place entries) fun _ => True :=
  step_confined (fun _ => rfl) fun w hw => ⟨hR w entries hw, hw.setDict h, trivial⟩

end Run

end NestedSite
