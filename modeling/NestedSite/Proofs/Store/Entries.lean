import NestedSite.Proofs.Store.Keys
import NestedSite.Proofs.Store.Places

/-!
# Entries under texts

Only a text itself is the same key as the text (`Value.sameKey_text`). So a text that is bound to a value is bound to it
afterwards and every other text to what it was bound to before (`Entries.find?_insert`), and a text is bound by a merge
to one of the values that are merged, or left as it was (`Entries.find?_merge`). What is merged goes over what was bound
just before (`Entries.merge_insert`), so merging it once more changes nothing (`Entries.merge_merge`). What keys of the
mapping at a place are bound to is followed through a run by `World.binding?`.
-/

namespace NestedSite

@[simp] theorem Value.sameKey_text {v : Value} {t : String} : v.sameKey (.text t) = true ↔ v = .text t := by
  cases v <;> simp [sameKey, identical, numeric?]

namespace Entries

variable {es : Entries}

theorem find?_insert (es : Entries) (key other : String) (v : Value) :
    (es.insert (.text key) v).find? (.text other) = if key = other then some v else es.find? (.text other) := by
  simp only [find?_insert_key, Value.sameKey_text, Value.text.injEq]

theorem mem_insert {key : String} {v : Value} {e : Value × Value} (h : e ∈ es.insert (.text key) v) :
    e = (.text key, v) ∨ e ∈ es := by
  induction es with
  | nil => simpa [insert] using h
  | cons first rest ih =>
    obtain ⟨k, u⟩ := first
    unfold insert at h
    split at h
    · obtain rfl := Value.sameKey_text.1 ‹_›
      exact (List.mem_cons.1 h).imp_right (List.mem_cons_of_mem _)
    · rcases List.mem_cons.1 h with rfl | h
      · exact .inr List.mem_cons_self
      · exact (ih h).imp_right (List.mem_cons_of_mem _)

/-- All keys are texts. -/
def Named (es : Entries) : Prop := ∀ e ∈ es, ∃ key, e.1 = .text key

theorem mem_merge {others : Entries} (h : others.Named) {e : Value × Value} (he : e ∈ es.merge others) :
    e ∈ others ∨ e ∈ es := by
  unfold merge at he
  induction others generalizing es with
  | nil => exact .inr he
  | cons first rest ih =>
    obtain ⟨key, hkey⟩ := h first List.mem_cons_self
    rcases ih (fun e he => h e (List.mem_cons_of_mem _ he)) he with he | he
    · exact .inl (List.mem_cons_of_mem _ he)
    · dsimp only at he
      rw [hkey] at he
      exact (mem_insert he).imp_left fun he => by rw [he, ← hkey]; exact List.mem_cons_self

theorem find?_merge {others : Entries} (h : others.Named) {key : String} {v : Value}
    (hv : (es.merge others).find? (.text key) = some v) : (.text key, v) ∈ others ∨ es.find? (.text key) = some v := by
  unfold merge at hv
  induction others generalizing es with
  | nil => exact .inr hv
  | cons first rest ih =>
    obtain ⟨other, hother⟩ := h first List.mem_cons_self
    rcases ih (fun e he => h e (List.mem_cons_of_mem _ he)) hv with hv | hv
    · exact .inl (List.mem_cons_of_mem _ hv)
    · dsimp only at hv
      rw [hother, find?_insert] at hv
      split at hv
      · cases hv
        subst_vars
        exact .inl (by rw [← hother]; exact List.mem_cons_self)
      · exact .inr hv

theorem mem_keys_insert {key : String} {v k : Value} :
    k ∈ (es.insert (.text key) v).keys ↔ k = .text key ∨ k ∈ es.keys := by
  induction es with
  | nil => simp [insert, keys]
  | cons first rest ih =>
    obtain ⟨k', u⟩ := first
    unfold insert
    split
    · obtain rfl := Value.sameKey_text.1 ‹_›
      simp [keys]
    · simp only [keys, List.map_cons, List.mem_cons] at ih ⊢
      rw [ih]
      exact or_left_comm

theorem nodup_insert (h : es.keys.Nodup) (key : String) (v : Value) : (es.insert (.text key) v).keys.Nodup := by
  induction es with
  | nil => exact List.pairwise_singleton _ _
  | cons first rest ih =>
    obtain ⟨k, u⟩ := first
    obtain ⟨hk, hrest⟩ := List.nodup_cons.1 h
    unfold insert
    split
    · exact h
    · rename_i hother
      refine List.nodup_cons.2 ⟨fun hmem => ?_, ih hrest⟩
      rcases mem_keys_insert.1 hmem with heq | hmem
      · exact hother (Value.sameKey_text.2 heq)
      · exact hk hmem

/-- Texts that are bound one after the other are keys once. -/
theorem nodup_merge {others : Entries} (hes : es.keys.Nodup) (h : others.Named) : (es.merge others).keys.Nodup := by
  unfold merge
  induction others generalizing es with
  | nil => exact hes
  | cons first rest ih =>
    obtain ⟨key, hkey⟩ := h first List.mem_cons_self
    refine ih ?_ fun e he => h e (List.mem_cons_of_mem _ he)
    dsimp only
    rw [hkey]
    exact nodup_insert hes key first.2

theorem find?_eq_none {key : String} (h : .text key ∉ es.keys) : es.find? (.text key) = none := by
  refine Option.map_eq_none_iff.2 (List.find?_eq_none.2 fun e he hsame => h ?_)
  exact Value.sameKey_text.1 hsame ▸ List.mem_map_of_mem he

/-- What is merged goes before what is there. -/
theorem find?_merge_of_nodup {others : Entries} (h : others.Named) (hnodup : others.keys.Nodup) (key : String) :
    (es.merge others).find? (.text key) = (others.find? (.text key)).or (es.find? (.text key)) := by
  unfold merge
  induction others generalizing es with
  | nil => rfl
  | cons first rest ih =>
    obtain ⟨k, v⟩ := first
    obtain ⟨other, hother⟩ := h _ List.mem_cons_self
    obtain rfl : k = .text other := hother
    obtain ⟨hnew, hrest⟩ := List.nodup_cons.1 hnodup
    rw [List.foldl_cons, ih (fun e he => h e (List.mem_cons_of_mem _ he)) hrest, find?_insert, find?_cons]
    simp only [Value.sameKey_text, Value.text.injEq]
    split
    · rename_i heq
      subst heq
      rw [find?_eq_none hnew]
      rfl
    · rfl

/-! ## Entries that are bound again -/

section

variable {g fs : Entries} {key : String} {v : Value}

/-- Binding a key to what it is bound to changes nothing. -/
theorem insert_of_find? (h : es.find? (.text key) = some v) : es.insert (.text key) v = es := by
  induction es with
  | nil => cases h
  | cons first rest ih =>
    obtain ⟨k, u⟩ := first
    rw [find?_cons] at h
    unfold insert
    split at h
    · rename_i hsame
      cases h
      rw [if_pos hsame]
    · rename_i hother
      rw [if_neg hother, ih h]

/-- Of two values that a key is bound to, the second one counts. -/
theorem insert_insert (es : Entries) (k u v : Value) : (es.insert k u).insert k v = es.insert k v := by
  induction es with
  | nil => simp [insert, Value.sameKey_refl]
  | cons first rest ih =>
    obtain ⟨l, x⟩ := first
    by_cases hsame : l.sameKey k = true
    · simp [insert, hsame]
    · simp [insert, hsame, ih]

/-- A key that is bound may be bound to something else before or after another key is. -/
theorem insert_comm (h : (es.find? (.text key)).isSome) {other : String} (hne : key ≠ other) (u v : Value) :
    (es.insert (.text key) u).insert (.text other) v = (es.insert (.text other) v).insert (.text key) u := by
  induction es with
  | nil => cases h
  | cons first rest ih =>
    obtain ⟨k, x⟩ := first
    rw [find?_cons] at h
    by_cases hsame : k.sameKey (.text key) = true
    · obtain rfl := Value.sameKey_text.1 hsame
      simp [insert, hne]
    · rw [if_neg hsame] at h
      by_cases hother : k.sameKey (.text other) = true
      · simp [insert, hsame, hother]
      · simp [insert, hsame, hother, ih h]

/-- What is merged goes over what was bound just before. -/
theorem merge_insert (hg : g.Named) (hbound : (es.find? (.text key)).isSome) (h : .text key ∈ g.keys) (v : Value) :
    (es.insert (.text key) v).merge g = es.merge g := by
  unfold merge
  induction g generalizing es with
  | nil => cases h
  | cons first rest ih =>
    obtain ⟨k, u⟩ := first
    obtain ⟨other, hother⟩ := hg _ List.mem_cons_self
    obtain rfl : k = .text other := hother
    have hrest : Entries.Named rest := fun e he => hg e (List.mem_cons_of_mem _ he)
    rw [List.foldl_cons, List.foldl_cons]
    dsimp only
    by_cases heq : key = other
    · subst heq
      rw [insert_insert]
    · have hmem : .text key ∈ Entries.keys rest := (List.mem_cons.1 h).resolve_left fun hk => heq (by cases hk; rfl)
      have hstill : ((es.insert (.text other) u).find? (.text key)).isSome := by
        rw [find?_insert, if_neg (Ne.symm heq)]
        exact hbound
      rw [insert_comm hbound heq, ih hrest hstill hmem]

/-- What is bound already is merged without a change. -/
theorem merge_of_bound (hg : g.Named) (h : ∀ e ∈ g, es.find? e.1 = some e.2) : es.merge g = es := by
  unfold merge
  induction g with
  | nil => rfl
  | cons first rest ih =>
    obtain ⟨k, u⟩ := first
    obtain ⟨other, hother⟩ := hg _ List.mem_cons_self
    obtain rfl : k = .text other := hother
    rw [List.foldl_cons]
    dsimp only
    rw [insert_of_find? (h _ List.mem_cons_self)]
    exact ih (fun e he => hg e (List.mem_cons_of_mem _ he)) fun e he => h e (List.mem_cons_of_mem _ he)

theorem merge_merge (es : Entries) (hg : g.Named) (hdistinct : g.Distinct) : (es.merge g).merge g = es.merge g :=
  merge_of_bound hg fun e he => by rw [find?_merge_key hdistinct, hdistinct.find?_of_mem he, Option.some_or]

/-- Entries that come to the same once `g` is merged into them, and that are the same for the keys which `g` lacks. -/
structure SameUnder (g es fs : Entries) : Prop where
  merged : fs.merge g = es.merge g
  found : ∀ key, .text key ∉ g.keys → fs.find? (.text key) = es.find? (.text key)
  bound : ∀ key, (es.find? (.text key)).isSome → (fs.find? (.text key)).isSome

namespace SameUnder

theorem of_merge (es : Entries) (hg : g.Named) (hdistinct : g.Distinct) : SameUnder g es (es.merge g) where
  merged := merge_merge es hg hdistinct
  found key hkey := by rw [find?_merge_key hdistinct, find?_eq_none hkey, Option.none_or]
  bound key hkey := by
    rw [find?_merge_key hdistinct, Option.isSome_or, hkey, Bool.or_true]

/-- A key that is bound may be bound again, to the same value or to one that `g` replaces. -/
theorem insert (h : SameUnder g es fs) (hg : g.Named) (hkey : (es.find? (.text key)).isSome)
    (hv : .text key ∉ g.keys → es.find? (.text key) = some v) : SameUnder g es (fs.insert (.text key) v) := by
  by_cases hmem : .text key ∈ g.keys
  · refine ⟨(merge_insert hg (h.bound key hkey) hmem v).trans h.merged, fun other hother => ?_, fun other hother => ?_⟩
    · have hne : key ≠ other := by
        rintro rfl
        exact hother hmem
      rw [find?_insert, if_neg hne, h.found other hother]
    · rw [find?_insert]
      split
      · rfl
      · exact h.bound other hother
  · rwa [insert_of_find? ((h.found key hmem).trans (hv hmem))]

end SameUnder

end

end Entries

namespace World

/-- What a key of the mapping at a place is bound to. -/
def binding? (w : World) (place : Nat) (key : String) : Option Value := (w.store.dict place).find? (.text key)

/-- The world in which a key of the mapping at a place is bound to a value. -/
def withEntry (w : World) (place : Nat) (key : String) (v : Value) : World :=
  w.withDict place ((w.store.dict place).insert (.text key) v)

theorem binding?_withEntry {w : World} {place : Nat} (h : place < w.store.dicts.size) (key other : String) (v : Value) :
    (w.withEntry place key v).binding? place other = if key = other then some v else w.binding? place other := by
  unfold binding? withEntry
  rw [dict_withDict, if_pos ⟨rfl, h⟩, Entries.find?_insert]

@[simp] theorem dicts_size_withEntry (w : World) (place : Nat) (key : String) (v : Value) :
    (w.withEntry place key v).store.dicts.size = w.store.dicts.size := by simp [withEntry, withDict]

end World

end NestedSite
