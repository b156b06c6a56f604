import Mathlib.Data.List.Forall2
import NestedSite.Proofs.Store.Sameness

/-!
# Entries under keys

Keys that mean one entry find the same (`Entries.find?_congr`), a key that is bound to a value is bound to it afterwards,
and every other key to what it was bound to before (`Entries.find?_insert_key`). A key that is there already keeps its
place (`Entries.keys_insert`), so that no two keys of a mapping mean one entry (`Entries.Distinct`).
-/

namespace NestedSite.Entries

variable {es : Entries} {k l v : Value}

/-! ## Looking up -/

theorem find?_nil (k : Value) : find? [] k = none := rfl

theorem find?_cons (e : Value × Value) (rest : Entries) (k : Value) :
    find? (e :: rest) k = if e.1.sameKey k then some e.2 else rest.find? k := by
  unfold find?
  rw [List.find?_cons]
  cases e.1.sameKey k <;> rfl

theorem find?_congr (es : Entries) (h : k.sameKey l = true) : es.find? k = es.find? l := by
  have hkeys : (fun e : Value × Value => e.1.sameKey k) = fun e => e.1.sameKey l := funext fun e => by
    rw [Value.sameKey_comm e.1, Value.sameKey_comm e.1, Value.sameKey_congr h]
  rw [find?, find?, hkeys]

theorem find?_eq_none_iff : es.find? k = none ↔ ∀ l ∈ es.keys, l.sameKey k = false := by
  simp [find?, keys]

theorem exists_of_find? (h : es.find? k = some v) : ∃ l, (l, v) ∈ es ∧ l.sameKey k = true := by
  obtain ⟨e, he, rfl⟩ := Option.map_eq_some_iff.1 h
  have hsame := List.find?_some he
  exact ⟨e.1, List.mem_of_find?_eq_some he, hsame⟩

theorem exists_find?_of_mem_keys (h : k ∈ es.keys) : ∃ v, es.find? k = some v := by
  cases hfind : es.find? k with
  | none =>
    have hdiffers := find?_eq_none_iff.1 hfind k h
    rw [Value.sameKey_refl] at hdiffers
    cases hdiffers
  | some v => exact ⟨v, rfl⟩

/-! ## Binding keys -/

theorem find?_insert_key (es : Entries) (k other v : Value) :
    (es.insert k v).find? other = if k.sameKey other then some v else es.find? other := by
  induction es with
  | nil => rw [insert, find?_cons, find?_nil]
  | cons e rest ih =>
    obtain ⟨k', u⟩ := e
    unfold insert
    split
    · rename_i hsame
      rw [find?_cons, find?_cons, Value.sameKey_congr hsame]
      split <;> rfl
    · rename_i hdiffers
      rw [find?_cons, find?_cons, ih]
      split
      · rename_i hfirst
        have hother : ¬k.sameKey other = true := fun hk =>
          hdiffers (by rw [Value.sameKey_congr hfirst, Value.sameKey_comm, hk])
        rw [if_neg hother]
      · rfl

/-- A key that is not there is put at the end. -/
theorem keys_insert (es : Entries) (k v : Value) :
    (es.insert k v).keys = if (es.find? k).isSome then es.keys else es.keys ++ [k] := by
  induction es with
  | nil => rfl
  | cons e rest ih =>
    obtain ⟨k', u⟩ := e
    unfold insert
    rw [find?_cons]
    split
    · rfl
    · have hcons (v' : Value) (es : Entries) : keys ((k', v') :: es) = k' :: es.keys := rfl
      rw [hcons, hcons, ih]
      split <;> rfl

/-! ## Distinct keys -/

/-- No two keys mean one entry. -/
def Distinct (es : Entries) : Prop := es.keys.Pairwise fun k l => k.sameKey l = false

theorem distinct_nil : Distinct [] := .nil

theorem Distinct.insert (h : es.Distinct) (k v : Value) : (es.insert k v).Distinct := by
  rw [Distinct, keys_insert]
  split
  · exact h
  · rename_i hnew
    refine List.pairwise_append.2 ⟨h, List.pairwise_singleton _ _, fun l hl k' hk' => ?_⟩
    rw [List.mem_singleton.1 hk']
    exact find?_eq_none_iff.1 (Option.not_isSome_iff_eq_none.1 hnew) l hl

/-- Each entry is found under its key. -/
theorem Distinct.find?_of_mem (h : es.Distinct) (hmem : (k, v) ∈ es) : es.find? k = some v := by
  induction es with
  | nil => cases hmem
  | cons e rest ih =>
    obtain ⟨hfirst, hrest⟩ := List.pairwise_cons.1 h
    rw [find?_cons]
    rcases List.mem_cons.1 hmem with rfl | hmem
    · rw [if_pos (Value.sameKey_refl k)]
    · rw [hfirst k (List.mem_map_of_mem (f := Prod.fst) hmem), if_neg Bool.false_ne_true, ih hrest hmem]

theorem Distinct.merge (h : es.Distinct) (others : Entries) : (es.merge others).Distinct := by
  unfold Entries.merge
  induction others generalizing es with
  | nil => exact h
  | cons e rest ih => exact ih (h.insert e.1 e.2)

/-- What is merged goes before what is there. -/
theorem find?_merge_key {others : Entries} (h : others.Distinct) (k : Value) :
    (es.merge others).find? k = (others.find? k).or (es.find? k) := by
  unfold merge
  induction others generalizing es with
  | nil => rfl
  | cons e rest ih =>
    obtain ⟨hfirst, hrest⟩ := List.pairwise_cons.1 h
    rw [List.foldl_cons, ih hrest, find?_insert_key, find?_cons]
    split
    · rename_i hsame
      have hnone : find? rest k = none := by
        rw [← find?_congr rest hsame]
        exact find?_eq_none_iff.2 fun l hl => (Value.sameKey_comm l e.1).trans (hfirst l hl)
      rw [hnone]
      rfl
    · rfl

/-- Keys that are not there are put at the end, in their order. -/
theorem keys_merge {others : Entries} (h : others.Distinct) :
    (es.merge others).keys = es.keys ++ others.keys.filter fun k => (es.find? k).isNone := by
  unfold merge
  induction others generalizing es with
  | nil => simp [keys]
  | cons e rest ih =>
    obtain ⟨hfirst, hrest⟩ := List.pairwise_cons.1 h
    have hkeys : (keys rest).filter (fun k => ((es.insert e.1 e.2).find? k).isNone) =
        (keys rest).filter fun k => (es.find? k).isNone :=
      List.filter_congr fun k hk => by rw [find?_insert_key, hfirst k hk, if_neg Bool.false_ne_true]
    have hcons : keys (e :: rest) = e.1 :: keys rest := rfl
    rw [List.foldl_cons, ih hrest, hkeys, keys_insert, hcons, List.filter_cons]
    cases es.find? e.1 <;> simp

/-! ## Entries under the same keys -/

/-- Entries with the same keys, whose values are related, are found together. -/
theorem find?_of_forall₂ {R : Value → Value → Value → Prop} {fs : Entries}
    (h : List.Forall₂ (fun e f => f.1 = e.1 ∧ R e.1 e.2 f.2) es fs) :
    fs.keys = es.keys ∧ (es.find? k = none → fs.find? k = none) ∧
      (es.find? k = some v → ∃ l u, l.sameKey k = true ∧ fs.find? k = some u ∧ R l v u) := by
  induction h with
  | nil => exact ⟨rfl, id, nofun⟩
  | @cons e f rest rest' hfirst _ ih =>
    obtain ⟨hkey, hrelated⟩ := hfirst
    rw [find?_cons, find?_cons, hkey]
    refine ⟨congrArg₂ List.cons hkey ih.1, ?_⟩
    split
    · rename_i hsame
      refine ⟨nofun, fun hv => ⟨e.1, f.2, hsame, rfl, ?_⟩⟩
      exact Option.some.inj hv ▸ hrelated
    · exact ih.2

end NestedSite.Entries
