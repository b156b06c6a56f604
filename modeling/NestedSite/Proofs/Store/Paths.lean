import NestedSite.Proofs.Store.WellFormed

/-!
# Paths of keys

A path of keys leads from a mapping to a mapping that is bound in it, and so on (`Store.bound?`). What it leads to stays
the same while a store only grows (`Store.Keeps.bound?`), and it is nothing if the path would go through a value that is
no mapping (`Layer.Hides`).
-/

namespace NestedSite

variable {s t : Store} {es : Entries} {k v : Value} {path : List Value}

/-- What paths of keys are bound to, as a layer of a configuration sees it. -/
abbrev Layer := List Value → Option Value

theorem Value.exists_dict (h : v.isMapping = true) : ∃ p, v = .dict p := by
  cases v
  case dict p => exact ⟨p, rfl⟩
  all_goals cases h

namespace Store

/-- What a path of keys leads to from a value. -/
def follow? (s : Store) : Value → Layer
  | v, [] => some v
  | .dict p, k :: path => ((s.dict p).find? k).bind fun v => s.follow? v path
  | _, _ :: _ => none

/-- What a path of keys is bound to by entries. -/
def bound? (s : Store) (es : Entries) : Layer
  | [] => none
  | k :: path => (es.find? k).bind fun v => s.follow? v path

theorem follow?_nil (s : Store) (v : Value) : s.follow? v [] = some v := by
  cases v <;> rfl

theorem follow?_dict (h : path ≠ []) (p : Nat) : s.follow? (.dict p) path = s.bound? (s.dict p) path := by
  cases path with
  | nil => exact absurd rfl h
  | cons k path => rfl

/-- Nothing is bound in a value that is no mapping. -/
theorem follow?_of_not_mapping (h : path ≠ []) (hv : v.isMapping = false) : s.follow? v path = none := by
  cases path with
  | nil => exact absurd rfl h
  | cons k path =>
    cases v
    case dict p => cases hv
    all_goals rfl

/-- Only mappings lead on. -/
theorem eq_dict_of_follow? {u : Value} (h : path ≠ []) (hu : s.follow? v path = some u) : ∃ p, v = .dict p := by
  cases hv : v.isMapping with
  | false => cases (follow?_of_not_mapping h hv).symm.trans hu
  | true => exact v.exists_dict hv

theorem bound?_cons_none (h : es.find? k = none) : s.bound? es (k :: path) = none := by rw [bound?, h, Option.bind_none]

theorem bound?_cons_some (h : es.find? k = some v) : s.bound? es (k :: path) = s.follow? v path := by
  rw [bound?, h, Option.bind_some]

theorem follow?_append (s : Store) (v : Value) (path rest : List Value) :
    s.follow? v (path ++ rest) = (s.follow? v path).bind fun u => s.follow? u rest := by
  induction path generalizing v with
  | nil => rw [follow?_nil, Option.bind_some, List.nil_append]
  | cons k path ih =>
    cases v
    case dict p =>
      rw [List.cons_append, follow?, follow?, Option.bind_assoc]
      exact Option.bind_congr fun u _ => ih u
    all_goals rfl

/-! ## Stores that grow -/

/-- Paths lead from places in use to places in use, and to the same as before while the store grows. -/
theorem Keeps.follow? (hs : s.WellFormed) (h : s.Keeps t) (hv : v.In s.inUse) :
    t.follow? v path = s.follow? v path ∧ ∀ u, s.follow? v path = some u → u.In s.inUse := by
  induction path generalizing v with
  | nil =>
    rw [follow?_nil, follow?_nil]
    exact ⟨rfl, fun u hu => Option.some.inj hu ▸ hv⟩
  | cons k path ih =>
    by_cases hmapping : v.isMapping = true
    · obtain ⟨p, rfl⟩ := v.exists_dict hmapping
      have hdict : t.dict p = s.dict p := (h.dicts p hv).2
      rw [Store.follow?, Store.follow?, hdict]
      cases hfind : (s.dict p).find? k with
      | none => exact ⟨rfl, nofun⟩
      | some u => exact ih ((hs.dicts p hv).1.find? hfind)
    · rw [follow?_of_not_mapping (List.cons_ne_nil k path) (Bool.eq_false_iff.2 hmapping),
        follow?_of_not_mapping (List.cons_ne_nil k path) (Bool.eq_false_iff.2 hmapping)]
      exact ⟨rfl, nofun⟩

theorem Keeps.bound? (hs : s.WellFormed) (h : s.Keeps t) (hes : es.In s.inUse) (path : List Value) :
    t.bound? es path = s.bound? es path := by
  cases path with
  | nil => rfl
  | cons k path => exact Option.bind_congr fun v hv => (Keeps.follow? hs h (hes.find? hv)).1

end Store

/-! ## Paths through values that are no mappings -/

/-- The path goes on where a value that is no mapping is bound. -/
def Layer.Hides (b : Layer) (path : List Value) : Prop :=
  ∃ start v, start <+: path ∧ start ≠ path ∧ b start = some v ∧ v.isMapping = false

namespace Store

/-- A path that starts at a value that is no mapping is hidden by it. -/
theorem hides_of_not_mapping (h : path ≠ []) (hv : v.isMapping = false) : (s.follow? v).Hides path :=
  ⟨[], v, List.nil_prefix, h.symm, s.follow?_nil v, hv⟩

theorem hides_dict_iff (p : Nat) : (s.follow? (.dict p)).Hides path ↔ (s.bound? (s.dict p)).Hides path := by
  refine exists₂_congr fun start v => and_congr_right fun _ => and_congr_right fun _ => ?_
  cases start with
  | nil =>
    rw [follow?_nil, bound?]
    constructor
    · rintro ⟨hv, hmapping⟩
      cases hv
      cases hmapping
    · rintro ⟨hv, -⟩
      cases hv
  | cons k start => rfl

theorem hides_cons_iff :
    (s.bound? es).Hides (k :: path) ↔ ∃ v, es.find? k = some v ∧ (s.follow? v).Hides path := by
  constructor
  · rintro ⟨start, u, hstart, hne, hu, hmapping⟩
    cases start with
    | nil => cases hu
    | cons k' start =>
      obtain ⟨rfl, hrest⟩ := List.cons_prefix_cons.1 hstart
      obtain ⟨v, hv, hu⟩ := Option.bind_eq_some_iff.1 hu
      exact ⟨v, hv, start, u, hrest, fun h => hne (congrArg _ h), hu, hmapping⟩
  · rintro ⟨v, hv, start, u, hstart, hne, hu, hmapping⟩
    refine ⟨k :: start, u, List.cons_prefix_cons.2 ⟨rfl, hstart⟩, fun h => hne (List.cons.inj h).2, ?_, hmapping⟩
    rw [bound?_cons_some hv, hu]

/-- What is hidden is not bound. -/
theorem follow?_of_hides (h : (s.follow? v).Hides path) : s.follow? v path = none := by
  obtain ⟨start, u, ⟨rest, rfl⟩, hne, hu, hmapping⟩ := h
  have hrest : rest ≠ [] := by
    rintro rfl
    exact hne (List.append_nil _).symm
  rw [follow?_append, hu, Option.bind_some, follow?_of_not_mapping hrest hmapping]

theorem bound?_of_hides (h : (s.bound? es).Hides path) : s.bound? es path = none := by
  cases path with
  | nil => rfl
  | cons k path =>
    obtain ⟨v, hv, hhides⟩ := hides_cons_iff.1 h
    rw [bound?_cons_some hv, follow?_of_hides hhides]

end Store

/-! ## Entries that look the same -/

/-- What is seen of a value without following it further: a mapping shows its keys, any other value itself. -/
inductive Sight where
  | value (v : Value)
  | mapping (keys : List Value)

def Store.sight (s : Store) : Value → Sight
  | .dict p => .mapping (s.dict p).keys
  | v => .value v

/-- Entries that have the same keys in the same order, and lead to the same values along all paths of keys, but for the
places of the mappings. -/
structure Store.Alike (s : Store) (es fs : Entries) : Prop where
  keys : fs.keys = es.keys
  bound : ∀ path, (s.bound? fs path).map s.sight = (s.bound? es path).map s.sight

end NestedSite
