import Mathlib.Data.List.Dedup
import NestedSite.Proofs.Site.Keyed
import NestedSite.Site.Document

/-!
# Documents that take each other's place

Documents are gathered one after the other, each in the place of one that is there. What is gathered has each path once
(`Documents.nodup_gather`), and the document that came last for it (`Documents.find?_gather`). So there are as many
documents as there are paths, and the others are those that a later one replaces (`Documents.length_gather`).
-/

namespace NestedSite

namespace Documents

/-- Whether a document goes to a path. -/
def goesTo (path : String) (doc : String × Value) : Bool := doc.1 == path

@[simp] theorem paths_cons (doc : String × Value) (docs : Documents) : paths (doc :: docs) = doc.1 :: docs.paths := rfl

/-! ## One document -/

theorem paths_put (docs : Documents) (path : String) (v : Value) :
    (docs.put path v).paths = if path ∈ docs.paths then docs.paths else docs.paths ++ [path] :=
  Keyed.keys_put docs path v

theorem mem_paths_put {docs : Documents} {path other : String} {v : Value} :
    other ∈ (docs.put path v).paths ↔ other ∈ docs.paths ∨ other = path := by
  rw [paths_put]
  split <;> simp_all

theorem mem_put {docs : Documents} {path : String} {v : Value} {d : String × Value} (h : d ∈ docs.put path v) :
    d ∈ docs ∨ d = (path, v) := by
  unfold put at h
  split at h
  · obtain ⟨old, hold, rfl⟩ := List.mem_map.1 h
    split
    · exact .inr rfl
    · exact .inl hold
  · exact (List.mem_append.1 h).imp_right List.mem_singleton.1

theorem nodup_put {docs : Documents} (h : docs.paths.Nodup) (path : String) (v : Value) :
    (docs.put path v).paths.Nodup := by
  rw [paths_put]
  split
  · exact h
  · rename_i hnew
    refine List.nodup_append.2 ⟨h, List.nodup_singleton _, fun a ha b hb hab => hnew ?_⟩
    rwa [← List.mem_singleton.1 hb, ← hab]

/-- A document that is put counts, unless it takes the place of another one. -/
theorem length_put (docs : Documents) (path : String) (v : Value) :
    (docs.put path v).length = docs.length + if path ∈ docs.paths then 0 else 1 := by
  have h := congrArg List.length (paths_put docs path v)
  split at h <;> simp_all [paths]

theorem path_of_find? {docs : Documents} {path : String} {d : String × Value}
    (h : docs.find? (goesTo path) = some d) : d.1 = path := Keyed.key_of_find? h

theorem find?_eq_none {docs : Documents} {path : String} : docs.find? (goesTo path) = none ↔ path ∉ docs.paths :=
  Keyed.find?_eq_none

/-! ## Many documents -/

/-- Puts documents one after the other. -/
def putAll (docs : Documents) (more : List (String × Value)) : Documents :=
  more.foldl (fun all doc => all.put doc.1 doc.2) docs

/-- Documents in the order of time, each in the place of the one before it with its path. -/
def gather (docs : List (String × Value)) : Documents := putAll [] docs

@[simp] theorem putAll_nil (docs : Documents) : docs.putAll [] = docs := rfl

@[simp] theorem putAll_cons (docs : Documents) (doc : String × Value) (more : List (String × Value)) :
    docs.putAll (doc :: more) = (docs.put doc.1 doc.2).putAll more := rfl

theorem putAll_append (docs : Documents) (more others : List (String × Value)) :
    docs.putAll (more ++ others) = (docs.putAll more).putAll others := List.foldl_append

theorem mem_paths_putAll {docs : Documents} {more : List (String × Value)} {path : String} :
    path ∈ (docs.putAll more).paths ↔ path ∈ docs.paths ∨ path ∈ paths more := by
  induction more generalizing docs with
  | nil => simp [paths]
  | cons doc more ih => rw [putAll_cons, ih, mem_paths_put, or_assoc, paths_cons, List.mem_cons]

theorem mem_putAll {docs : Documents} {more : List (String × Value)} {d : String × Value} (h : d ∈ docs.putAll more) :
    d ∈ docs ∨ d ∈ more := by
  induction more generalizing docs with
  | nil => exact .inl h
  | cons doc more ih =>
    rcases ih h with h | h
    · rcases mem_put h with h | rfl
      · exact .inl h
      · exact .inr List.mem_cons_self
    · exact .inr (List.mem_cons_of_mem _ h)

theorem nodup_putAll {docs : Documents} (h : docs.paths.Nodup) (more : List (String × Value)) :
    (docs.putAll more).paths.Nodup := by
  induction more generalizing docs with
  | nil => exact h
  | cons doc more ih => exact ih (nodup_put h doc.1 doc.2)

/-- What is found for a path is what was put there last. -/
theorem find?_putAll (docs : Documents) (more : List (String × Value)) (path : String) :
    (docs.putAll more).find? (goesTo path) =
      (more.reverse.find? (goesTo path)).or (docs.find? (goesTo path)) := Keyed.find?_putAll docs more path

theorem mem_paths_gather {docs : List (String × Value)} {path : String} :
    path ∈ (gather docs).paths ↔ path ∈ paths docs := by
  rw [gather, mem_paths_putAll]
  simp [paths]

theorem mem_gather {docs : List (String × Value)} {d : String × Value} (h : d ∈ gather docs) : d ∈ docs :=
  (mem_putAll h).resolve_left List.not_mem_nil

theorem nodup_gather (docs : List (String × Value)) : (gather docs).paths.Nodup :=
  nodup_putAll (show (paths []).Nodup from List.nodup_nil) docs

theorem find?_gather (docs : List (String × Value)) (path : String) :
    (gather docs).find? (goesTo path) = docs.reverse.find? (goesTo path) := by
  rw [gather, find?_putAll, List.find?_nil, Option.or_none]

/-- Where each path occurs once, no document takes the place of another one. -/
theorem putAll_of_nodup {docs : Documents} {more : List (String × Value)} (h : (docs.paths ++ paths more).Nodup) :
    docs.putAll more = docs ++ more := by
  induction more generalizing docs with
  | nil => rw [putAll_nil, List.append_nil]
  | cons doc more ih =>
    have hnew : doc.1 ∉ docs.paths := fun hmem =>
      (List.nodup_append.1 h).2.2 doc.1 hmem doc.1 List.mem_cons_self rfl
    have hput : docs.put doc.1 doc.2 = docs ++ [doc] := Keyed.put_of_notMem hnew doc.2
    rw [putAll_cons, hput, ih, List.append_assoc]
    · rfl
    · rw [paths, List.map_append, List.append_assoc]
      exact h

theorem gather_of_nodup {docs : List (String × Value)} (h : (paths docs).Nodup) : gather docs = docs :=
  putAll_of_nodup (show (paths [] ++ paths docs).Nodup from h)

theorem find?_of_mem {docs : Documents} (h : docs.paths.Nodup) {path : String} {v : Value} (hmem : (path, v) ∈ docs) :
    docs.find? (goesTo path) = some (path, v) := by
  induction docs with
  | nil => cases hmem
  | cons doc docs ih =>
    obtain ⟨hnew, hdocs⟩ := List.nodup_cons.1 h
    rcases List.mem_cons.1 hmem with rfl | hmem
    · exact List.find?_cons_of_pos (beq_self_eq_true _)
    · rw [List.find?_cons_of_neg, ih hdocs hmem]
      exact fun hgoes => hnew (beq_iff_eq.1 hgoes ▸ List.mem_map_of_mem hmem)

/-- Where each path occurs once, it does not matter which end is searched first. -/
theorem find?_reverse {docs : Documents} (h : docs.paths.Nodup) (path : String) :
    docs.reverse.find? (goesTo path) = docs.find? (goesTo path) := by
  induction docs with
  | nil => rfl
  | cons doc docs ih =>
    obtain ⟨hnew, hdocs⟩ := List.nodup_cons.1 h
    rw [List.reverse_cons, List.find?_append, ih hdocs]
    by_cases heq : doc.1 = path
    · rw [find?_eq_none.2 (heq ▸ hnew)]
      simp [goesTo, heq]
    · simp [goesTo, beq_eq_false_iff_ne.2 heq]

/-! ## Documents that are replaced -/

/-- The documents that a later one of the same list replaces. -/
def replaced : List (String × Value) → List (String × Value)
  | [] => []
  | doc :: docs => if doc.1 ∈ paths docs then doc :: replaced docs else replaced docs

theorem length_replaced (docs : List (String × Value)) :
    docs.length = (paths docs).dedup.length + (replaced docs).length := by
  induction docs with
  | nil => rfl
  | cons doc docs ih =>
    unfold replaced
    rw [List.length_cons, ih, paths_cons]
    split
    · rename_i h
      rw [List.dedup_cons_of_mem h, List.length_cons, Nat.add_assoc]
    · rename_i h
      rw [List.dedup_cons_of_notMem h, List.length_cons, Nat.add_right_comm]

/-- Of all documents, those are gathered that no later one replaces. -/
theorem length_gather (docs : List (String × Value)) : docs.length = (gather docs).length + (replaced docs).length := by
  have hperm : (gather docs).paths.Perm (paths docs).dedup :=
    (List.perm_ext_iff_of_nodup (nodup_gather docs) (List.nodup_dedup _)).2 fun path => by
      rw [mem_paths_gather, List.mem_dedup]
  rw [length_replaced docs, ← hperm.length_eq, paths, List.length_map]

end Documents

end NestedSite
