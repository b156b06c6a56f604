/-!
# Values by their keys

A value is put under a key in the place of one that is there, or else behind the others. Of values that are put one
after the other, the last one of its key is found (`Keyed.find?_putAll`), and the keys are in the order of their first
appearance (`Keyed.keys_putAll`).
-/

namespace NestedSite.Keyed

variable {α : Type}

/-- Whether a value is put under a key. -/
def goesTo (key : String) (x : String × α) : Bool := x.1 == key

def keys (xs : List (String × α)) : List String := xs.map Prod.fst

/-- Puts a value under a key, in the place of one that is there. -/
def put (xs : List (String × α)) (key : String) (a : α) : List (String × α) :=
  if xs.any fun x => x.1 == key then xs.map fun x => if x.1 == key then (key, a) else x else xs ++ [(key, a)]

theorem any_goesTo {xs : List (String × α)} {key : String} : xs.any (goesTo key) = true ↔ key ∈ keys xs := by
  simp [goesTo, keys]

theorem put_of_mem {xs : List (String × α)} {key : String} (h : key ∈ keys xs) (a : α) :
    put xs key a = xs.map fun x => if x.1 == key then (key, a) else x := if_pos (any_goesTo.2 h)

theorem put_of_notMem {xs : List (String × α)} {key : String} (h : key ∉ keys xs) (a : α) :
    put xs key a = xs ++ [(key, a)] := if_neg (mt any_goesTo.1 h)

theorem keys_put (xs : List (String × α)) (key : String) (a : α) :
    keys (put xs key a) = if key ∈ keys xs then keys xs else keys xs ++ [key] := by
  split
  · rename_i h
    rw [put_of_mem h, keys, keys, List.map_map]
    refine List.map_congr_left fun x _ => ?_
    by_cases hx : x.1 = key <;> simp [hx]
  · rename_i h
    rw [put_of_notMem h, keys, List.map_append]
    rfl

theorem key_of_find? {xs : List (String × α)} {key : String} {x : String × α} (h : xs.find? (goesTo key) = some x) :
    x.1 = key := by
  have hgoes := List.find?_some h
  simpa [goesTo] using hgoes

theorem find?_eq_none {xs : List (String × α)} {key : String} : xs.find? (goesTo key) = none ↔ key ∉ keys xs := by
  rw [List.find?_eq_none, ← any_goesTo, List.any_eq_true, not_exists]
  exact forall_congr' fun x => by rw [not_and]

theorem find?_put (xs : List (String × α)) (key other : String) (a : α) :
    (put xs key a).find? (goesTo other) = if key = other then some (key, a) else xs.find? (goesTo other) := by
  by_cases hmem : key ∈ keys xs
  · have hgoes : goesTo other ∘ (fun x => if x.1 == key then (key, a) else x) = goesTo other := by
      funext x
      by_cases hx : x.1 = key <;> simp [goesTo, hx]
    rw [put_of_mem hmem, List.find?_map, hgoes]
    cases hfound : xs.find? (goesTo other) with
    | none =>
      have hne : key ≠ other := fun heq => find?_eq_none.1 hfound (heq ▸ hmem)
      rw [if_neg hne, Option.map_none]
    | some x =>
      have hx := key_of_find? hfound
      by_cases heq : key = other
      · simp [heq, hx]
      · simp [heq, hx, Ne.symm heq]
  · rw [put_of_notMem hmem, List.find?_append]
    by_cases heq : key = other
    · rw [find?_eq_none.2 (heq ▸ hmem)]
      simp [goesTo, heq]
    · simp [goesTo, heq]

/-- Puts values one after the other. -/
def putAll (xs more : List (String × α)) : List (String × α) := more.foldl (fun all x => put all x.1 x.2) xs

@[simp] theorem putAll_nil (xs : List (String × α)) : putAll xs [] = xs := rfl

@[simp] theorem putAll_cons (xs : List (String × α)) (x : String × α) (more : List (String × α)) :
    putAll xs (x :: more) = putAll (put xs x.1 x.2) more := rfl

theorem putAll_append (xs more others : List (String × α)) :
    putAll xs (more ++ others) = putAll (putAll xs more) others := List.foldl_append

/-- What is found under a key is what was put there last. -/
theorem find?_putAll (xs more : List (String × α)) (key : String) :
    (putAll xs more).find? (goesTo key) = (more.reverse.find? (goesTo key)).or (xs.find? (goesTo key)) := by
  induction more generalizing xs with
  | nil => rfl
  | cons x more ih =>
    rw [putAll_cons, ih, find?_put, List.reverse_cons, List.find?_append, Option.or_assoc]
    congr 1
    by_cases heq : x.1 = key
    · subst heq
      simp [goesTo]
    · simp [goesTo, heq]

/-- Behind the keys that are there, the others are in the order of their first appearance. -/
theorem keys_putAll_append (xs more : List (String × α)) :
    keys (putAll xs more) = keys xs ++ ((keys more).filter fun key => !(keys xs).contains key).eraseDups := by
  induction more generalizing xs with
  | nil => exact (List.append_nil _).symm
  | cons x more ih =>
    rw [putAll_cons, ih, keys_put, show keys (x :: more) = x.1 :: keys more from rfl]
    by_cases hx : x.1 ∈ keys xs
    · rw [if_pos hx, List.filter_cons_of_neg (by simpa using hx)]
    · rw [if_neg hx, List.filter_cons_of_pos (by simpa using hx), List.eraseDups_cons, List.filter_filter,
        List.append_assoc, List.singleton_append]
      have hother (key : String) : (!(keys xs ++ [x.1]).contains key) = (!key == x.1 && !(keys xs).contains key) := by
        simp [Bool.and_comm, Bool.beq_eq_decide_eq]
      simp only [hother]

theorem keys_putAll (more : List (String × α)) : keys (putAll [] more) = (keys more).eraseDups := by
  have hall : (keys more).filter (fun key => !(keys ([] : List (String × α))).contains key) = keys more :=
    List.filter_eq_self.2 fun _ _ => rfl
  rw [keys_putAll_append, hall]
  rfl

end NestedSite.Keyed
