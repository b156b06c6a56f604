import NestedSite.Proofs.Store.Region
import NestedSite.Proofs.Store.Sameness

/-!
# Moving values to other places

A `Relocation` says, for each kind of place, where the places of one store are found in another; two of them are never
found at one. Moving a value (`Value.moved`) puts the new places for the old ones and leaves the rest of it alone. What
is decided by values alone does not depend on where their places are (`Value.identical_moved`, `Value.sameKey_moved`),
and so entries and sets of keys are looked up and changed in the same way (`Entries.find?_moved`,
`Entries.insert_moved`, `addKey_moved`, …).
-/

namespace NestedSite

/-- Where the places of one store are found in another. -/
structure Relocation where
  lists : Nat → Nat
  dicts : Nat → Nat
  sets : Nat → Nat
  cursors : Nat → Nat
  legends : Nat → Nat
  metadata : Nat → Nat
  lists_inj : ∀ {p q}, lists p = lists q ↔ p = q
  dicts_inj : ∀ {p q}, dicts p = dicts q ↔ p = q
  sets_inj : ∀ {p q}, sets p = sets q ↔ p = q
  cursors_inj : ∀ {p q}, cursors p = cursors q ↔ p = q
  legends_inj : ∀ {p q}, legends p = legends q ↔ p = q
  metadata_inj : ∀ {p q}, metadata p = metadata q ↔ p = q

attribute [simp] Relocation.lists_inj Relocation.dicts_inj Relocation.sets_inj Relocation.cursors_inj
  Relocation.legends_inj Relocation.metadata_inj

namespace Value

mutual

/-- The value with all its places moved. -/
def moved (ρ : Relocation) : Value → Value
  | tuple vs => tuple (movedAll ρ vs)
  | slice a b c => slice (moved ρ a) (moved ρ b) (moved ρ c)
  | list p => list (ρ.lists p)
  | dict p => dict (ρ.dicts p)
  | set p => set (ρ.sets p)
  | cursor p => cursor (ρ.cursors p)
  | view kind p => view kind (ρ.dicts p)
  | legend p => legend (ρ.legends p)
  | metadata p => metadata (ρ.metadata p)
  | method v name => method (moved ρ v) name
  | none => none
  | bool b => bool b
  | int n => int n
  | float x => float x
  | complex re im => complex re im
  | text s => text s
  | bytes bs => bytes bs
  | date d => date d
  | moment m => moment m
  | ellipsis => ellipsis
  | range a b c => range a b c
  | builtin b => builtin b
  | helper h => helper h
  | foreignType t => foreignType t
  | typeMethod t name => typeMethod t name
  | classMethod t name => classMethod t name
  | typeField t name => typeField t name

def movedAll (ρ : Relocation) : List Value → List Value
  | [] => []
  | v :: vs => moved ρ v :: movedAll ρ vs

end

attribute [simp] moved

@[simp] theorem movedAll_eq_map (ρ : Relocation) (vs : List Value) : movedAll ρ vs = vs.map (moved ρ) := by
  induction vs with
  | nil => rfl
  | cons v vs ih => rw [movedAll, ih, List.map_cons]

end Value

/-- Named fields with the places in their values moved. -/
def movedFields (ρ : Relocation) (fields : List (String × Value)) : List (String × Value) :=
  fields.map fun f => (f.1, f.2.moved ρ)

def Entries.moved (ρ : Relocation) (es : Entries) : Entries := List.map (fun e => (e.1.moved ρ, e.2.moved ρ)) es

def Cursor.moved (ρ : Relocation) : Cursor → Cursor
  | list p next => list (ρ.lists p) next
  | listBack p left => listBack (ρ.lists p) left
  | dict kind p next size => dict kind (ρ.dicts p) next size
  | dictBack kind p left size => dictBack kind (ρ.dicts p) left size
  | range next step left => range next step left
  | items type rest => items type (rest.map (Value.moved ρ))
  | enumerate inner count => enumerate (ρ.cursors inner) count
  | zip inner strict => zip (inner.map ρ.cursors) strict
  | done type => done type

def Legend.moved (ρ : Relocation) (l : Legend) : Legend := { l with extras := movedFields ρ l.extras }

def Metadata.moved (ρ : Relocation) (m : Metadata) : Metadata :=
  { m with files := ρ.lists m.files, extras := movedFields ρ m.extras }

variable (ρ : Relocation)

/-! ## Values without places -/

/-- The region without places. -/
def Region.nowhere : Region where
  lists _ := False
  dicts _ := False
  sets _ := False
  cursors _ := False
  legends _ := False
  metadata _ := False
  bound _ := True
  bound_safe _ _ := trivial
  floor := 0

mutual

/-- A value that holds no places stays as it is. -/
theorem Value.moved_of_in_nowhere : ∀ v : Value, v.In .nowhere → v.moved ρ = v
  | .tuple vs, h => by
    rw [Value.moved, Value.movedAll_of_in_nowhere vs h]
  | .slice a b c, h => by
    rw [Value.moved, moved_of_in_nowhere a h.1, moved_of_in_nowhere b h.2.1, moved_of_in_nowhere c h.2.2]
  | .method v _, h => by rw [Value.moved, moved_of_in_nowhere v h.1]
  | .list _, h | .dict _, h | .set _, h | .cursor _, h | .view .., h | .legend _, h | .metadata _, h => h.elim
  | .none, _ | .bool _, _ | .int _, _ | .float _, _ | .complex .., _ | .text _, _ | .bytes _, _ | .date _, _
  | .moment _, _ | .ellipsis, _ | .range .., _ | .builtin _, _ | .helper _, _ | .foreignType _, _ | .typeMethod .., _
  | .classMethod .., _ | .typeField .., _ => rfl

theorem Value.movedAll_of_in_nowhere : ∀ vs : List Value, Value.AllIn .nowhere vs → Value.movedAll ρ vs = vs
  | [], _ => rfl
  | v :: vs, h => by rw [Value.movedAll, moved_of_in_nowhere v h.1, movedAll_of_in_nowhere vs h.2]

end

/-! ## What is decided by values alone -/

/-- Places that are kept apart are the same where they are found if and only if they are the same. -/
theorem beq_eq_of_inj {f : Nat → Nat} {p q : Nat} (h : f p = f q ↔ p = q) : (f p == f q) = (p == q) := by
  rw [Bool.eq_iff_iff, beq_iff_eq, beq_iff_eq, h]

namespace Value

@[simp] theorem numeric?_moved (v : Value) : (v.moved ρ).numeric? = v.numeric? := by cases v <;> rfl

@[simp] theorem int?_moved (v : Value) : (v.moved ρ).int? = v.int? := by cases v <;> rfl

@[simp] theorem isCallable_moved (v : Value) : (v.moved ρ).isCallable = v.isCallable := by cases v <;> rfl

theorem moved_ne_dict {v : Value} (h : ∀ p, v ≠ dict p) (p : Nat) : v.moved ρ ≠ dict p := by
  cases v
  case dict q => exact absurd rfl (h q)
  all_goals nofun

mutual

@[simp] theorem identical_moved : ∀ a b : Value, identical (a.moved ρ) (b.moved ρ) = identical a b := by
  intro a b
  cases a <;> cases b <;> try rfl
  case tuple xs ys => exact identicalAll_moved xs ys
  case slice a b c d e f => simp only [moved, identical, identical_moved]
  case method v f w g => simp only [moved, identical, identical_moved]
  case list => exact beq_eq_of_inj ρ.lists_inj
  case dict => exact beq_eq_of_inj ρ.dicts_inj
  case set => exact beq_eq_of_inj ρ.sets_inj
  case cursor => exact beq_eq_of_inj ρ.cursors_inj
  case legend => exact beq_eq_of_inj ρ.legends_inj
  case metadata => exact beq_eq_of_inj ρ.metadata_inj
  case view => exact congrArg _ (beq_eq_of_inj ρ.dicts_inj)

theorem identicalAll_moved : ∀ xs ys : List Value, identicalAll (movedAll ρ xs) (movedAll ρ ys) = identicalAll xs ys
  | [], [] => rfl
  | [], _ :: _ => rfl
  | _ :: _, [] => rfl
  | x :: xs, y :: ys => by
    simp only [movedAll, identicalAll, identical_moved x y, identicalAll_moved xs ys]

end

mutual

@[simp] theorem sameKey_moved : ∀ a b : Value, sameKey (a.moved ρ) (b.moved ρ) = sameKey a b := by
  intro a b
  cases a
  case tuple xs =>
    cases b
    case tuple ys => exact sameKeys_moved xs ys
    all_goals rfl
  case range x y z => cases b <;> rfl
  case moment m => cases b <;> rfl
  all_goals
    rw [sameKey_plain (by simp) (by simp) (by simp), sameKey_plain (by simp) (by simp) (by simp), identical_moved,
      numeric?_moved, numeric?_moved]

theorem sameKeys_moved : ∀ xs ys : List Value, sameKeys (movedAll ρ xs) (movedAll ρ ys) = sameKeys xs ys
  | [], [] => rfl
  | [], _ :: _ => rfl
  | _ :: _, [] => rfl
  | x :: xs, y :: ys => by simp only [movedAll, sameKeys, sameKey_moved x y, sameKeys_moved xs ys]

end

mutual

@[simp] theorem isKey_moved : ∀ v : Value, (v.moved ρ).isKey = v.isKey := by
  intro v
  cases v
  case tuple vs => exact areKeys_moved vs
  case view kind p => cases kind <;> rfl
  all_goals rfl

theorem areKeys_moved : ∀ vs : List Value, areKeys (movedAll ρ vs) = areKeys vs
  | [] => rfl
  | v :: vs => by simp only [movedAll, areKeys, isKey_moved v, areKeys_moved vs]

end

end Value

@[simp] theorem any_identical_moved (v : Value) (vs : List Value) :
    (vs.map (Value.moved ρ)).any (v.moved ρ).identical = vs.any v.identical := by
  simp only [List.any_map, Function.comp_def, Value.identical_moved]

/-! ## Named fields -/

@[simp] theorem find?_movedFields (fields : List (String × Value)) (name : String) :
    (movedFields ρ fields).find? (fun f => f.1 == name) =
      (fields.find? fun f => f.1 == name).map fun f => (f.1, f.2.moved ρ) := by
  simp only [movedFields, List.find?_map, Function.comp_def]

theorem movedFields_cons (f : String × Value) (fields : List (String × Value)) :
    movedFields ρ (f :: fields) = (f.1, f.2.moved ρ) :: movedFields ρ fields := rfl

theorem movedFields_append (fields others : List (String × Value)) :
    movedFields ρ (fields ++ others) = movedFields ρ fields ++ movedFields ρ others := List.map_append

@[simp] theorem length_movedFields (fields : List (String × Value)) :
    (movedFields ρ fields).length = fields.length := List.length_map _

@[simp] theorem fields_legend_moved (l : Legend) : (l.moved ρ).fields = movedFields ρ l.fields := by
  obtain ⟨name, echo, given, extras⟩ := l
  cases echo <;> rfl

@[simp] theorem fields_metadata_moved (m : Metadata) : (m.moved ρ).fields = movedFields ρ m.fields := by
  obtain ⟨ignore, files, extras⟩ := m
  cases ignore <;> rfl

/-! ## Entries -/

namespace Entries

theorem moved_nil : Entries.moved ρ [] = [] := rfl

theorem moved_append (es others : Entries) : Entries.moved ρ (es ++ others) = es.moved ρ ++ others.moved ρ :=
  List.map_append

@[simp] theorem length_moved (es : Entries) : (es.moved ρ).length = es.length := List.length_map _

theorem getLast?_moved (es : Entries) :
    (es.moved ρ).getLast? = (List.getLast? es).map fun e => (e.1.moved ρ, e.2.moved ρ) := List.getLast?_map

@[simp] theorem find?_moved (es : Entries) (k : Value) :
    (es.moved ρ).find? (k.moved ρ) = (es.find? k).map (Value.moved ρ) := by
  simp only [find?, moved, List.find?_map, Function.comp_def, Value.sameKey_moved, Option.map_map]

@[simp] theorem insert_moved (es : Entries) (k v : Value) :
    (es.moved ρ).insert (k.moved ρ) (v.moved ρ) = (es.insert k v).moved ρ := by
  induction es with
  | nil => rfl
  | cons e es ih =>
    have ih : insert (es.map fun e => (e.1.moved ρ, e.2.moved ρ)) (k.moved ρ) (v.moved ρ) =
      (insert es k v).map fun e => (e.1.moved ρ, e.2.moved ρ) := ih
    simp only [moved, List.map_cons, insert, Value.sameKey_moved]
    split
    · rfl
    · rw [ih, List.map_cons]

@[simp] theorem erase_moved (es : Entries) (k : Value) : (es.moved ρ).erase (k.moved ρ) = (es.erase k).moved ρ := by
  simp only [erase, moved, List.filter_map, Function.comp_def, Value.sameKey_moved]

@[simp] theorem merge_moved (es others : Entries) :
    (es.moved ρ).merge (others.moved ρ) = (es.merge others).moved ρ := by
  induction others generalizing es with
  | nil => rfl
  | cons e others ih => 
    have h := ih (es.insert e.1 e.2)
    rw [← insert_moved] at h
    exact h

@[simp] theorem keys_moved (es : Entries) : (es.moved ρ).keys = es.keys.map (Value.moved ρ) := by
  simp only [keys, moved, List.map_map, Function.comp_def]

@[simp] theorem view_moved (es : Entries) (kind : ViewKind) :
    (es.moved ρ).view kind = (es.view kind).map (Value.moved ρ) := by
  cases kind <;>
    simp only [view, keys, values, items, moved, List.map_map, Function.comp_def, Value.moved, Value.movedAll]

end Entries

/-! ## Sets of keys -/

@[simp] theorem hasKey_moved (vs : List Value) (v : Value) :
    hasKey (vs.map (Value.moved ρ)) (v.moved ρ) = hasKey vs v := by
  simp only [hasKey, List.any_map, Function.comp_def, Value.sameKey_moved]

@[simp] theorem addKey_moved (vs : List Value) (v : Value) :
    addKey (vs.map (Value.moved ρ)) (v.moved ρ) = (addKey vs v).map (Value.moved ρ) := by
  unfold addKey
  rw [hasKey_moved]
  split
  · rfl
  · rw [List.map_append]; rfl

theorem foldl_addKey_moved (vs us : List Value) :
    (us.map (Value.moved ρ)).foldl addKey (vs.map (Value.moved ρ)) = (us.foldl addKey vs).map (Value.moved ρ) := by
  induction us generalizing vs with
  | nil => rfl
  | cons u us ih => rw [List.map_cons, List.foldl_cons, List.foldl_cons, addKey_moved, ih]

theorem filter_hasKey_moved (vs us : List Value) :
    (us.map (Value.moved ρ)).filter (hasKey (vs.map (Value.moved ρ))) =
      (us.filter (hasKey vs)).map (Value.moved ρ) := by
  simp only [List.filter_map, Function.comp_def, hasKey_moved]

theorem filter_not_hasKey_moved (vs us : List Value) :
    (us.map (Value.moved ρ)).filter (fun x => !hasKey (vs.map (Value.moved ρ)) x) =
      (us.filter fun x => !hasKey vs x).map (Value.moved ρ) := by
  simp only [List.filter_map, Function.comp_def, hasKey_moved]

theorem filter_not_sameKey_moved (us : List Value) (v : Value) :
    (us.map (Value.moved ρ)).filter (fun x => !x.sameKey (v.moved ρ)) =
      (us.filter fun x => !x.sameKey v).map (Value.moved ρ) := by
  simp only [List.filter_map, Function.comp_def, Value.sameKey_moved]

end NestedSite
