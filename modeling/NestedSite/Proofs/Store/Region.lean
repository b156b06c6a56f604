import NestedSite.Method.Collection

/-!
# Regions of the store

A `Region` is a set of places, together with the methods that mappings may be held with. A value lies in it
(`Value.In`) if all places in it do; a region holds of a store (`Region.Holds`) if what its places hold lies in it
again, and all places that are still free belong to it. So whoever starts from values of a region only meets values of
the region.

Two relations say how a world may go on:

* `Region.Reads`: lists, sets and mappings are as before, cursors of the region may have moved;
* `Region.Edits`: lists and sets of the region may have changed as well, and mappings from the floor of the region on.

New places may have come in both cases. Neither touches legends, metadata, notes or deeds.
-/

namespace NestedSite

structure Region where
  lists : Nat → Prop
  dicts : Nat → Prop
  sets : Nat → Prop
  cursors : Nat → Prop
  legends : Nat → Prop
  metadata : Nat → Prop
  /-- The cursors that values may hold; others may be open. -/
  held : Nat → Prop := cursors
  held_cursors : ∀ p, held p → cursors p := by exact fun _ h => h
  /-- The methods that a mapping of the region may be held with. -/
  bound : String → Prop
  bound_safe : ∀ name ∈ safeDictMethods, bound name
  /-- The mappings before this place are watched. -/
  floor : Nat
  /-- The helpers that values may hold. -/
  helpers : Helper → Prop := fun _ => True

def Value.isMapping : Value → Bool
  | .dict _ => true
  | _ => false

namespace Value

mutual

/-- All places in the value belong to the region. -/
def In (r : Region) : Value → Prop
  | tuple vs => AllIn r vs
  | slice a b c => In r a ∧ In r b ∧ In r c
  | list p => r.lists p
  | dict p => r.dicts p
  | set p => r.sets p
  | cursor p => r.held p
  | view _ p => r.dicts p
  | legend p => r.legends p
  | metadata p => r.metadata p
  | method v name => In r v ∧ (v.isMapping = true → r.bound name)
  | helper h => r.helpers h
  | none | bool _ | int _ | float _ | complex .. | text _ | bytes _ | date _ | moment _ | ellipsis | range ..
  | builtin _ | foreignType _ | typeMethod .. | classMethod .. | typeField .. => True

def AllIn (r : Region) : List Value → Prop
  | [] => True
  | v :: vs => In r v ∧ AllIn r vs

end

variable {r : Region}

theorem allIn_iff {vs : List Value} : AllIn r vs ↔ ∀ v ∈ vs, v.In r := by
  induction vs with
  | nil => simp [AllIn]
  | cons v vs ih => simp [AllIn, ih]

@[simp] theorem in_tuple {vs : List Value} : (tuple vs).In r ↔ ∀ v ∈ vs, v.In r := by rw [In, allIn_iff]

@[simp] theorem in_slice {a b c : Value} : (slice a b c).In r ↔ a.In r ∧ b.In r ∧ c.In r := Iff.rfl

@[simp] theorem in_list {p : Nat} : (list p).In r ↔ r.lists p := Iff.rfl

@[simp] theorem in_dict {p : Nat} : (dict p).In r ↔ r.dicts p := Iff.rfl

@[simp] theorem in_set {p : Nat} : (set p).In r ↔ r.sets p := Iff.rfl

@[simp] theorem in_cursor {p : Nat} : (cursor p).In r ↔ r.held p := Iff.rfl

@[simp] theorem in_view {kind : ViewKind} {p : Nat} : (view kind p).In r ↔ r.dicts p := Iff.rfl

@[simp] theorem in_legend {p : Nat} : (legend p).In r ↔ r.legends p := Iff.rfl

@[simp] theorem in_metadata {p : Nat} : (metadata p).In r ↔ r.metadata p := Iff.rfl

@[simp] theorem in_method {v : Value} {name : String} :
    (method v name).In r ↔ v.In r ∧ (v.isMapping = true → r.bound name) := Iff.rfl

@[simp] theorem in_none : none.In r := trivial

@[simp] theorem in_bool {b : Bool} : (bool b).In r := trivial

@[simp] theorem in_int {n : Int} : (int n).In r := trivial

@[simp] theorem in_float {x : Float} : (float x).In r := trivial

@[simp] theorem in_complex {re im : Float} : (complex re im).In r := trivial

@[simp] theorem in_text {t : String} : (text t).In r := trivial

@[simp] theorem in_bytes {bs : List UInt8} : (bytes bs).In r := trivial

@[simp] theorem in_date {d : Date} : (date d).In r := trivial

@[simp] theorem in_moment {m : Moment} : (moment m).In r := trivial

@[simp] theorem in_ellipsis : ellipsis.In r := trivial

@[simp] theorem in_range {a b c : Int} : (range a b c).In r := trivial

@[simp] theorem in_builtin {b : Builtin} : (builtin b).In r := trivial

@[simp] theorem in_helper {h : Helper} : (helper h).In r ↔ r.helpers h := Iff.rfl

@[simp] theorem in_foreignType {t : String} : (foreignType t).In r := trivial

@[simp] theorem in_typeMethod {t name : String} : (typeMethod t name).In r := trivial

@[simp] theorem in_classMethod {t name : String} : (classMethod t name).In r := trivial

@[simp] theorem in_typeField {t name : String} : (typeField t name).In r := trivial

end Value

/-- Values may hold all cursors of the region. -/
class Region.Open (r : Region) : Prop where
  held : ∀ p, r.cursors p → r.held p

/-- What the cursor still reads lies in the region. -/
def Cursor.In (r : Region) : Cursor → Prop
  | list p _ | listBack p _ => r.lists p
  | dict _ p _ _ | dictBack _ p _ _ => r.dicts p
  | items _ rest => ∀ v ∈ rest, v.In r
  | enumerate inner _ => r.cursors inner
  | zip inner _ => ∀ p ∈ inner, r.cursors p
  | range .. | done _ => True

/-- All keys and values lie in the region. -/
def Entries.In (r : Region) (es : Entries) : Prop := ∀ e ∈ es, e.1.In r ∧ e.2.In r

/-- All values of named fields lie in the region. -/
def FieldsIn (r : Region) (fields : List (String × Value)) : Prop := ∀ f ∈ fields, f.2.In r

structure Legend.In (r : Region) (l : Legend) : Prop where
  extras : FieldsIn r l.extras

structure Metadata.In (r : Region) (m : Metadata) : Prop where
  files : r.lists m.files
  extras : FieldsIn r m.extras

namespace Region

/-- What is found from the region is in the region, and so is every place that is still free. -/
structure Holds (r : Region) (s : Store) : Prop where
  lists : ∀ p, r.lists p → ∀ v ∈ s.list p, v.In r
  dicts : ∀ p, r.dicts p → (s.dict p).In r
  sets : ∀ p, r.sets p → ∀ v ∈ s.set p, v.In r
  cursors : ∀ p, r.cursors p → (s.cursor p).In r
  legends : ∀ p, r.legends p → (s.legend p).In r
  metadata : ∀ p, r.metadata p → (s.metadataAt p).In r
  freeLists : ∀ p, s.lists.size ≤ p → r.lists p
  freeDicts : ∀ p, s.dicts.size ≤ p → r.dicts p
  freeSets : ∀ p, s.sets.size ≤ p → r.sets p
  freeCursors : ∀ p, s.cursors.size ≤ p → r.cursors p
  freeLegends : ∀ p, s.legends.size ≤ p → r.legends p
  freeMetadata : ∀ p, s.metadata.size ≤ p → r.metadata p
  floor : r.floor ≤ s.dicts.size

/-- The region of all places. -/
def whole : Region where
  lists _ := True
  dicts _ := True
  sets _ := True
  cursors _ := True
  legends _ := True
  metadata _ := True
  bound _ := True
  bound_safe _ _ := trivial
  floor := 0

instance : whole.Open := ⟨fun _ h => h⟩

end Region

mutual

theorem Value.in_whole : ∀ v : Value, v.In Region.whole
  | .tuple vs => by rw [Value.In]; exact Value.allIn_whole vs
  | .slice a b c => ⟨Value.in_whole a, Value.in_whole b, Value.in_whole c⟩
  | .method v _ => ⟨Value.in_whole v, fun _ => trivial⟩
  | .list _ | .dict _ | .set _ | .cursor _ | .view .. | .legend _ | .metadata _ => trivial
  | .none | .bool _ | .int _ | .float _ | .complex .. | .text _ | .bytes _ | .date _ | .moment _ | .ellipsis
  | .range .. | .builtin _ | .helper _ | .foreignType _ | .typeMethod .. | .classMethod .. | .typeField .. => trivial

theorem Value.allIn_whole : ∀ vs : List Value, Value.AllIn Region.whole vs
  | [] => trivial
  | v :: vs => ⟨Value.in_whole v, Value.allIn_whole vs⟩

end

theorem Legend.in_whole (l : Legend) : l.In Region.whole := ⟨fun f _ => f.2.in_whole⟩

theorem Region.whole_holds (s : Store) : Region.whole.Holds s where
  lists _ _ v _ := v.in_whole
  dicts _ _ e _ := ⟨e.1.in_whole, e.2.in_whole⟩
  sets _ _ v _ := v.in_whole
  cursors p _ := by
    cases s.cursor p with
    | items _ rest => exact fun v _ => v.in_whole
    | zip inner _ => exact fun _ _ => trivial
    | _ => trivial
  legends _ _ := Legend.in_whole _
  metadata _ _ := ⟨trivial, fun f _ => f.2.in_whole⟩
  freeLists _ _ := trivial
  freeDicts _ _ := trivial
  freeSets _ _ := trivial
  freeCursors _ _ := trivial
  freeLegends _ _ := trivial
  freeMetadata _ _ := trivial
  floor := Nat.zero_le _

/-! ## Entries -/

namespace Entries

variable {r : Region} {es : Entries}

theorem in_nil : Entries.In r [] := fun _ h => absurd h List.not_mem_nil

theorem In.insert (h : es.In r) {k v : Value} (hk : k.In r) (hv : v.In r) : (es.insert k v).In r := by
  induction es with
  | nil =>
    intro e he
    simp only [Entries.insert, List.mem_singleton] at he
    subst he
    exact ⟨hk, hv⟩
  | cons e rest ih =>
    obtain ⟨k', v'⟩ := e
    have hrest : Entries.In r rest := fun e he => h e (List.mem_cons_of_mem _ he)
    have hhead := h (k', v') List.mem_cons_self
    unfold Entries.insert
    split
    · intro e he
      rcases List.mem_cons.1 he with rfl | he
      · exact ⟨hhead.1, hv⟩
      · exact hrest e he
    · intro e he
      rcases List.mem_cons.1 he with rfl | he
      · exact hhead
      · exact ih hrest e he

theorem In.merge (h : es.In r) {other : Entries} (ho : other.In r) : (es.merge other).In r := by
  unfold Entries.merge
  induction other generalizing es with
  | nil => exact h
  | cons e rest ih =>
    obtain ⟨hk, hv⟩ := ho e List.mem_cons_self
    exact ih (h.insert hk hv) fun e he => ho e (List.mem_cons_of_mem _ he)

theorem In.erase (h : es.In r) {k : Value} : (es.erase k).In r := fun e he => h e (List.mem_filter.1 he).1

theorem In.find? (h : es.In r) {k v : Value} (hf : es.find? k = some v) : v.In r := by
  obtain ⟨e, he, rfl⟩ := Option.map_eq_some_iff.1 hf
  exact (h e (List.mem_of_find?_eq_some he)).2

theorem In.view (h : es.In r) (kind : ViewKind) : ∀ v ∈ es.view kind, v.In r := by
  intro v hv
  cases kind with
  | keys =>
    obtain ⟨e, he, rfl⟩ := List.mem_map.1 hv
    exact (h e he).1
  | values =>
    obtain ⟨e, he, rfl⟩ := List.mem_map.1 hv
    exact (h e he).2
  | items =>
    obtain ⟨e, he, rfl⟩ := List.mem_map.1 hv
    simpa using h e he

theorem In.keys (h : es.In r) : ∀ v ∈ es.keys, v.In r := h.view .keys

end Entries

/-! ## Fields of legends and metadata -/

theorem FieldsIn.find? {r : Region} {fields : List (String × Value)} (h : FieldsIn r fields)
    {p : String × Value → Bool} {v : Value} (hf : (fields.find? p).map Prod.snd = some v) : v.In r := by
  obtain ⟨f, hm, rfl⟩ := Option.map_eq_some_iff.1 hf
  exact h f (List.mem_of_find?_eq_some hm)

theorem FieldsIn.getD {r : Region} {fields : List (String × Value)} (h : FieldsIn r fields)
    {p : String × Value → Bool} : (((fields.find? p).map Prod.snd).getD .none).In r := by
  cases hf : (fields.find? p).map Prod.snd with
  | none => exact Value.in_none
  | some v => exact h.find? hf

theorem Legend.In.fields {r : Region} {l : Legend} (h : l.In r) : FieldsIn r l.fields := by
  intro f hf
  simp only [Legend.fields, List.mem_cons] at hf
  rcases hf with rfl | rfl | hf
  · simp
  · cases l.echo <;> simp
  · exact h.extras f hf

theorem Metadata.In.fields {r : Region} {m : Metadata} (h : m.In r) : FieldsIn r m.fields := by
  intro f hf
  simp only [Metadata.fields, List.mem_cons] at hf
  rcases hf with rfl | rfl | hf
  · cases m.ignore <;> simp
  · simpa using h.files
  · exact h.extras f hf

/-! ## How a world goes on -/

namespace Region

/-- No place is given up; cursors outside of the region, legends, metadata, notes and deeds are as before. -/
structure Grows (r : Region) (w w' : World) : Prop where
  lists_le : w.store.lists.size ≤ w'.store.lists.size
  sets_le : w.store.sets.size ≤ w'.store.sets.size
  dicts_le : w.store.dicts.size ≤ w'.store.dicts.size
  cursors_le : w.store.cursors.size ≤ w'.store.cursors.size
  legends_le : w.store.legends.size ≤ w'.store.legends.size
  metadata_le : w.store.metadata.size ≤ w'.store.metadata.size
  cursors : ∀ p, ¬ r.cursors p → w'.store.cursor p = w.store.cursor p
  legends : ∀ p < w.store.legends.size, w'.store.legend p = w.store.legend p
  metadata : ∀ p < w.store.metadata.size, w'.store.metadataAt p = w.store.metadataAt p
  notes : w'.notes = w.notes
  deeds : w'.deeds = w.deeds

/-- Lists, sets and mappings are as before. -/
structure Reads (r : Region) (w w' : World) : Prop extends Grows r w w' where
  lists : ∀ p < w.store.lists.size, w'.store.list p = w.store.list p
  sets : ∀ p < w.store.sets.size, w'.store.set p = w.store.set p
  dicts : ∀ p < w.store.dicts.size, w'.store.dict p = w.store.dict p

/-- Lists and sets outside of the region are as before, and so are the mappings that are watched. -/
structure Edits (r : Region) (w w' : World) : Prop extends Grows r w w' where
  lists : ∀ p, ¬ r.lists p → w'.store.list p = w.store.list p
  sets : ∀ p, ¬ r.sets p → w'.store.set p = w.store.set p
  dicts : ∀ p < r.floor, w'.store.dict p = w.store.dict p

theorem Grows.refl (r : Region) (w : World) : r.Grows w w where
  lists_le := Nat.le_refl _
  sets_le := Nat.le_refl _
  dicts_le := Nat.le_refl _
  cursors_le := Nat.le_refl _
  legends_le := Nat.le_refl _
  metadata_le := Nat.le_refl _
  cursors _ _ := rfl
  legends _ _ := rfl
  metadata _ _ := rfl
  notes := rfl
  deeds := rfl

theorem Grows.trans {r : Region} {a b c : World} (h : r.Grows a b) (k : r.Grows b c) : r.Grows a c where
  lists_le := Nat.le_trans h.lists_le k.lists_le
  sets_le := Nat.le_trans h.sets_le k.sets_le
  dicts_le := Nat.le_trans h.dicts_le k.dicts_le
  cursors_le := Nat.le_trans h.cursors_le k.cursors_le
  legends_le := Nat.le_trans h.legends_le k.legends_le
  metadata_le := Nat.le_trans h.metadata_le k.metadata_le
  cursors p hp := (k.cursors p hp).trans (h.cursors p hp)
  legends p hp := (k.legends p (Nat.lt_of_lt_of_le hp h.legends_le)).trans (h.legends p hp)
  metadata p hp := (k.metadata p (Nat.lt_of_lt_of_le hp h.metadata_le)).trans (h.metadata p hp)
  notes := k.notes.trans h.notes
  deeds := k.deeds.trans h.deeds

theorem Reads.refl (r : Region) (w : World) : r.Reads w w where
  toGrows := .refl r w
  lists _ _ := rfl
  sets _ _ := rfl
  dicts _ _ := rfl

theorem Reads.trans {r : Region} {a b c : World} (h : r.Reads a b) (k : r.Reads b c) : r.Reads a c where
  toGrows := h.toGrows.trans k.toGrows
  lists p hp := (k.lists p (Nat.lt_of_lt_of_le hp h.lists_le)).trans (h.lists p hp)
  sets p hp := (k.sets p (Nat.lt_of_lt_of_le hp h.sets_le)).trans (h.sets p hp)
  dicts p hp := (k.dicts p (Nat.lt_of_lt_of_le hp h.dicts_le)).trans (h.dicts p hp)

theorem Edits.refl (r : Region) (w : World) : r.Edits w w where
  toGrows := .refl r w
  lists _ _ := rfl
  sets _ _ := rfl
  dicts _ _ := rfl

theorem Edits.trans {r : Region} {a b c : World} (h : r.Edits a b) (k : r.Edits b c) : r.Edits a c where
  toGrows := h.toGrows.trans k.toGrows
  lists p hp := (k.lists p hp).trans (h.lists p hp)
  sets p hp := (k.sets p hp).trans (h.sets p hp)
  dicts p hp := (k.dicts p hp).trans (h.dicts p hp)

/-- Places outside of a region that holds are in use. -/
theorem Reads.edits {r : Region} {w w' : World} (hr : r.Holds w.store) (h : r.Reads w w') : r.Edits w w' where
  toGrows := h.toGrows
  lists p hp := h.lists p (Nat.lt_of_not_le fun hle => hp (hr.freeLists p hle))
  sets p hp := h.sets p (Nat.lt_of_not_le fun hle => hp (hr.freeSets p hle))
  dicts p hp := h.dicts p (Nat.lt_of_lt_of_le hp hr.floor)

end Region

end NestedSite
