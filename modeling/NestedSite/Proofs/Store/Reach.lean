import NestedSite.Proofs.Store.Region

/-!
# What is reached from given values

`Store.Reaches` collects the values that are reached from given ones through the places of a store. A region of just
the places that are reached and of those that are free holds (`Region.IsReached.holds`). If no mapping reached is held
with a method that writes to it (`Value.BindsSafely`), such a region lets mappings be looked at only, and watches all
mappings that there are (`Region.reached_isReached`).
-/

namespace NestedSite

/-- What a cursor reads from. -/
def Cursor.parts : Cursor → List Value
  | list p _ | listBack p _ => [.list p]
  | dict _ p _ _ | dictBack _ p _ _ => [.dict p]
  | items _ rest => rest
  | enumerate inner _ => [.cursor inner]
  | zip inner _ => inner.map Value.cursor
  | range .. | done _ => []

/-- The values that a value holds. -/
def Value.parts (s : Store) : Value → List Value
  | tuple vs => vs
  | slice a b c => [a, b, c]
  | list p => s.list p
  | dict p => (s.dict p).flatMap fun e => [e.1, e.2]
  | set p => s.set p
  | cursor p => (s.cursor p).parts
  | view _ p => [.dict p]
  | legend p => (s.legend p).extras.map Prod.snd
  | metadata p => .list (s.metadataAt p).files :: (s.metadataAt p).extras.map Prod.snd
  | method v _ => [v]
  | none | bool _ | int _ | float _ | complex .. | text _ | bytes _ | date _ | moment _ | ellipsis | range ..
  | builtin _ | helper _ | foreignType _ | typeMethod .. | classMethod .. | typeField .. => []

/-- The values that are reached from `roots`. -/
inductive Store.Reaches (s : Store) (roots : List Value) : Value → Prop where
  | root {v : Value} (h : v ∈ roots) : s.Reaches roots v
  | part {u v : Value} (h : s.Reaches roots u) (hv : v ∈ u.parts s) : s.Reaches roots v

/-- The region is made of the places that are reached from `roots` and of those that are free. -/
structure Region.IsReached (r : Region) (s : Store) (roots : List Value) : Prop where
  lists : ∀ p, r.lists p ↔ s.Reaches roots (.list p) ∨ s.lists.size ≤ p
  dicts : ∀ p, r.dicts p ↔ s.Reaches roots (.dict p) ∨ s.dicts.size ≤ p
  sets : ∀ p, r.sets p ↔ s.Reaches roots (.set p) ∨ s.sets.size ≤ p
  cursors : ∀ p, r.cursors p ↔ s.Reaches roots (.cursor p) ∨ s.cursors.size ≤ p
  legends : ∀ p, r.legends p ↔ s.Reaches roots (.legend p) ∨ s.legends.size ≤ p
  metadata : ∀ p, r.metadata p ↔ s.Reaches roots (.metadata p) ∨ s.metadata.size ≤ p
  held : ∀ p, s.Reaches roots (.cursor p) → r.held p
  bound : ∀ p name, s.Reaches roots (.method (.dict p) name) → r.bound name
  floor : r.floor ≤ s.dicts.size
  helpers : ∀ h, s.Reaches roots (.helper h) → r.helpers h

namespace Region.IsReached

variable {r : Region} {s : Store} {roots : List Value} (h : r.IsReached s roots)

include h

set_option linter.unusedSectionVars false in
mutual

theorem value : ∀ v : Value, s.Reaches roots v → v.In r
  | .tuple vs, hv => by
    rw [Value.In]
    exact values vs fun v hmem => .part hv hmem
  | .slice a b c, hv =>
    ⟨value a (.part hv (by simp [Value.parts])), value b (.part hv (by simp [Value.parts])),
      value c (.part hv (by simp [Value.parts]))⟩
  | .method v name, hv => by
    refine ⟨value v (.part hv (by simp [Value.parts])), fun hmapping => ?_⟩
    cases v with
    | dict p => exact h.bound p name hv
    | _ => cases hmapping
  | .view _ p, hv => (h.dicts p).2 (.inl (.part hv (by simp [Value.parts])))
  | .list p, hv => (h.lists p).2 (.inl hv)
  | .dict p, hv => (h.dicts p).2 (.inl hv)
  | .set p, hv => (h.sets p).2 (.inl hv)
  | .cursor p, hv => h.held p hv
  | .helper helper, hv => h.helpers helper hv
  | .legend p, hv => (h.legends p).2 (.inl hv)
  | .metadata p, hv => (h.metadata p).2 (.inl hv)
  | .none, _ | .bool _, _ | .int _, _ | .float _, _ | .complex .., _ | .text _, _ | .bytes _, _ | .date _, _
  | .moment _, _ | .ellipsis, _ | .range .., _ | .builtin _, _ | .foreignType _, _ | .typeMethod .., _
  | .classMethod .., _ | .typeField .., _ => trivial

theorem values : ∀ vs : List Value, (∀ v ∈ vs, s.Reaches roots v) → Value.AllIn r vs
  | [], _ => trivial
  | v :: vs, hvs => ⟨value v (hvs v List.mem_cons_self), values vs fun u hu => hvs u (List.mem_cons_of_mem _ hu)⟩

end

/-- What a cursor reads from lies in the region that it is reached from. -/
theorem cursor {c : Cursor} (hc : ∀ v ∈ c.parts, s.Reaches roots v) : c.In r := by
  cases c with
  | list p _ | listBack p _ => exact (h.lists p).2 (.inl (hc (.list p) (by simp [Cursor.parts])))
  | dict _ p _ _ | dictBack _ p _ _ => exact (h.dicts p).2 (.inl (hc (.dict p) (by simp [Cursor.parts])))
  | items _ rest => exact fun v hv => h.value v (hc v hv)
  | enumerate inner _ => exact (h.cursors inner).2 (.inl (hc (.cursor inner) (by simp [Cursor.parts])))
  | zip inner _ =>
    exact fun p hp => (h.cursors p).2 (.inl (hc (.cursor p) (by simpa [Cursor.parts] using hp)))
  | range | done => trivial

theorem holds : r.Holds s where
  lists p hp v hv := by
    rcases (h.lists p).1 hp with hp | hp
    · exact h.value v (.part hp hv)
    · simp [Store.list, hp] at hv
  dicts p hp e he := by
    rcases (h.dicts p).1 hp with hp | hp
    · have hparts : e.1 ∈ (Value.dict p).parts s ∧ e.2 ∈ (Value.dict p).parts s :=
        ⟨List.mem_flatMap.2 ⟨e, he, by simp⟩, List.mem_flatMap.2 ⟨e, he, by simp⟩⟩
      exact ⟨h.value _ (.part hp hparts.1), h.value _ (.part hp hparts.2)⟩
    · simp [Store.dict, hp] at he
  sets p hp v hv := by
    rcases (h.sets p).1 hp with hp | hp
    · exact h.value v (.part hp hv)
    · simp [Store.set, hp] at hv
  cursors p hp := by
    rcases (h.cursors p).1 hp with hp | hp
    · exact h.cursor fun v hv => .part hp hv
    · simp [Store.cursor, hp, Cursor.In]
  legends p hp := by
    refine ⟨fun f hf => ?_⟩
    rcases (h.legends p).1 hp with hp | hp
    · exact h.value _ (.part hp (List.mem_map_of_mem hf))
    · rw [Store.legend, Array.getElem?_eq_none hp] at hf
      exact absurd hf List.not_mem_nil
  metadata p hp := by
    rcases (h.metadata p).1 hp with hp | hp
    · refine ⟨(h.lists _).2 (.inl (.part hp List.mem_cons_self)), fun f hf => ?_⟩
      exact h.value _ (.part hp (List.mem_cons_of_mem _ (List.mem_map_of_mem hf)))
    · simp only [Store.metadataAt, hp, Array.getElem?_eq_none, Option.getD_none]
      exact ⟨(h.lists _).2 (.inr (Nat.le_refl _)), fun _ hf => absurd hf List.not_mem_nil⟩
  freeLists p hp := (h.lists p).2 (.inr hp)
  freeDicts p hp := (h.dicts p).2 (.inr hp)
  freeSets p hp := (h.sets p).2 (.inr hp)
  freeCursors p hp := (h.cursors p).2 (.inr hp)
  freeLegends p hp := (h.legends p).2 (.inr hp)
  freeMetadata p hp := (h.metadata p).2 (.inr hp)
  floor := h.floor

end Region.IsReached

/-- The places that are reached from `roots`, and those that are free. -/
def Region.reached (s : Store) (roots : List Value) : Region where
  lists p := s.Reaches roots (.list p) ∨ s.lists.size ≤ p
  dicts p := s.Reaches roots (.dict p) ∨ s.dicts.size ≤ p
  sets p := s.Reaches roots (.set p) ∨ s.sets.size ≤ p
  cursors p := s.Reaches roots (.cursor p) ∨ s.cursors.size ≤ p
  legends p := s.Reaches roots (.legend p) ∨ s.legends.size ≤ p
  metadata p := s.Reaches roots (.metadata p) ∨ s.metadata.size ≤ p
  bound name := name ∈ safeDictMethods
  bound_safe _ h := h
  floor := s.dicts.size

variable {s : Store} {roots : List Value}

instance : (Region.reached s roots).Open := ⟨fun _ h => h⟩

/-- The region of what is reached, where mappings may be held with any method; no values hold other helpers than
`helpers`. -/
def Region.reachedWith (helpers : Helper → Prop) (s : Store) (roots : List Value) : Region :=
  { reached s roots with bound := fun _ => True, bound_safe := fun _ _ => trivial, helpers }

instance {helpers : Helper → Prop} : (Region.reachedWith helpers s roots).Open := ⟨fun _ h => h⟩

theorem Region.reachedWith_isReached {helpers : Helper → Prop}
    (hhelpers : ∀ h, s.Reaches roots (.helper h) → helpers h) : (reachedWith helpers s roots).IsReached s roots where
  lists _ := Iff.rfl
  dicts _ := Iff.rfl
  sets _ := Iff.rfl
  cursors _ := Iff.rfl
  legends _ := Iff.rfl
  metadata _ := Iff.rfl
  held _ := .inl
  bound _ _ _ := trivial
  floor := Nat.le_refl _
  helpers := hhelpers

/-- The value is no method that would write to its mapping. -/
def Value.BindsSafely : Value → Prop
  | method (dict _) name => name ∈ safeDictMethods
  | _ => True

theorem Region.reached_isReached (hsafe : ∀ v, s.Reaches roots v → v.BindsSafely) :
    (reached s roots).IsReached s roots where
  lists _ := Iff.rfl
  dicts _ := Iff.rfl
  sets _ := Iff.rfl
  cursors _ := Iff.rfl
  legends _ := Iff.rfl
  metadata _ := Iff.rfl
  held _ := .inl
  bound _ _ h := hsafe _ h
  floor := Nat.le_refl _
  helpers _ _ := trivial

end NestedSite
