import Mathlib.Data.List.InsertIdx
import NestedSite.Proofs.Relocation.Operators

/-!
# Methods of containers that are moved

What the methods of lists, tuples, mappings, sets, ranges and views give and change is moved along with the containers
and the arguments (`Run.callList_moves`, `Run.callDict_moves`, `Run.callSet_moves`, …).
-/

namespace NestedSite

variable {ρ : Relocation}

namespace Run

/-- Where a value is found among items that are moved as well. -/
theorem indexOf?_moves (v : Value) (vs : List Value) : Moves ρ id (read fun s => s.indexOf? v vs)
    (read fun s => s.indexOf? (v.moved ρ) (vs.map (Value.moved ρ))) :=
  read_plain_moves fun _ _ hs => Store.indexOf?_moved hs v vs

theorem count_moves (v : Value) (vs : List Value) : Moves ρ id (read fun s => s.count v vs)
    (read fun s => s.count (v.moved ρ) (vs.map (Value.moved ρ))) :=
  read_plain_moves fun _ _ hs => Store.count_moved hs v vs

theorem indexWithin_moves (items : List Value) (args : Arguments) :
    Moves ρ (Value.moved ρ) (indexWithin items args) (indexWithin (items.map (Value.moved ρ)) (args.moved ρ)) := by
  refine (args.assign_moves _).bind fun vs => ?_
  rcases vs with _ | ⟨_ | v, _ | ⟨start, _ | ⟨stop, _ | _⟩⟩⟩
  case cons.some.cons.cons.nil =>
    rw [List.length_map]
    refine Moves.bindPlain ?_ fun first => Moves.bindPlain ?_ fun last => ?_
    · cases start with
      | none => exact .pure rfl
      | some v => exact (expectInt_moves v).bindPlain fun _ => .pure rfl
    · cases stop with
      | none => exact .pure rfl
      | some v => exact (expectInt_moves v).bindPlain fun _ => .pure rfl
    · dsimp only
      rw [← List.map_take, ← List.map_drop]
      refine (indexOf?_moves v _).bindPlain fun n => ?_
      cases n with
      | none => exact .throw
      | some n => exact .pure rfl
  all_goals exact .wrongType

theorem callList_moves (place : Nat) (name : String) (args : Arguments) :
    Moves ρ (Value.moved ρ) (callList place name args) (callList (ρ.lists place) name (args.moved ρ)) := by
  refine (list_moves place).bind fun vs => ?_
  have none : Moves ρ (Value.moved ρ) (pure Value.none) (pure .none) := .pure rfl
  have exactly0 := (args.exactly_moves (ρ := ρ) 0).discard
  split
  · exact args.one_moves fun v => (setList_moves (by simp) place).seq none
  · exact exactly0.seq ((setList_moves rfl place).seq none)
  · exact exactly0.seq (newList_moves rfl)
  · exact args.one_moves fun v => (count_moves v vs).bindPlain fun _ => .pure rfl
  · refine args.one_moves fun v => (items_moves v).bind fun more => (list_moves place).bind fun us => ?_
    exact (setList_moves List.map_append.symm place).seq none
  · exact indexWithin_moves vs args
  · refine (args.exactly_moves 2).bind fun us => ?_
    rcases us with _ | ⟨i, _ | ⟨v, _ | _⟩⟩
    case cons.cons.nil =>
      refine (expectSize_moves i).bindPlain fun n => ?_
      rw [List.length_map]
      exact (setList_moves (by simp [List.map_take, List.map_drop]) place).seq none
    all_goals exact .wrongType
  · refine (args.assign_moves _).bind fun us => ?_
    rcases us with _ | ⟨i, _ | _⟩
    case cons.nil =>
      refine optional_moves expectSize_moves i fun n => ?_
      rw [List.length_map]
      refine .guard fun _ => ?_
      rw [List.getElem?_map]
      cases vs[(if n < 0 then n + vs.length else n).toNat]? with
      | none => exact .throw
      | some v => exact (setList_moves (List.eraseIdx_map _ vs _) place).seq (.pure rfl)
    all_goals exact .wrongType
  · refine args.one_moves fun v => (indexOf?_moves v vs).bindPlain fun n => ?_
    cases n with
    | none => exact .throw
    | some n => exact (setList_moves (List.eraseIdx_map _ vs _) place).seq none
  · exact exactly0.seq ((setList_moves List.map_reverse.symm place).seq none)
  · exact .wrongType

theorem callTuple_moves (items : List Value) (name : String) (args : Arguments) :
    Moves ρ (Value.moved ρ) (callTuple items name args)
      (callTuple (items.map (Value.moved ρ)) name (args.moved ρ)) := by
  unfold callTuple
  split
  · exact args.one_moves fun v => (count_moves v items).bindPlain fun _ => .pure rfl
  · exact indexWithin_moves items args
  · exact .wrongType

/-! ## Mappings -/

theorem pairs_moves (vs : List Value) :
    Moves ρ (Entries.moved ρ) (entriesOf.pairs vs) (entriesOf.pairs (vs.map (Value.moved ρ))) := by
  induction vs with
  | nil => exact .pure rfl
  | cons v vs ih =>
    refine (items_moves v).bind fun us => ?_
    rcases us with _ | ⟨k, _ | ⟨w, _ | _⟩⟩
    case cons.cons.cons.nil => exact k.key_moves.bind fun k => ih.bind fun es => .pure rfl
    all_goals exact .throw

theorem entriesOf_moves (v : Value) : Moves ρ (Entries.moved ρ) (entriesOf v) (entriesOf (v.moved ρ)) := by
  have paired := (items_moves v).bind (ρ := ρ) pairs_moves
  cases v
  case dict p => exact dict_moves p
  all_goals exact paired

theorem namedEntries_moved (fields : List (String × Value)) :
    (movedFields ρ fields).map (fun a => (Value.text a.1, a.2)) =
      Entries.moved ρ (fields.map fun a => (Value.text a.1, a.2)) := by
  simp only [movedFields, Entries.moved, List.map_map, Function.comp_def, Value.moved]

theorem entriesOfArguments_moves (args : Arguments) :
    Moves ρ (Entries.moved ρ) (entriesOfArguments args) (entriesOfArguments (args.moved ρ)) := by
  obtain ⟨positional, named⟩ := args
  have merged (first : Entries) : Moves ρ (Entries.moved ρ)
      (pure (Entries.merge (Entries.merge [] first) (named.map fun f => (.text f.1, f.2))))
      (pure (Entries.merge (Entries.merge [] (first.moved ρ)) ((movedFields ρ named).map fun f => (.text f.1, f.2)))) :=
    .pure (by rw [← Entries.merge_moved, ← Entries.merge_moved, ← namedEntries_moved, Entries.moved_nil])
  rcases positional with _ | ⟨v, _ | _⟩
  · exact merged []
  · exact (entriesOf_moves v).bind merged
  · exact .wrongType_bind

theorem callDict_moves (place : Nat) (name : String) (args : Arguments) :
    Moves ρ (Value.moved ρ) (callDict place name args) (callDict (ρ.dicts place) name (args.moved ρ)) := by
  refine (dict_moves place).bind fun es => ?_
  have exactly0 := (args.exactly_moves (ρ := ρ) 0).discard
  split
  · refine (args.assign_moves _).bind fun us => ?_
    rcases us with _ | ⟨_ | k, _ | ⟨value, _ | _⟩⟩
    case cons.some.cons.nil =>
      refine k.key_moves.bind fun k => .pure ?_
      rw [Entries.find?_moved]
      cases es.find? k with
      | none => cases value <;> rfl
      | some v => rfl
    all_goals exact .wrongType
  · exact exactly0.seq (.pure rfl)
  · exact exactly0.seq (.pure rfl)
  · exact exactly0.seq (.pure rfl)
  · exact exactly0.seq ((setDict_moves rfl place).seq (.pure rfl))
  · exact exactly0.seq (newDict_moves rfl)
  · refine (args.assign_moves _).bind fun us => ?_
    rcases us with _ | ⟨_ | k, _ | ⟨value, _ | _⟩⟩
    case cons.some.cons.nil =>
      refine k.key_moves.bind fun k => ?_
      rw [Entries.find?_moved]
      cases es.find? k with
      | some v => exact (setDict_moves (Entries.erase_moved ρ es k) place).seq (.pure rfl)
      | none =>
        cases value with
        | none => exact missingKey_moves k
        | some v => exact .pure rfl
    all_goals exact .wrongType
  · refine exactly0.seq ?_
    rw [Entries.getLast?_moved]
    cases List.getLast? es with
    | none => exact .throw
    | some e => exact (setDict_moves List.map_dropLast.symm place).seq (.pure rfl)
  · refine (args.assign_moves _).bind fun us => ?_
    rcases us with _ | ⟨_ | k, _ | ⟨value, _ | _⟩⟩
    case cons.some.cons.nil =>
      refine k.key_moves.bind fun k => ?_
      rw [Entries.find?_moved]
      cases es.find? k with
      | some v => exact .pure rfl
      | none =>
        cases value with
        | none => exact (setDict_moves (Entries.insert_moved ρ es k .none) place).seq (.pure rfl)
        | some v => exact (setDict_moves (Entries.insert_moved ρ es k v) place).seq (.pure rfl)
    all_goals exact .wrongType
  · refine (entriesOfArguments_moves args).bind fun more => (dict_moves place).bind fun es => ?_
    exact (setDict_moves (Entries.merge_moved ρ es more) place).seq (.pure rfl)
  · exact .wrongType

theorem fromKeys_moves (args : Arguments) : Moves ρ (Value.moved ρ) (fromKeys args) (fromKeys (args.moved ρ)) := by
  refine (args.assign_moves _).bind fun us => ?_
  rcases us with _ | ⟨_ | keys, _ | ⟨value, _ | _⟩⟩
  case cons.some.cons.nil =>
    refine (items_moves keys).bind fun vs => (keys_moves vs).bind fun ks => newDict_moves ?_
    rw [← Entries.merge_moved, Entries.moved_nil]
    cases value <;> simp only [Entries.moved, List.map_map, Function.comp_def] <;> rfl
  all_goals exact .wrongType

/-! ## Sets -/

theorem elementsOf_moves (v : Value) :
    Moves ρ (List.map (Value.moved ρ)) (elementsOf v) (elementsOf (v.moved ρ)) :=
  (items_moves v).bind fun vs => (keys_moves vs).bind fun ks => .pure (foldl_addKey_moved ρ [] ks)

theorem union_moves (first others : List Value) : Moves ρ (List.map (Value.moved ρ)) (union first others)
    (union (first.map (Value.moved ρ)) (others.map (Value.moved ρ))) := by
  refine Moves.foldlM (f := List.map (Value.moved ρ)) (h := Value.moved ρ) (fun all v => ?_) first
  exact (elementsOf_moves v).bind fun vs => .pure (foldl_addKey_moved ρ all vs)

theorem intersection_moves (first others : List Value) : Moves ρ (List.map (Value.moved ρ)) (intersection first others)
    (intersection (first.map (Value.moved ρ)) (others.map (Value.moved ρ))) := by
  refine Moves.foldlM (f := List.map (Value.moved ρ)) (h := Value.moved ρ) (fun all v => ?_) first
  exact (elementsOf_moves v).bind fun vs => .pure (filter_hasKey_moved ρ vs all)

theorem difference_moves (first others : List Value) : Moves ρ (List.map (Value.moved ρ)) (difference first others)
    (difference (first.map (Value.moved ρ)) (others.map (Value.moved ρ))) := by
  refine Moves.foldlM (f := List.map (Value.moved ρ)) (h := Value.moved ρ) (fun all v => ?_) first
  exact (elementsOf_moves v).bind fun vs => .pure (filter_not_hasKey_moved ρ vs all)

theorem symmetricDifference_moves (first : List Value) (other : Value) :
    Moves ρ (List.map (Value.moved ρ)) (symmetricDifference first other)
      (symmetricDifference (first.map (Value.moved ρ)) (other.moved ρ)) := by
  refine (elementsOf_moves other).bind fun vs => .pure ?_
  rw [filter_not_hasKey_moved, filter_not_hasKey_moved, List.map_append]

theorem callSet_moves (place : Nat) (name : String) (args : Arguments) :
    Moves ρ (Value.moved ρ) (callSet place name args) (callSet (ρ.sets place) name (args.moved ρ)) := by
  refine (set_moves place).bind fun elements => ?_
  extract_lets others update one others' update' one'
  have exactly0 := (args.exactly_moves (ρ := ρ) 0).discard
  have hothers : Moves ρ (List.map (Value.moved ρ)) others others' := by
    simp only [others, others', Arguments.moved, movedFields, List.isEmpty_map]
    exact .ite (fun _ => .pure rfl) fun _ => .wrongType
  have hupdate (vs : List Value) : Moves ρ (Value.moved ρ) (update vs) (update' (vs.map (Value.moved ρ))) :=
    (setSet_moves rfl place).seq (.pure rfl)
  have hone : Moves ρ (Value.moved ρ) one one' := args.one_moves fun v => .pure rfl
  split
  · exact hone.bind fun v => v.key_moves.bind fun k => (addKey_moved ρ elements k) ▸ hupdate _
  · exact exactly0.seq (hupdate [])
  · exact exactly0.seq (newSet_moves rfl)
  · refine hone.bind fun v => v.key_moves.bind fun k => ?_
    rw [filter_not_sameKey_moved]
    exact hupdate _
  · refine hone.bind fun v => v.key_moves.bind fun k => ?_
    rw [filter_not_sameKey_moved, hasKey_moved]
    exact .ite (fun _ => hupdate _) fun _ => missingKey_moves _
  · refine exactly0.seq ?_
    cases elements with
    | nil => exact .throw
    | cons v rest => exact (setSet_moves rfl place).seq (.pure rfl)
  · exact hothers.bind fun vs => (union_moves elements vs).bind fun _ => newSet_moves rfl
  · exact hothers.bind fun vs => (union_moves elements vs).bind hupdate
  · exact hothers.bind fun vs => (intersection_moves elements vs).bind fun _ => newSet_moves rfl
  · exact hothers.bind fun vs => (intersection_moves elements vs).bind hupdate
  · exact hothers.bind fun vs => (difference_moves elements vs).bind fun _ => newSet_moves rfl
  · exact hothers.bind fun vs => (difference_moves elements vs).bind hupdate
  · exact hone.bind fun v => (symmetricDifference_moves elements v).bind fun _ => newSet_moves rfl
  · exact hone.bind fun v => (symmetricDifference_moves elements v).bind hupdate
  · exact hone.bind fun v => (intersection_moves elements [v]).bind fun _ => .pure (by simp)
  · exact hone.bind fun v => (difference_moves elements [v]).bind fun _ => .pure (by simp)
  · refine hone.bind fun v => (elementsOf_moves v).bind fun vs => .pure ?_
    simp only [List.all_map, Function.comp_def, hasKey_moved, Value.moved]
  · exact .wrongType

/-! ## Ranges and views -/

theorem callRange_moves (v : Value) (name : String) (args : Arguments) :
    Moves ρ (Value.moved ρ) (callRange v name args) (callRange (v.moved ρ) name (args.moved ρ)) := by
  refine args.one_moves fun x => (items_moves v).bind fun all => (indexOf?_moves x all).bindPlain fun n => ?_
  split
  · exact .pure rfl
  · exact .pure rfl
  · exact .throw
  · exact .wrongType

theorem callView_moves (kind : ViewKind) (place : Nat) (name : String) (args : Arguments) :
    Moves ρ (Value.moved ρ) (callView kind place name args) (callView kind (ρ.dicts place) name (args.moved ρ)) := by
  unfold callView
  split
  · refine args.one_moves fun v => (dict_moves place).bind fun es => (items_moves v).bind fun others => ?_
    rw [Entries.view_moved]
    exact (read_plain_moves fun _ _ hs => Store.anyMatch_moved hs (es.view kind) others).bindPlain fun _ => .pure rfl
  · exact .wrongType

end Run

end NestedSite
