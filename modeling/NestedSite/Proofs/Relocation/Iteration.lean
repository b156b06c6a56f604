import NestedSite.Proofs.Relocation.Run
import NestedSite.Value.Iteration

/-!
# Going through values that are moved

The items of a moved value are the moved items (`Run.items_moves`), whatever the cursors that go through it.
-/

namespace NestedSite

variable {ρ : Relocation}

theorem map_moved_of_plain {α : Type} {f : α → Value} (h : ∀ x, (f x).moved ρ = f x) (xs : List α) :
    (xs.map f).map (Value.moved ρ) = xs.map f := by
  rw [List.map_map]
  exact List.map_congr_left fun x _ => h x

theorem characters_moved (t : String) : (characters t).map (Value.moved ρ) = characters t :=
  map_moved_of_plain (fun _ => rfl) _

theorem numbers_moved (next step : Int) :
    ∀ n : Nat, (numbers next step n).map (Value.moved ρ) = numbers next step n
  | 0 => rfl
  | n + 1 => by rw [numbers, List.map_cons, numbers_moved (next + step) step n, Value.moved]

theorem Value.key_moves (v : Value) : Moves ρ (Value.moved ρ) v.key (v.moved ρ).key := by
  unfold Value.key
  rw [Value.isKey_moved]
  exact .ite (fun _ => .pure rfl) fun _ => .wrongType

theorem keys_moves (vs : List Value) :
    Moves ρ (List.map (Value.moved ρ)) (vs.mapM Value.key) ((vs.map (Value.moved ρ)).mapM Value.key) :=
  .mapM Value.key_moves

namespace Run

theorem fieldPairs_moved (fields : List (String × Value)) :
    cursor.fieldPairs (movedFields ρ fields) = (cursor.fieldPairs fields).map (Value.moved ρ) := by
  simp only [cursor.fieldPairs, movedFields, List.map_map, Function.comp_def, Value.moved, Value.movedAll]

theorem cursor_moves (v : Value) : Moves ρ ρ.cursors (cursor v) (cursor (v.moved ρ)) := by
  cases v
  case cursor p => exact .pure rfl
  case list p => exact newCursor_moves rfl
  case dict p => exact (dict_moves p).bind fun es => newCursor_moves (by simp [Cursor.moved])
  case view kind p => exact (dict_moves p).bind fun es => newCursor_moves (by simp [Cursor.moved])
  case set p => exact (set_moves p).bind fun vs => newCursor_moves rfl
  case tuple vs => exact newCursor_moves (by simp [Cursor.moved])
  case text t => exact newCursor_moves (by simp [Cursor.moved, characters_moved])
  case bytes bs => exact newCursor_moves (by simp [Cursor.moved])
  case range => exact newCursor_moves rfl
  case legend p =>
    refine store_bind_moves fun s s' hs => newCursor_moves ?_
    rw [hs.legend, fields_legend_moved, fieldPairs_moved, Cursor.moved]
  case metadata p =>
    refine store_bind_moves fun s s' hs => newCursor_moves ?_
    rw [hs.metadata, fields_metadata_moved, fieldPairs_moved, Cursor.moved]
  all_goals exact .wrongType

theorem left_moves (place : Nat) : Moves ρ id (left place) (left (ρ.cursors place)) := by
  refine store_bind_moves fun s s' hs => .pure ?_
  rw [hs.cursor]
  cases s.cursor place <;> simp [Cursor.moved, Cursor.left, hs.list, hs.dict, Entries.length_moved]

/-! ## The next item -/

theorem row_moves {n : Nat} (ih : ∀ p, Moves ρ (Option.map (Value.moved ρ)) (nextTo? n p) (nextTo? n (ρ.cursors p))) :
    ∀ (ps : List Nat) (taken : List Value),
      Moves ρ (fun r => (r.1.map (Value.moved ρ), r.2)) (nextTo?.row n taken ps)
        (nextTo?.row n (taken.map (Value.moved ρ)) (ps.map ρ.cursors))
  | [], taken => by
    unfold nextTo?.row
    exact .pure (by rw [List.map_reverse])
  | p :: ps, taken => by
    unfold nextTo?.row
    refine (ih p).bind fun v => ?_
    cases v with
    | none => exact .pure (by rw [List.map_reverse])
    | some v => exact row_moves ih ps (v :: taken)

theorem nextTo?_moves : ∀ (n place : Nat),
    Moves ρ (Option.map (Value.moved ρ)) (nextTo? n place) (nextTo? n (ρ.cursors place))
  | 0, _ => by
    unfold nextTo?
    exact .throw
  | n + 1, place => by
    have ih := nextTo?_moves n
    unfold nextTo?
    refine store_bind_moves fun s s' hs => ?_
    -- a cursor that has come to its end, and one that goes on as `c` with the item `v`
    have ended (type : String) : Moves ρ (Option.map (Value.moved ρ))
        (do setCursor place (.done type); pure (none : Option Value))
        (do setCursor (ρ.cursors place) (.done type); pure (none : Option Value)) :=
      (setCursor_moves rfl place).seq (.pure rfl)
    have goesOn {c c' : Cursor} (hc : c' = c.moved ρ) (v : Value) : Moves ρ (Option.map (Value.moved ρ))
        (do setCursor place c; pure (some v)) (do setCursor (ρ.cursors place) c'; pure (some (v.moved ρ))) :=
      (setCursor_moves hc place).seq (.pure rfl)
    have nothing : Moves ρ (Option.map (Value.moved ρ)) (pure (none : Option Value)) (pure none) := .pure rfl
    dsimp only
    rw [hs.cursor]
    cases s.cursor place
    case list p k =>
      dsimp only [Cursor.moved]
      rw [hs.list, List.getElem?_map]
      cases (s.list p)[k]? with
      | none => exact ended _
      | some v => exact goesOn rfl v
    case listBack p left =>
      dsimp only [Cursor.moved]
      cases left with
      | zero => exact ended _
      | succ k =>
        dsimp only
        rw [hs.list, List.getElem?_map]
        cases (s.list p)[k]? with
        | none => exact ended _
        | some v => exact goesOn rfl v
    case dict kind p k size =>
      dsimp only [Cursor.moved]
      rw [hs.dict, Entries.length_moved, Entries.view_moved, List.getElem?_map]
      refine .guard fun _ => ?_
      cases ((s.dict p).view kind)[k]? with
      | none => cases kind <;> exact ended _
      | some v => exact goesOn rfl v
    case dictBack kind p left size =>
      dsimp only [Cursor.moved]
      rw [hs.dict, Entries.length_moved, Entries.view_moved]
      refine .guard fun _ => ?_
      cases left with
      | zero => cases kind <;> exact ended _
      | succ k =>
        dsimp only
        rw [List.getElem?_map]
        cases ((s.dict p).view kind)[k]? with
        | none => cases kind <;> exact ended _
        | some v => exact goesOn rfl v
    case range next step left =>
      cases left with
      | zero => exact nothing
      | succ k => exact goesOn rfl (.int next)
    case items type rest =>
      cases rest with
      | nil => exact nothing
      | cons v rest => exact goesOn rfl v
    case enumerate inner count =>
      refine (ih inner).bind fun v => ?_
      cases v with
      | none => exact nothing
      | some v => exact goesOn rfl (.tuple [.int count, v])
    case zip inner strict =>
      dsimp only [Cursor.moved]
      rw [List.isEmpty_map]
      refine .ite (fun _ => nothing) fun _ => ?_
      refine (row_moves ih inner []).bind fun r => ?_
      obtain ⟨vs, ended⟩ := r
      cases ended with
      | false => exact .pure (by simp)
      | true =>
        dsimp only
        rw [List.isEmpty_map, ← List.map_drop]
        refine .ite (fun _ => .guard fun _ => ?_) fun _ => nothing
        refine (Moves.forIn fun p => ?_).seq nothing
        refine (ih p).bind fun v => ?_
        rw [Option.isSome_map]
        exact .ite (fun _ => .throw_bind) fun _ => .pure rfl
    case done => exact nothing

theorem next?_moves (place : Nat) : Moves ρ (Option.map (Value.moved ρ)) (next? place) (next? (ρ.cursors place)) :=
  nextTo?_moves depthLimit place

/-! ## All items -/

theorem drainGo_moves (place : Nat) : ∀ (n : Nat) (taken : List Value),
    Moves ρ (List.map (Value.moved ρ)) (drain.go place n taken)
      (drain.go (ρ.cursors place) n (taken.map (Value.moved ρ)))
  | 0, _ => .throw
  | n + 1, taken => by
    refine (next?_moves place).bind fun v => ?_
    cases v with
    | none => exact .pure List.map_reverse.symm
    | some v => exact drainGo_moves place n (v :: taken)

theorem drain_moves (place : Nat) : Moves ρ (List.map (Value.moved ρ)) (drain place) (drain (ρ.cursors place)) :=
  drainGo_moves place sizeLimit []

theorem items_moves (v : Value) : Moves ρ (List.map (Value.moved ρ)) (items v) (items (v.moved ρ)) := by
  have drained := (cursor_moves v).bind (ρ := ρ) drain_moves
  cases v
  case list p => exact list_moves p
  case tuple vs => exact .pure (by simp)
  case dict p => exact (dict_moves p).bind fun es => .pure (Entries.keys_moved ρ es)
  case view kind p => exact (dict_moves p).bind fun es => .pure (Entries.view_moved ρ es kind)
  case set p => exact set_moves p
  case text t => exact .pure (characters_moved t).symm
  case bytes bs => exact .pure (map_moved_of_plain (fun _ => rfl) bs).symm
  case range a b c => exact .guard fun _ => .guard fun _ => .pure (numbers_moved a c _).symm
  all_goals exact drained

theorem findIn_moves (v : Value) (vs : List Value) :
    Moves ρ id (contains.findIn v vs) (contains.findIn (v.moved ρ) (vs.map (Value.moved ρ))) :=
  read_plain_moves fun _ _ hs => Store.indexOf?_moved hs v vs

theorem contains_moves (container v : Value) :
    Moves ρ id (contains container v) (contains (container.moved ρ) (v.moved ρ)) := by
  have inItems : Moves ρ id (do return (← contains.findIn v (← items container)).isSome)
      (do return (← contains.findIn (v.moved ρ) (← items (container.moved ρ))).isSome) :=
    (items_moves container).bind fun vs => (findIn_moves v vs).bindPlain fun _ => .pure rfl
  have inKeys (p : Nat) : Moves ρ id (do return ((← dict p).find? (← v.key)).isSome)
      (do return ((← dict (ρ.dicts p)).find? (← (v.moved ρ).key)).isSome) := by
    refine (dict_moves p).bind fun es => v.key_moves.bind fun k => .pure ?_
    rw [Entries.find?_moved, Option.isSome_map, id]
  cases container
  case text t => 
    cases v
    case text part => exact .pure rfl
    all_goals exact .wrongType
  case dict p => exact inKeys p
  case view kind p =>
    cases kind
    case keys => exact inKeys p
    all_goals exact inItems
  case set p =>
    cases v
    case set q => exact (set_moves p).bind fun vs => .pure (hasKey_moved ρ vs (.set q))
    all_goals exact (set_moves p).bind fun vs => (Value.key_moves _).bind fun k => .pure (hasKey_moved ρ vs k)
  case bytes bs =>
    cases v
    case bytes part => exact .pure rfl
    case bool b => exact .ite (fun _ => .pure rfl) fun _ => .throw
    case int n => exact .ite (fun _ => .pure rfl) fun _ => .throw
    all_goals exact .wrongType
  case range a b c =>
    dsimp only [contains, Value.moved]
    rw [Value.int?_moved]
    cases v.int? with
    | none => exact inItems
    | some n => exact .pure rfl
  all_goals exact inItems

end Run

end NestedSite
