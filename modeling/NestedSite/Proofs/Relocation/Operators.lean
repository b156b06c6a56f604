import NestedSite.Proofs.Relocation.Iteration
import NestedSite.Proofs.Store.Operators

/-!
# Operators on values that are moved

Arguments, operators, comparisons and subscripts give for moved values what they give for the values, moved
(`Run.binary_moves`, `Run.compare_moves`, `Run.subscript_moves`, …).
-/

namespace NestedSite

open Template

variable {ρ : Relocation}

/-! ## Arguments -/

def Arguments.moved (ρ : Relocation) (args : Arguments) : Arguments where
  positional := args.positional.map (Value.moved ρ)
  named := movedFields ρ args.named

/-- What parameters are given, moved. -/
abbrev movedOptions (ρ : Relocation) : List (Option Value) → List (Option Value) :=
  List.map (Option.map (Value.moved ρ))

namespace Arguments

variable (args : Arguments)

theorem go_moves : ∀ (ps : Parameters) (vs : List Value),
    Moves ρ (movedOptions ρ) (assign.go args vs ps) (assign.go (args.moved ρ) (vs.map (Value.moved ρ)) ps)
  | [], [] => by
    unfold assign.go
    exact .pure rfl
  | [], _ :: _ => by
    unfold assign.go
    exact .wrongType
  | p :: ps, vs => by
    obtain ⟨name, passing, required⟩ := p
    -- what is passed by the name of the parameter
    obtain ⟨u, hu⟩ : ∃ u, (args.named.find? fun a => a.1 == name).map Prod.snd = u := ⟨_, rfl⟩
    have hu' : ((args.moved ρ).named.find? fun a => a.1 == name).map Prod.snd = u.map (Value.moved ρ) := by
      rw [Arguments.moved, find?_movedFields, ← hu, Option.map_map, Option.map_map]
      rfl
    have next (u : Option Value) (ws : List Value) : Moves ρ (movedOptions ρ)
        (do return u :: (← assign.go args ws ps))
        (do return u.map (Value.moved ρ) :: (← assign.go (args.moved ρ) (ws.map (Value.moved ρ)) ps)) :=
      (go_moves ps ws).bind fun us => .pure rfl
    cases vs with
    | nil =>
      have byName : (if passing != .position then u.map (Value.moved ρ) else none) =
          (if passing != .position then u else none).map (Value.moved ρ) := by
        split <;> rfl
      rw [List.map_nil]
      unfold assign.go
      dsimp only
      rw [hu, hu']
      cases passing with
      | name =>
        dsimp only
        rw [Option.isNone_map]
        exact .refuse fun _ => next u []
      | position | either =>
        dsimp only
        rw [byName, Option.isNone_map]
        exact .refuse fun _ => next _ []
    | cons v vs =>
      rw [List.map_cons]
      unfold assign.go
      dsimp only
      rw [hu, hu']
      cases passing with
      | name =>
        dsimp only
        rw [Option.isNone_map]
        exact .refuse fun _ => next u (v :: vs)
      | position | either =>
        dsimp only
        rw [Option.isSome_map]
        exact .refuse fun _ => next (some v) vs

theorem any_named_moved (f : String → Bool) :
    (args.moved ρ).named.any (fun a => f a.1) = args.named.any fun a => f a.1 := by
  simp only [Arguments.moved, movedFields, List.any_map, Function.comp_def]

theorem assign_moves (ps : Parameters) :
    Moves ρ (movedOptions ρ) (args.assign ps) ((args.moved ρ).assign ps) := by
  have named := any_named_moved (ρ := ρ) args fun k => !ps.any fun p => p.name == k && p.passing != .position
  unfold assign
  rw [named]
  exact .refuse fun _ => go_moves args ps args.positional

theorem exactly_moves (n : Nat) :
    Moves ρ (List.map (Value.moved ρ)) (args.exactly n) ((args.moved ρ).exactly n) := by
  unfold exactly
  simp only [Arguments.moved, movedFields, List.isEmpty_map, List.length_map]
  exact .ite (fun _ => .pure rfl) fun _ => .wrongType

/-- What takes exactly one argument. -/
theorem one_moves {γ δ : Type} {g : γ → δ} {k : Value → Run γ} {k' : Value → Run δ}
    (hk : ∀ v : Value, Moves ρ g (k v) (k' (v.moved ρ))) :
    Moves ρ g
      (do match ← args.exactly 1 with
        | [v] => k v
        | _ => wrongType)
      (do match ← (args.moved ρ).exactly 1 with
        | [v] => k' v
        | _ => wrongType) := by
  refine (args.exactly_moves 1).bind fun vs => ?_
  rcases vs with _ | ⟨v, _ | _⟩
  · exact .wrongType
  · exact hk v
  · exact .wrongType

/-- What takes exactly one argument, which must be a text. -/
theorem oneText_moves {γ δ : Type} {g : γ → δ} {k : String → Run γ} {k' : String → Run δ}
    (hk : ∀ t, Moves ρ g (k t) (k' t)) :
    Moves ρ g
      (do match ← args.exactly 1 with
        | [.text t] => k t
        | _ => wrongType)
      (do match ← (args.moved ρ).exactly 1 with
        | [.text t] => k' t
        | _ => wrongType) := by
  refine (args.exactly_moves 1).bind fun vs => ?_
  rcases vs with _ | ⟨v, vs⟩
  · exact .wrongType
  · cases v
    case text t =>
      cases vs with
      | nil => exact hk t
      | cons => exact .wrongType
    all_goals exact .wrongType

end Arguments

/-- An argument that may be missing, for which there is `value` then. -/
theorem optional_moves {α γ δ : Type} {g : γ → δ} {expected : Value → Run α} {k : α → Run γ} {k' : α → Run δ}
    {value : α} (h : ∀ v : Value, Moves ρ id (expected v) (expected (v.moved ρ))) (v : Option Value)
    (hk : ∀ a, Moves ρ g (k a) (k' a)) :
    Moves ρ g
      (match v with
      | none => do k (← pure value)
      | some v => do k (← expected v))
      (match v.map (Value.moved ρ) with
      | none => do k' (← pure value)
      | some v => do k' (← expected v)) := by
  cases v with
  | none => exact hk value
  | some v => exact (h v).bindPlain hk

namespace Run

theorem expectInt_moves (v : Value) : Moves ρ id (expectInt v) (expectInt (v.moved ρ)) := by
  unfold expectInt
  rw [Value.int?_moved]
  cases v.int? with
  | none => exact .wrongType
  | some n => exact .pure rfl

theorem expectText_moves (v : Value) : Moves ρ id (expectText v) (expectText (v.moved ρ)) := by
  cases v
  case text t => exact .pure rfl
  all_goals exact .wrongType

theorem expectSize_moves (v : Value) : Moves ρ id (expectSize v) (expectSize (v.moved ρ)) :=
  (expectInt_moves v).bindPlain fun _ => .ite (fun _ => .pure rfl) fun _ => .throw

theorem truth_moves (v : Value) : Moves ρ id (truth v) (truth (v.moved ρ)) :=
  store_bind_moves fun _ _ hs => .pure (Store.truth_moved hs v)

theorem text_moves (v : Value) : Moves ρ id (text v) (text (v.moved ρ)) :=
  read_plain_moves fun _ _ hs => Store.text_moved hs v

/-- A fault that names the type of a value. -/
theorem typeFault_moves {α β : Type} {f : α → β} (fault : String → Fault) (v : Value) :
    Moves ρ f (do throw (fault (v.typeName (← store)))) (do throw (fault ((v.moved ρ).typeName (← store)))) := by
  refine store_bind_moves fun s s' hs => ?_
  rw [Store.typeName_moved hs]
  exact .throw

theorem missingKey_moves {α β : Type} {f : α → β} (k : Value) :
    Moves ρ f (missingKey k) (missingKey (k.moved ρ)) := by
  refine store_bind_moves fun s s' hs => ?_
  rw [Store.show_moved hs]
  cases s.show k <;> exact .throw

/-! ## Arithmetic -/

/-- What needs no store. -/
theorem pure_moves {α : Type} (r : Except Fault α) : Moves ρ id (read fun _ => r) (read fun _ => r) :=
  read_plain_moves fun _ _ _ => rfl

/-- What needs no store and has no places in its result. -/
theorem gives_moves {r : Except Fault Value} (h : Gives r (·.In .nowhere)) :
    Moves ρ (Value.moved ρ) (read fun _ => r) (read fun _ => r) := by
  refine read_moves fun _ _ _ => ?_
  cases r with
  | error e => rfl
  | ok v => exact congrArg Except.ok (v.moved_of_in_nowhere ρ (h v rfl)).symm

theorem times_map {α β : Type} (excess : Fault) (f : α → β) (xs : List α) (n : Int) :
    times excess (xs.map f) n = (times excess xs n).map (List.map f) := by
  unfold times
  rw [List.isEmpty_map, List.length_map]
  dsimp only
  split
  · split <;> rfl
  · split
    · rfl
    · split
      · rfl
      · cases checkSize (xs.length * n.toNat) with
        | error e => rfl
        | ok u =>
          show Except.ok _ = Except.ok _
          rw [List.map_flatten, List.map_replicate]

theorem repeated?_moves (v : Value) (n : Int) :
    Moves ρ (Option.map (Value.moved ρ)) (repeated? v n) (repeated? (v.moved ρ) n) := by
  cases v
  case text t => exact (pure_moves _).bindPlain fun _ => .pure rfl
  case bytes bs => exact (pure_moves _).bindPlain fun _ => .pure rfl
  case tuple vs =>
    rw [Value.moved, Value.movedAll_eq_map]
    refine (read_moves (f := List.map (Value.moved ρ)) fun _ _ _ => times_map _ _ vs n).bind fun us => .pure ?_
    simp
  case list p =>
    refine (list_moves p).bind fun vs => ?_
    refine (read_moves (f := List.map (Value.moved ρ)) fun _ _ _ => times_map _ _ vs n).bind fun us => ?_
    exact (newList_moves rfl).bind fun _ => .pure rfl
  all_goals exact .pure rfl

theorem sequence_moves (op : BinaryOp) (a b : Value) :
    Moves ρ (Value.moved ρ) (binary.sequence op a b) (binary.sequence op (a.moved ρ) (b.moved ρ)) := by
  have without : Moves ρ (Value.moved ρ)
      (do
        let kept ← (← items a).mapM Value.key
        let removed ← items b
        newSet (kept.filter fun x => !hasKey removed x))
      (do
        let kept ← (← items (a.moved ρ)).mapM Value.key
        let removed ← items (b.moved ρ)
        newSet (kept.filter fun x => !hasKey removed x)) := by
    refine (items_moves a).bind fun us => (keys_moves us).bind fun kept => (items_moves b).bind fun removed => ?_
    refine newSet_moves ?_
    simp only [List.filter_map, Function.comp_def, hasKey_moved]
  unfold binary.sequence
  cases op
  case mul =>
    dsimp only
    rw [Value.int?_moved, Value.int?_moved]
    cases b.int? with
    | some n => exact (repeated?_moves a n).bindOption .wrongType fun _ => .pure rfl
    | none =>
      cases a.int? with
      | some n => exact (repeated?_moves b n).bindOption .wrongType fun _ => .pure rfl
      | none => exact .wrongType
  case sub =>
    cases a
    case set p =>
      cases b
      case set q => exact without
      case view kind q =>
        cases kind
        case values => exact .wrongType
        all_goals exact without
      all_goals exact .wrongType
    case view kind p =>
      cases kind
      case values => exact .wrongType
      all_goals exact without
    all_goals exact .wrongType
  all_goals exact .wrongType

/-- The operation on what is neither text nor a collection of one kind, nor a pattern to be filled in. -/
theorem binaryPlain_moves (op : BinaryOp) (a b : Value) : Moves ρ (Value.moved ρ)
    (match a.numeric?, b.numeric? with
    | some m, some n => binary.liftExcept (numericOperation op m n)
    | _, _ => binary.sequence op a b)
    (match (a.moved ρ).numeric?, (b.moved ρ).numeric? with
    | some m, some n => binary.liftExcept (numericOperation op m n)
    | _, _ => binary.sequence op (a.moved ρ) (b.moved ρ)) := by
  rw [Value.numeric?_moved, Value.numeric?_moved]
  cases a.numeric? with
  | none => exact sequence_moves op a b
  | some m =>
    cases b.numeric? with
    | none => exact sequence_moves op a b
    | some n => exact gives_moves (numericOperation_in op m n)

theorem binary_moves (op : BinaryOp) (a b : Value) :
    Moves ρ (Value.moved ρ) (binary op a b) (binary op (a.moved ρ) (b.moved ρ)) := by
  have plain := binaryPlain_moves (ρ := ρ) op a b
  cases op
  case add =>
    cases a
    case text t =>
      cases b
      case text u => exact .pure rfl
      all_goals exact plain
    case bytes bs =>
      cases b
      case bytes cs => exact .pure rfl
      all_goals exact plain
    case tuple vs =>
      cases b
      case tuple us => exact .pure (by simp)
      all_goals exact plain
    case list p =>
      cases b
      case list q =>
        exact (list_moves p).bind fun vs => (list_moves q).bind fun us => newList_moves List.map_append.symm
      all_goals exact plain
    all_goals exact plain
  case mod =>
    cases a
    case text t =>
      exact (read_plain_moves fun _ _ hs => Store.fillIn_moved hs t b).bindPlain fun _ => .pure rfl
    case bytes bs =>
      exact (read_plain_moves fun _ _ hs => Store.fillInBytes_moved hs bs b).bindPlain fun _ => .pure rfl
    all_goals exact plain
  all_goals exact plain

theorem unary_moves (op : UnaryOp) (v : Value) :
    Moves ρ (Value.moved ρ) (unary op v) (unary op (v.moved ρ)) := by
  cases op
  case not => exact store_bind_moves fun _ _ hs => .pure (congrArg (fun b => Value.bool !b) (Store.truth_moved hs v))
  case invert => exact .throw
  all_goals
    unfold unary
    dsimp only
    rw [Value.numeric?_moved]
    rcases v.numeric? with _ | (_ | _ | _)
    · exact .wrongType
    · exact .pure rfl
    · exact .pure rfl
    · exact .pure rfl

theorem compare_moves (op : CompareOp) (a b : Value) :
    Moves ρ id (compare op a b) (compare op (a.moved ρ) (b.moved ρ)) := by
  have ordered (op : OrderOp) : Moves ρ id (read fun s => s.ordered op a b)
      (read fun s => s.ordered op (a.moved ρ) (b.moved ρ)) :=
    read_plain_moves fun _ _ hs => Store.ordered_moved hs op a b
  have equal : Moves ρ id (read fun s => s.equal a b) (read fun s => s.equal (a.moved ρ) (b.moved ρ)) :=
    read_plain_moves fun _ _ hs => Store.equal_moved hs a b
  cases op
  case eq => exact equal
  case ne => exact equal.bindPlain fun _ => .pure rfl
  case lt => exact ordered .lt
  case le => exact ordered .le
  case gt => exact ordered .gt
  case ge => exact ordered .ge
  case «in» => exact contains_moves b a
  case notIn => exact (contains_moves b a).bindPlain fun _ => .pure rfl
  case is => exact .pure (Value.identical_moved ρ a b)
  case isNot => exact .pure (congrArg (!·) (Value.identical_moved ρ a b))

/-! ## Items and parts -/

theorem bound?_moves (v : Value) : Moves ρ id (bound? v) (bound? (v.moved ρ)) := by
  cases v
  case none => exact .pure rfl
  case int n => exact .pure rfl
  case bool b => exact .pure rfl
  all_goals exact .wrongType

theorem stride_moves (v : Value) : Moves ρ id (stride v) (stride (v.moved ρ)) := by
  refine (bound?_moves v).bindPlain fun n => ?_
  cases n with
  | none => exact .pure rfl
  | some n => exact .ite (fun _ => .throw) fun _ => .pure rfl

theorem itemsAt_map {α β : Type} (f : α → β) (xs : List α) (start step : Int) :
    ∀ n : Nat, itemsAt (xs.map f).toArray start step n = (itemsAt xs.toArray start step n).map f
  | 0 => rfl
  | n + 1 => by
    unfold itemsAt
    rw [itemsAt_map f xs _ _ n]
    simp only [List.getElem?_toArray, List.getElem?_map]
    cases xs[start.toNat]? <;> rfl

theorem part_moves {α β : Type} (f : α → β) (xs : List α) (lower upper step : Value) :
    Moves ρ (List.map f) (part xs lower upper step)
      (part (xs.map f) (lower.moved ρ) (upper.moved ρ) (step.moved ρ)) := by
  refine (stride_moves step).bindPlain fun step => (bound?_moves lower).bindPlain fun lower => ?_
  refine (bound?_moves upper).bindPlain fun upper => ?_
  rw [List.length_map]
  exact .pure (itemsAt_map f xs _ _ _)

theorem item_moves {α β : Type} (f : α → β) (xs : List α) (index : Value) :
    Moves ρ f (item xs index) (item (xs.map f) (index.moved ρ)) := by
  unfold item
  rw [Value.int?_moved, List.length_map]
  cases index.int? with
  | none => exact .wrongType
  | some n =>
    refine .guard fun _ => ?_
    rw [List.getElem?_map]
    cases xs[(if n < 0 then n + xs.length else n).toNat]? with
    | none => exact .throw
    | some v => exact .pure rfl

/-- Items that hold no places. -/
theorem part_plain_moves {α : Type} (xs : List α) (lower upper step : Value) :
    Moves ρ id (part xs lower upper step) (part xs (lower.moved ρ) (upper.moved ρ) (step.moved ρ)) := by
  have h := part_moves (ρ := ρ) id xs lower upper step
  rwa [List.map_id, List.map_id_fun] at h

theorem item_plain_moves {α : Type} (xs : List α) (index : Value) :
    Moves ρ id (item xs index) (item xs (index.moved ρ)) := by
  have h := item_moves (ρ := ρ) id xs index
  rwa [List.map_id] at h

theorem subscript_moves (v index : Value) :
    Moves ρ (Value.moved ρ) (subscript v index) (subscript (v.moved ρ) (index.moved ρ)) := by
  cases v
  case list p =>
    have single : Moves ρ (Value.moved ρ) (do item (← list p) index) (do item (← list (ρ.lists p)) (index.moved ρ)) :=
      (list_moves p).bind fun vs => item_moves _ vs index
    cases index
    case slice a b c => exact (list_moves p).bind fun vs => (part_moves _ vs a b c).bind fun _ => newList_moves rfl
    all_goals exact single
  case tuple vs =>
    rw [Value.moved, Value.movedAll_eq_map]
    have single := item_moves (ρ := ρ) (Value.moved ρ) vs index
    cases index
    case slice a b c => exact (part_moves _ vs a b c).bind fun _ => .pure (by simp)
    all_goals exact single
  case text t =>
    have single : Moves ρ (Value.moved ρ) (do return .text (.singleton (← item t.toList index)))
        (do return .text (.singleton (← item t.toList (index.moved ρ)))) :=
      (item_plain_moves t.toList index).bindPlain fun _ => .pure rfl
    cases index
    case slice a b c => exact (part_plain_moves t.toList a b c).bindPlain fun _ => .pure rfl
    all_goals exact single
  case bytes bs =>
    have single : Moves ρ (Value.moved ρ) (do return .int (← item bs index).toNat)
        (do return .int (← item bs (index.moved ρ)).toNat) :=
      (item_plain_moves bs index).bindPlain fun _ => .pure rfl
    cases index
    case slice a b c => exact (part_plain_moves bs a b c).bindPlain fun _ => .pure rfl
    all_goals exact single
  case range x y z =>
    cases index
    case slice a b c =>
      refine (stride_moves c).bindPlain fun step => (bound?_moves a).bindPlain fun lower => ?_
      exact (bound?_moves b).bindPlain fun upper => .pure rfl
    case int n => exact .guard fun _ => .pure rfl
    case bool n => exact .guard fun _ => .pure rfl
    all_goals exact .wrongType
  case dict p =>
    refine (dict_moves p).bind fun es => index.key_moves.bind fun k => ?_
    rw [Entries.find?_moved]
    cases es.find? k with
    | none => exact missingKey_moves index
    | some v => exact .pure rfl
  all_goals exact .wrongType

end Run

end NestedSite
