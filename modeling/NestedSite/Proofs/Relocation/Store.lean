import NestedSite.Proofs.Relocation.Value

/-!
# Stores that fit

A relocation fits two stores (`Relocation.Fits`) if every place of the first one is found in the second one with what
it holds, moved, and if the places that are still free are found in the order in which they will be taken. The second
store may hold more. What is read off a value is then the same in both stores: equality and order
(`Store.equal_moved`, `Store.ordered_moved`), the text of a value (`Store.show_moved`, `Store.text_moved`), and its
length and truth.
-/

namespace NestedSite

namespace Relocation

/-- Every place of `s` is found in `s'` with what it holds, and free places are found at free places. -/
structure Fits (ρ : Relocation) (s s' : Store) : Prop where
  list : ∀ p, s'.list (ρ.lists p) = (s.list p).map (Value.moved ρ)
  dict : ∀ p, s'.dict (ρ.dicts p) = (s.dict p).moved ρ
  set : ∀ p, s'.set (ρ.sets p) = (s.set p).map (Value.moved ρ)
  cursor : ∀ p, s'.cursor (ρ.cursors p) = (s.cursor p).moved ρ
  legend : ∀ p, s'.legend (ρ.legends p) = (s.legend p).moved ρ
  metadata : ∀ p, s'.metadataAt (ρ.metadata p) = (s.metadataAt p).moved ρ
  freeLists : ∀ n, ρ.lists (s.lists.size + n) = s'.lists.size + n
  freeDicts : ∀ n, ρ.dicts (s.dicts.size + n) = s'.dicts.size + n
  freeSets : ∀ n, ρ.sets (s.sets.size + n) = s'.sets.size + n
  freeCursors : ∀ n, ρ.cursors (s.cursors.size + n) = s'.cursors.size + n
  freeLegends : ∀ n, ρ.legends (s.legends.size + n) = s'.legends.size + n
  freeMetadata : ∀ n, ρ.metadata (s.metadata.size + n) = s'.metadata.size + n

end Relocation

namespace Store

variable {ρ : Relocation} {s s' : Store}

/-! ## Lists item by item -/

section Lists

variable {α β γ δ : Type}

theorem allPairs_map {f : α → β → Except Fault Bool} {f' : γ → δ → Except Fault Bool} {g : α → γ} {h : β → δ}
    (hf : ∀ x y, f' (g x) (h y) = f x y) :
    ∀ xs ys, allPairs f' (xs.map g) (ys.map h) = allPairs f xs ys
  | [], [] => rfl
  | [], _ :: _ => rfl
  | _ :: _, [] => rfl
  | x :: xs, y :: ys => by
    simp only [List.map_cons, allPairs, hf, allPairs_map hf xs ys]

theorem anyItem_map {f : α → Except Fault Bool} {f' : γ → Except Fault Bool} {g : α → γ} (hf : ∀ x, f' (g x) = f x) :
    ∀ xs, anyItem f' (xs.map g) = anyItem f xs
  | [] => rfl
  | x :: xs => by simp only [List.map_cons, anyItem, hf, anyItem_map hf xs]

theorem allItems_map {f : α → Except Fault Bool} {f' : γ → Except Fault Bool} {g : α → γ} (hf : ∀ x, f' (g x) = f x) :
    ∀ xs, allItems f' (xs.map g) = allItems f xs
  | [] => rfl
  | x :: xs => by simp only [List.map_cons, allItems, hf, allItems_map hf xs]

end Lists

/-! ## Equality -/

theorem elements?_moved (h : ρ.Fits s s') (v : Value) :
    s'.elements? (v.moved ρ) = (s.elements? v).map fun vs => vs.map (Value.moved ρ) := by
  cases v
  case set p => exact congrArg some (h.set p)
  case view kind p =>
    cases kind
    case keys => exact congrArg some ((congrArg Entries.keys (h.dict p)).trans (Entries.keys_moved ρ _))
    case values => rfl
    case items => exact congrArg some ((congrArg Entries.items (h.dict p)).trans (Entries.view_moved ρ _ .items))
  all_goals rfl

/-- Whether two values are identical, or equal to the depth `n`. -/
def sameTo (s : Store) (n : Nat) (a b : Value) : Except Fault Bool :=
  if a.identical b then pure true else s.equalTo n a b

/-- Equality of values that have no rule of their own: as numbers, as sets, or by identity. -/
def equalPlain (s : Store) (n : Nat) (a b : Value) : Except Fault Bool :=
  match a.numeric?, b.numeric? with
  | some m, some n => pure (m.equal n)
  | _, _ =>
    match s.elements? a, s.elements? b with
    | some xs, some ys =>
      if xs.length == ys.length then allItems (fun x => anyItem (fun y => s.sameTo n x y) ys) xs else pure false
    | _, _ => pure (a.identical b)

/-- Equality of items. -/
def equalItems (s : Store) (n : Nat) (xs ys : List Value) : Except Fault Bool :=
  if xs.length == ys.length then allPairs (s.sameTo n) xs ys else pure false

/-- Equality of entries. -/
def equalEntries (s : Store) (n : Nat) (xs ys : Entries) : Except Fault Bool :=
  if xs.length == ys.length then
    allItems (fun (k, v) => match ys.find? k with
      | some w => s.sameTo n v w
      | none => pure false) xs
  else pure false

/-- Equality of named fields. -/
def equalFields (s : Store) (n : Nat) (xs ys : List (String × Value)) : Except Fault Bool :=
  if xs.length == ys.length then
    allItems (fun (k, v) => match ys.find? (fun e => e.1 == k) with
      | some (_, w) => s.sameTo n v w
      | none => pure false) xs
  else pure false

theorem equalPlain_moved (h : ρ.Fits s s') {n : Nat}
    (ih : ∀ a b : Value, s'.sameTo n (a.moved ρ) (b.moved ρ) = s.sameTo n a b) (a b : Value) :
    s'.equalPlain n (a.moved ρ) (b.moved ρ) = s.equalPlain n a b := by
  unfold equalPlain
  rw [Value.numeric?_moved, Value.numeric?_moved, Value.identical_moved, elements?_moved h, elements?_moved h]
  cases s.elements? a with
  | none => rfl
  | some xs =>
    cases s.elements? b with
    | none => rfl
    | some ys =>
      simp only [Option.map_some, List.length_map]
      rw [allItems_map fun x => anyItem_map (ih x) ys]

theorem equalItems_moved {n : Nat}
    (ih : ∀ a b : Value, s'.sameTo n (a.moved ρ) (b.moved ρ) = s.sameTo n a b) (xs ys : List Value) :
    s'.equalItems n (xs.map (Value.moved ρ)) (ys.map (Value.moved ρ)) = s.equalItems n xs ys := by
  rw [equalItems, List.length_map, List.length_map, allPairs_map ih, equalItems]

theorem equalEntries_moved {n : Nat}
    (ih : ∀ a b : Value, s'.sameTo n (a.moved ρ) (b.moved ρ) = s.sameTo n a b) (xs ys : Entries) :
    s'.equalEntries n (xs.moved ρ) (ys.moved ρ) = s.equalEntries n xs ys := by
  unfold equalEntries
  rw [Entries.length_moved, Entries.length_moved]
  refine congrArg (fun r => if xs.length == ys.length then r else pure false) (allItems_map (fun x => ?_) xs)
  dsimp only
  rw [Entries.find?_moved]
  cases ys.find? x.1 with
  | none => rfl
  | some w => exact ih x.2 w

theorem equalFields_moved {n : Nat}
    (ih : ∀ a b : Value, s'.sameTo n (a.moved ρ) (b.moved ρ) = s.sameTo n a b) (xs ys : List (String × Value)) :
    s'.equalFields n (movedFields ρ xs) (movedFields ρ ys) = s.equalFields n xs ys := by
  unfold equalFields
  rw [length_movedFields, length_movedFields]
  refine congrArg (fun r => if xs.length == ys.length then r else pure false) (allItems_map (fun x => ?_) xs)
  dsimp only
  rw [find?_movedFields]
  cases ys.find? fun e => e.1 == x.1 with
  | none => rfl
  | some e => exact ih x.2 e.2

theorem equalTo_moved (h : ρ.Fits s s') :
    ∀ (n : Nat) (a b : Value), s'.equalTo n (a.moved ρ) (b.moved ρ) = s.equalTo n a b
  | 0, _, _ => rfl
  | n + 1, a, b => by
    have same (x y : Value) : s'.sameTo n (x.moved ρ) (y.moved ρ) = s.sameTo n x y := by
      rw [sameTo, Value.identical_moved, equalTo_moved h n, sameTo]
    have plain := equalPlain_moved h same a b
    cases a
    case tuple xs =>
      cases b
      case tuple ys =>
        rw [Value.moved, Value.moved, Value.movedAll_eq_map, Value.movedAll_eq_map]
        exact equalItems_moved same xs ys
      all_goals exact plain
    case list p =>
      cases b
      case list q =>
        have items := equalItems_moved same (s.list p) (s.list q)
        rw [← h.list, ← h.list] at items
        exact items
      all_goals exact plain
    case dict p =>
      cases b
      case dict q =>
        have entries := equalEntries_moved same (s.dict p) (s.dict q)
        rw [← h.dict, ← h.dict] at entries
        exact entries
      all_goals exact plain
    case range => cases b <;> rfl
    case moment => cases b <;> rfl
    case slice a₁ a₂ a₃ =>
      cases b
      case slice b₁ b₂ b₃ => exact allPairs_map same [a₁, a₂, a₃] [b₁, b₂, b₃]
      all_goals exact plain
    case legend p =>
      cases b
      case legend q =>
        have fields := equalFields_moved same (s.legend p).extras (s.legend q).extras
        show (if (s'.legend (ρ.legends p)).name == (s'.legend (ρ.legends q)).name &&
            (s'.legend (ρ.legends p)).echo == (s'.legend (ρ.legends q)).echo then
          s'.equalFields n (s'.legend (ρ.legends p)).extras (s'.legend (ρ.legends q)).extras else pure false) = _
        rw [h.legend, h.legend]
        simp only [Legend.moved, fields]
        rfl
      all_goals exact plain
    case metadata p =>
      cases b
      case metadata q => 
        have fields := equalFields_moved same (s.metadataAt p).extras (s.metadataAt q).extras
        have files := same (.list (s.metadataAt p).files) (.list (s.metadataAt q).files)
        show (if (s'.metadataAt (ρ.metadata p)).ignore == (s'.metadataAt (ρ.metadata q)).ignore then do
          if ← s'.sameTo n (.list (s'.metadataAt (ρ.metadata p)).files)
              (.list (s'.metadataAt (ρ.metadata q)).files) then
            s'.equalFields n (s'.metadataAt (ρ.metadata p)).extras (s'.metadataAt (ρ.metadata q)).extras
          else pure false else pure false) = _
        rw [h.metadata, h.metadata]
        simp only [Value.moved] at files
        simp only [Metadata.moved, fields, files]
        rfl
      all_goals exact plain
    case view kind p =>
      cases b
      case view kind' q =>
        cases kind <;> cases kind' <;> first | exact congrArg pure (beq_eq_of_inj ρ.dicts_inj) | exact plain
      all_goals cases kind <;> exact plain
    all_goals exact plain

theorem equal_moved (h : ρ.Fits s s') (a b : Value) : s'.equal (a.moved ρ) (b.moved ρ) = s.equal a b :=
  equalTo_moved h depthLimit a b

theorem matchesItem_moved (h : ρ.Fits s s') (v item : Value) :
    s'.matchesItem (v.moved ρ) (item.moved ρ) = s.matchesItem v item := by
  rw [matchesItem, Value.identical_moved, equal_moved h, matchesItem]

theorem indexOf?_moved (h : ρ.Fits s s') (v : Value) (vs : List Value) :
    s'.indexOf? (v.moved ρ) (vs.map (Value.moved ρ)) = s.indexOf? v vs := by
  induction vs with
  | nil => rfl
  | cons x xs ih => simp only [List.map_cons, indexOf?, matchesItem_moved h, ih]

theorem count_moved (h : ρ.Fits s s') (v : Value) (vs : List Value) :
    s'.count (v.moved ρ) (vs.map (Value.moved ρ)) = s.count v vs := by
  induction vs with
  | nil => rfl
  | cons x xs ih => simp only [List.map_cons, count, matchesItem_moved h, ih]

theorem anyMatch_moved (h : ρ.Fits s s') (vs others : List Value) :
    anyItem (fun x => anyItem (s'.matchesItem x) (others.map (Value.moved ρ))) (vs.map (Value.moved ρ)) =
      anyItem (fun x => anyItem (s.matchesItem x) others) vs :=
  anyItem_map (fun x => anyItem_map (matchesItem_moved h x) others) vs

/-! ## Order -/

theorem firstDifference_map {f f' : Value → Value → Except Fault Bool}
    (hf : ∀ x y, f' (x.moved ρ) (y.moved ρ) = f x y) (xs ys : List Value) :
    firstDifference f' (xs.map (Value.moved ρ)) (ys.map (Value.moved ρ)) =
      (firstDifference f xs ys).map fun d => d.map fun p => (p.1.moved ρ, p.2.moved ρ) := by
  induction xs generalizing ys with
  | nil => cases ys <;> rfl
  | cons x xs ih =>
    cases ys with
    | nil => rfl
    | cons y ys =>
      simp only [List.map_cons, firstDifference, hf, ih ys]
      rcases f x y with _ | (_ | _) <;> rfl

/-- The order of sequences: that of their first difference, or of their lengths. -/
def orderedItems (s : Store) (op : OrderOp) (n : Nat) (xs ys : List Value) : Except Fault Bool := do
  match ← firstDifference (fun x y => if x.identical y then pure true else s.equal x y) xs ys with
  | some (x, y) => s.orderedTo op n x y
  | none => pure (op.holds (compare xs.length ys.length))

/-- The order of values that have no rule of their own: as numbers or as sets. -/
def orderedPlain (s : Store) (op : OrderOp) (a b : Value) : Except Fault Bool :=
  match a.numeric?, b.numeric? with
  | some m, some n => match op.numerics? m n with
    | some r => pure r
    | none => wrongType
  | _, _ =>
    match s.elements? a, s.elements? b with
    | some xs, some ys => orderedTo.inclusion s op xs ys
    | _, _ => wrongType

theorem inclusion_moved (h : ρ.Fits s s') (op : OrderOp) (xs ys : List Value) :
    orderedTo.inclusion s' op (xs.map (Value.moved ρ)) (ys.map (Value.moved ρ)) = orderedTo.inclusion s op xs ys := by
  have within (xs ys : List Value) :
      allItems (fun x => anyItem (s'.matchesItem x) (ys.map (Value.moved ρ))) (xs.map (Value.moved ρ)) =
        allItems (fun x => anyItem (s.matchesItem x) ys) xs :=
    allItems_map (fun x => anyItem_map (matchesItem_moved h x) ys) xs
  unfold orderedTo.inclusion
  simp only [within, List.length_map]

theorem orderedPlain_moved (h : ρ.Fits s s') (op : OrderOp) (a b : Value) :
    s'.orderedPlain op (a.moved ρ) (b.moved ρ) = s.orderedPlain op a b := by
  unfold orderedPlain
  rw [Value.numeric?_moved, Value.numeric?_moved, elements?_moved h, elements?_moved h]
  cases s.elements? a with
  | none => rfl
  | some xs =>
    cases s.elements? b with
    | none => rfl
    | some ys => simp only [Option.map_some, inclusion_moved h]

theorem orderedItems_moved (h : ρ.Fits s s') {op : OrderOp} {n : Nat}
    (ih : ∀ a b : Value, s'.orderedTo op n (a.moved ρ) (b.moved ρ) = s.orderedTo op n a b) (xs ys : List Value) :
    s'.orderedItems op n (xs.map (Value.moved ρ)) (ys.map (Value.moved ρ)) = s.orderedItems op n xs ys := by
  have same (x y : Value) :
      (if (x.moved ρ).identical (y.moved ρ) then pure true else s'.equal (x.moved ρ) (y.moved ρ)) =
      if x.identical y then pure true else s.equal x y := by
    rw [Value.identical_moved, equal_moved h]
  unfold orderedItems
  rw [firstDifference_map same, List.length_map, List.length_map]
  cases firstDifference (fun x y => if x.identical y then pure true else s.equal x y) xs ys with
  | error e => exact Eq.trans (b := Except.error e) rfl rfl
  | ok d =>
    cases d with
    | none => exact Eq.trans (b := pure (op.holds (compare xs.length ys.length))) rfl rfl
    | some d => exact ih d.1 d.2

theorem orderedTo_moved (h : ρ.Fits s s') (op : OrderOp) :
    ∀ (n : Nat) (a b : Value), s'.orderedTo op n (a.moved ρ) (b.moved ρ) = s.orderedTo op n a b
  | 0, _, _ => rfl
  | n + 1, a, b => by
    have sequences := orderedItems_moved h (orderedTo_moved h op n)
    have plain := orderedPlain_moved h op a b
    cases a
    case tuple xs =>
      cases b
      case tuple ys =>
        rw [Value.moved, Value.moved, Value.movedAll_eq_map, Value.movedAll_eq_map]
        exact sequences xs ys
      all_goals exact plain
    case list p =>
      cases b
      case list q =>
        have items := sequences (s.list p) (s.list q)
        rw [← h.list, ← h.list] at items
        exact items
      all_goals exact plain
    case text => cases b <;> rfl
    case bytes => cases b <;> rfl
    case date => cases b <;> rfl
    case moment => cases b <;> rfl
    all_goals exact plain

theorem ordered_moved (h : ρ.Fits s s') (op : OrderOp) (a b : Value) :
    s'.ordered op (a.moved ρ) (b.moved ρ) = s.ordered op a b := orderedTo_moved h op depthLimit a b

/-! ## Sorting -/

theorem mergeSorted_map {α β : Type} {less : α → α → Except Fault Bool} {less' : β → β → Except Fault Bool} {g : α → β}
    (hless : ∀ x y, less' (g x) (g y) = less x y) (xs ys : List α) :
    mergeSorted less' (xs.map g) (ys.map g) = (mergeSorted less xs ys).map (List.map g) := by
  have go : ∀ (n : Nat) (xs ys : List α),
      mergeSorted.go less' n (xs.map g) (ys.map g) = (mergeSorted.go less n xs ys).map (List.map g) := by
    intro n
    induction n with
    | zero =>
      intro xs ys
      rcases xs with _ | ⟨x, xs⟩ <;> rcases ys with _ | ⟨y, ys⟩
      · rfl
      · rfl
      · rfl
      · show _ = Except.ok ((x :: xs ++ y :: ys).map g)
        rw [List.map_append]
        rfl
    | succ n ih =>
      intro xs ys
      rcases xs with _ | ⟨x, xs⟩ <;> rcases ys with _ | ⟨y, ys⟩
      · rfl
      · rfl
      · rfl
      · have left := ih (x :: xs) ys
        have right := ih xs (y :: ys)
        rw [List.map_cons] at left right
        simp only [List.map_cons, mergeSorted.go, hless, left, right]
        rcases less y x with _ | (_ | _)
        · rfl
        · rcases mergeSorted.go less n xs (y :: ys) with _ | _ <;> rfl
        · rcases mergeSorted.go less n (x :: xs) ys with _ | _ <;> rfl
  rw [mergeSorted, List.length_map, List.length_map, go, mergeSorted]

theorem sortBy_map {α β : Type} {less : α → α → Except Fault Bool} {less' : β → β → Except Fault Bool} {g : α → β}
    (hless : ∀ x y, less' (g x) (g y) = less x y) (xs : List α) :
    sortBy less' (xs.map g) = (sortBy less xs).map (List.map g) := by
  have go : ∀ (n : Nat) (xs : List α), sortBy.go less' n (xs.map g) = (sortBy.go less n xs).map (List.map g) := by
    intro n
    induction n with
    | zero => exact fun _ => rfl
    | succ n ih =>
      intro xs
      rw [sortBy.go, sortBy.go, List.length_map]
      split
      · rfl
      · dsimp only
        rw [← List.map_take, ← List.map_drop, ih, ih]
        rcases sortBy.go less n (xs.take (xs.length / 2)) with _ | left
        · rfl
        · rcases sortBy.go less n (xs.drop (xs.length / 2)) with _ | right
          · rfl
          · exact mergeSorted_map hless left right
  rw [sortBy, List.length_map, go, sortBy]

/-! ## Text -/

/-- Only the type of a cursor is looked up in the store. -/
theorem typeName_of_ne_cursor (s s' : Store) {v : Value} (hv : ∀ p, v ≠ .cursor p) : v.typeName s' = v.typeName s := by
  unfold Value.typeName
  split
  case h_17 p => exact absurd rfl (hv p)
  all_goals simp_all

theorem type_moved (c : Cursor) : (c.moved ρ).type = c.type := by
  cases c
  case dict kind _ _ _ => cases kind <;> rfl
  case dictBack kind _ _ _ => cases kind <;> rfl
  all_goals rfl

theorem typeName_moved (h : ρ.Fits s s') (v : Value) : (v.moved ρ).typeName s' = v.typeName s := by
  cases v
  case cursor p => exact (congrArg Cursor.type (h.cursor p)).trans (type_moved _)
  case view kind p => cases kind <;> rfl
  case method v name => cases v <;> rfl
  all_goals exact typeName_of_ne_cursor s s' nofun

/-- The texts of several values, one after the other. -/
def showAll (s : Store) (n : Nat) (inside vs : List Value) : Except Fault String := do
  return ", ".intercalate (← vs.mapM (s.showTo n inside))

/-- The texts of named fields, one after the other. -/
def showFields (s : Store) (n : Nat) (inside : List Value) (fields : List (String × Value)) : Except Fault String := do
  return ", ".intercalate (← fields.mapM fun (k, v) => return k ++ "=" ++ (← s.showTo n inside v))

/-- The texts of entries. -/
def showEntries (s : Store) (n : Nat) (inside : List Value) (es : Entries) : Except Fault (List String) :=
  es.mapM fun (k, v) => return (← s.showTo n inside k) ++ ": " ++ (← s.showTo n inside v)

section Show

variable {n : Nat} (ih : ∀ (inside : List Value) (v : Value),
  s'.showTo n (inside.map (Value.moved ρ)) (v.moved ρ) = s.showTo n inside v)

include ih

theorem showAll_moved (inside vs : List Value) :
    s'.showAll n (inside.map (Value.moved ρ)) (vs.map (Value.moved ρ)) = s.showAll n inside vs := by
  simp only [showAll, List.mapM_map, Function.comp_def, ih]

theorem showFields_moved (inside : List Value) (fields : List (String × Value)) :
    s'.showFields n (inside.map (Value.moved ρ)) (movedFields ρ fields) = s.showFields n inside fields := by
  simp only [showFields, movedFields, List.mapM_map, Function.comp_def, ih]

theorem showEntries_moved (inside : List Value) (es : Entries) :
    s'.showEntries n (inside.map (Value.moved ρ)) (es.moved ρ) = s.showEntries n inside es := by
  simp only [showEntries, Entries.moved, List.mapM_map, Function.comp_def, ih]

end Show

theorem showTo_moved (h : ρ.Fits s s') : ∀ (n : Nat) (inside : List Value) (v : Value),
    s'.showTo n (inside.map (Value.moved ρ)) (v.moved ρ) = s.showTo n inside v
  | 0, _, _ => rfl
  | n + 1, inside, v => by
    have ih := showTo_moved h n
    have all := showAll_moved ih
    have fields := showFields_moved ih inside
    cases v
    case tuple vs =>
      rw [Value.moved, Value.movedAll_eq_map]
      rcases vs with _ | ⟨v, _ | ⟨w, vs⟩⟩
      · rfl
      · exact congrArg (fun r => do return "(" ++ (← r) ++ ",)") (ih inside v)
      · exact congrArg (fun r => do return "(" ++ (← r) ++ ")") (all inside (v :: w :: vs))
    case slice a b c => exact congrArg (fun r => do return "slice(" ++ (← r) ++ ")") (all inside [a, b, c])
    -- a list, mapping, set or view is looked for among those that are being written
    case list p =>
      show (if (inside.map (Value.moved ρ)).any (Value.moved ρ (.list p)).identical then pure "[...]" else do
        return "[" ++ (← s'.showAll n ((Value.list p :: inside).map (Value.moved ρ)) (s'.list (ρ.lists p))) ++ "]") = _
      rw [any_identical_moved, h.list, all]
      rfl
    case dict p =>
      show (if (inside.map (Value.moved ρ)).any (Value.moved ρ (.dict p)).identical then pure "\x7b...\x7d" else do
        return "\x7b" ++ ", ".intercalate
          (← s'.showEntries n ((Value.dict p :: inside).map (Value.moved ρ)) (s'.dict (ρ.dicts p))) ++ "\x7d") = _
      rw [any_identical_moved, h.dict, showEntries_moved ih]
      rfl
    case set p =>
      show (if (s'.set (ρ.sets p)).isEmpty then pure "set()"
        else if (inside.map (Value.moved ρ)).any (Value.moved ρ (.set p)).identical then pure "set(...)" else do
          return "\x7b" ++ (← s'.showAll n ((Value.set p :: inside).map (Value.moved ρ)) (s'.set (ρ.sets p))) ++
            "\x7d") = _
      rw [any_identical_moved, h.set, all, List.isEmpty_map]
      rfl
    case view kind p =>
      show (if (inside.map (Value.moved ρ)).any (Value.moved ρ (.view kind p)).identical then pure "..." else do
        return (Value.moved ρ (.view kind p)).typeName s' ++ "([" ++
          (← s'.showAll n ((Value.view kind p :: inside).map (Value.moved ρ)) ((s'.dict (ρ.dicts p)).view kind)) ++
          "])") = _
      rw [any_identical_moved, h.dict, Entries.view_moved, all, typeName_moved h]
      rfl
    case legend p =>
      show (do
        return "Legend(" ++ (← s'.showFields n (inside.map (Value.moved ρ)) (s'.legend (ρ.legends p)).fields) ++
          ")") = _
      rw [h.legend, fields_legend_moved, fields]
      rfl
    case metadata p =>
      show (do return "Metadata(" ++
        (← s'.showFields n (inside.map (Value.moved ρ)) (s'.metadataAt (ρ.metadata p)).fields) ++ ")") = _
      rw [h.metadata, fields_metadata_moved, fields]
      rfl
    case cursor p => exact congrArg (fun t => pure ("<" ++ t ++ " object>")) (typeName_moved h (.cursor p))
    case typeField t name =>
      by_cases ht : t = "range"
      · subst ht
        rfl
      · simp only [Value.moved, showTo]
    all_goals rfl

theorem show_moved (h : ρ.Fits s s') (v : Value) : s'.show (v.moved ρ) = s.show v := showTo_moved h depthLimit [] v

theorem text_moved (h : ρ.Fits s s') (v : Value) : s'.text (v.moved ρ) = s.text v := by
  have shown := show_moved h v
  have fields (fields : List (String × Value)) :
      (movedFields ρ fields).mapM (fun f => do return f.1 ++ "=" ++ (← s'.show f.2)) =
        fields.mapM fun f => do return f.1 ++ "=" ++ (← s.show f.2) := by
    simp only [movedFields, List.mapM_map, Function.comp_def, show_moved h]
  cases v
  case legend p =>
    show (do return " ".intercalate (← (s'.legend (ρ.legends p)).fields.mapM fun f : String × Value => do
      return f.1 ++ "=" ++ (← s'.show f.2))) = _
    rw [h.legend, fields_legend_moved, fields]
    rfl
  case metadata p =>
    show (do return " ".intercalate (← (s'.metadataAt (ρ.metadata p)).fields.mapM fun f : String × Value => do
      return f.1 ++ "=" ++ (← s'.show f.2))) = _
    rw [h.metadata, fields_metadata_moved, fields]
    rfl
  case text => rfl
  case date => rfl
  case moment => rfl
  all_goals exact shown

/-! ## Length and truth -/

theorem length?_moved (h : ρ.Fits s s') (v : Value) : s'.length? (v.moved ρ) = s.length? v := by
  cases v
  case tuple vs => simp only [Value.moved, length?, Value.movedAll_eq_map, List.length_map]
  case list p => simp only [Value.moved, length?, h.list, List.length_map]
  case dict p => simp only [Value.moved, length?, h.dict, Entries.length_moved]
  case view kind p => simp only [Value.moved, length?, h.dict, Entries.length_moved]
  case set p => simp only [Value.moved, length?, h.set, List.length_map]
  all_goals rfl

theorem truth_moved (h : ρ.Fits s s') (v : Value) : s'.truth (v.moved ρ) = s.truth v := by
  have byLength := congrArg (fun l : Option Nat => l.elim true (· != 0)) (length?_moved h v)
  cases v
  case none => rfl
  case bool => rfl
  case int => rfl
  case float => rfl
  case complex => rfl
  all_goals exact byLength

end Store

end NestedSite
