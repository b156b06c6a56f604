import NestedSite.Method.Arguments
import NestedSite.Proofs.Store.Iteration

/-!
# Operators on values of a region

Arguments, operators, comparisons and subscripts of values of a region have results in the region, and need only let
values be read (`Run.binary_confined`, `Run.compare_confined`, `Run.subscript_confined`, …).
-/

namespace NestedSite

open Region (AllowsReads AllowsEdits)
open Template

variable {r : Region} {R : World → World → Prop}

/-! ## Arguments -/

/-- All arguments lie in the region. -/
structure Arguments.In (r : Region) (args : Arguments) : Prop where
  positional : ∀ v ∈ args.positional, v.In r
  named : FieldsIn r args.named

namespace Arguments

variable {args : Arguments}

theorem go_confined [AllowsReads r R] (hn : FieldsIn r args.named) :
    ∀ (vs : List Value) (ps : Parameters), (∀ v ∈ vs, v.In r) →
      Confined r R (assign.go args vs ps) fun us => ∀ u ∈ us, ∀ v ∈ u, v.In r
  | [], [], _ => by
    unfold assign.go
    exact .pure (by simp)
  | _ :: _, [], _ => by
    unfold assign.go
    exact .wrongType
  | vs, p :: ps, h => by
    have hnamed : ∀ v ∈ (args.named.find? fun a => a.1 == p.name).map Prod.snd, v.In r := fun v hv => hn.find? hv
    -- one argument is passed, the others follow
    have next : ∀ {u : Option Value} {ws : List Value}, (∀ v ∈ u, v.In r) → (∀ v ∈ ws, v.In r) →
        Confined r R (do return u :: (← assign.go args ws ps)) fun us => ∀ u ∈ us, ∀ v ∈ u, v.In r :=
      fun hu hws => (go_confined hn _ ps hws).bind fun us hus => .pure (List.forall_mem_cons.2 ⟨hu, hus⟩)
    unfold assign.go
    split
    · contradiction
    · contradiction
    · rename_i heq
      cases heq
      dsimp only
      split
      · exact .refuse fun _ => next hnamed h
      · obtain ⟨hv, hvs⟩ := List.forall_mem_cons.1 h
        exact .refuse fun _ => next (by simpa using hv) hvs
      · refine .refuse fun _ => next ?_ (by simp)
        split
        · exact hnamed
        · simp

theorem In.assign [AllowsReads r R] (h : args.In r) (ps : Parameters) :
    Confined r R (args.assign ps) fun us => ∀ u ∈ us, ∀ v ∈ u, v.In r :=
  .refuse fun _ => go_confined h.named _ ps h.positional

theorem In.exactly [AllowsReads r R] (h : args.In r) (n : Nat) :
    Confined r R (args.exactly n) fun vs => ∀ v ∈ vs, v.In r :=
  .ite (fun _ => .pure h.positional) fun _ => .wrongType

end Arguments

namespace Run

theorem expectInt_confined [AllowsReads r R] {v : Value} : Confined r R (expectInt v) fun _ => True := by
  unfold expectInt
  split
  · exact .pure trivial
  · exact .wrongType

theorem expectText_confined [AllowsReads r R] {v : Value} : Confined r R (expectText v) fun _ => True := by
  unfold expectText
  split
  · exact .pure trivial
  · exact .wrongType

theorem expectSize_confined [AllowsReads r R] {v : Value} : Confined r R (expectSize v) fun _ => True :=
  expectInt_confined.bind fun _ _ => .ite (fun _ => .pure trivial) fun _ => .throw

theorem truth_confined [AllowsReads r R] {v : Value} : Confined r R (truth v) fun _ => True :=
  store_confined.bind fun _ _ => .pure trivial

theorem text_confined [AllowsReads r R] {v : Value} : Confined r R (text v) fun _ => True :=
  read_confined fun _ _ _ _ => trivial

end Run

/-! ## Arithmetic -/

theorem intPower_in (a b : Int) : Gives (intPower a b) (·.In r) := by
  unfold intPower
  refine .ite (.guard ?_) ?_
  · refine (Gives.any _).bind fun x _ => (Gives.any _).bind fun y _ => ?_
    split
    · exact .pure Value.in_float
    · exact .throw
    · exact .throw
  · exact .ite (.pure Value.in_int) (.guard (.pure Value.in_int))

theorem intOperation_in (op : BinaryOp) (a b : Int) : Gives (intOperation op a b) (·.In r) := by
  unfold intOperation
  split
  · exact .pure Value.in_int
  · exact .pure Value.in_int
  · exact .pure Value.in_int
  · exact .guard (.ite .throw (.pure Value.in_float))
  · exact .ite .throw (.pure Value.in_int)
  · exact .ite .throw (.pure Value.in_int)
  · exact intPower_in a b
  · exact .throw

theorem floatOperation_in (op : BinaryOp) (x y : Float) : Gives (floatOperation op x y) (·.In r) := by
  unfold floatOperation
  split
  · exact .pure Value.in_float
  · exact .pure Value.in_float
  · exact .pure Value.in_float
  · exact .ite .throw (.pure Value.in_float)
  · exact .ite .throw (.pure Value.in_float)
  · exact .ite .throw (.pure Value.in_float)
  · split
    · exact .pure Value.in_float
    · exact .pure Value.in_complex
    · exact .throw
    · exact .throw
  · exact .throw

theorem complexOperation_in (op : BinaryOp) (a b : Number.FloatPair) : Gives (complexOperation op a b) (·.In r) := by
  unfold complexOperation
  split
  · exact .pure Value.in_complex
  · exact .pure Value.in_complex
  · exact .pure Value.in_complex
  · split
    · exact .pure Value.in_complex
    · exact .throw
  · split
    · exact .ite .throw (.pure Value.in_complex)
    · exact .throw
  · exact .throw

theorem numericOperation_in (op : BinaryOp) (a b : Numeric) : Gives (numericOperation op a b) (·.In r) := by
  unfold numericOperation
  split
  · exact intOperation_in op _ _
  · refine .ite ?_ ?_
    · exact (Gives.any _).bind fun x _ => (Gives.any _).bind fun y _ => complexOperation_in op x y
    · exact (Gives.any _).bind fun x _ => (Gives.any _).bind fun y _ => floatOperation_in op x y

theorem times_mem {α : Type} (excess : Fault) (items : List α) (n : Int) :
    Gives (Run.times excess items n) fun all => ∀ v ∈ all, v ∈ items := by
  unfold Run.times
  refine .guard (.ite (.pure (by simp)) (.guard ((Gives.any _).bind fun _ _ => .pure ?_)))
  intro v hv
  obtain ⟨l, hl, hvl⟩ := List.mem_flatten.1 hv
  rwa [List.eq_of_mem_replicate hl] at hvl

namespace Run

/-- Reading what follows from the store. -/
theorem gives_confined [AllowsReads r R] {α : Type} {f : Store → Except Fault α} {Q : α → Prop}
    (h : ∀ s, Gives (f s) Q) : Confined r R (read f) Q := read_confined fun s a _ => h s a

theorem repeated?_confined [AllowsReads r R] {v : Value} (h : v.In r) {n : Int} :
    Confined r R (repeated? v n) fun u => ∀ w ∈ u, w.In r := by
  unfold repeated?
  split
  · exact (gives_confined fun _ => .any _).bind fun _ _ => .pure (by simp)
  · exact (gives_confined fun _ => .any _).bind fun _ _ => .pure (by simp)
  · refine (gives_confined fun _ => times_mem .tooLarge _ n).bind fun vs hvs => .pure ?_
    simpa using fun v hv => Value.in_tuple.1 h v (hvs v hv)
  · refine (list_confined h).bind fun items hitems => ?_
    refine (gives_confined fun _ => times_mem .tooLarge _ n).bind fun vs hvs => ?_
    exact (newList_confined fun v hv => hitems v (hvs v hv)).bind fun u hu => .pure (by simpa using hu)
  · exact .pure (by simp)

theorem sequence_confined [AllowsReads r R] {op : BinaryOp} {a b : Value} (ha : a.In r) (hb : b.In r) :
    Confined r R (binary.sequence op a b) (·.In r) := by
  unfold binary.sequence
  split
  · split
    · refine (repeated?_confined ha).bind fun u hu => ?_
      split
      · exact .pure (hu _ rfl)
      · exact .wrongType
    · refine (repeated?_confined hb).bind fun u hu => ?_
      split
      · exact .pure (hu _ rfl)
      · exact .wrongType
    · exact .wrongType
  · -- what is taken from a set is a new set
    have difference : Confined r R (do
        let kept ← (← items a).mapM Value.key
        let removed ← items b
        newSet (kept.filter fun x => !hasKey removed x)) (·.In r) := by
      refine (items_confined ha).bind fun vs hvs => ?_
      refine (Confined.mapM fun v hv => Value.key_confined (hvs v hv)).bind fun kept hkept => ?_
      refine (items_confined hb).bind fun removed _ => ?_
      exact newSet_confined fun v hv => hkept v (List.mem_filter.1 hv).1
    split
    · exact difference
    · exact difference
    · exact difference
    · exact difference
    · exact difference
    · exact .wrongType
  · exact .wrongType

theorem binary_confined [AllowsReads r R] {op : BinaryOp} {a b : Value} (ha : a.In r) (hb : b.In r) :
    Confined r R (binary op a b) (·.In r) := by
  unfold binary
  split
  · exact .pure Value.in_text
  · exact .pure Value.in_bytes
  · refine .pure (Value.in_tuple.2 fun v hv => ?_)
    rcases List.mem_append.1 hv with hv | hv
    · exact Value.in_tuple.1 ha v hv
    · exact Value.in_tuple.1 hb v hv
  · refine (list_confined ha).bind fun xs hxs => (list_confined hb).bind fun ys hys => newList_confined ?_
    exact fun v hv => (List.mem_append.1 hv).elim (hxs v) (hys v)
  · exact (gives_confined fun _ => .any _).bind fun _ _ => .pure Value.in_text
  · exact (gives_confined fun _ => .any _).bind fun _ _ => .pure Value.in_bytes
  · split
    · exact gives_confined fun _ => numericOperation_in op _ _
    · exact sequence_confined ha hb

theorem unary_confined [AllowsReads r R] {op : UnaryOp} {v : Value} : Confined r R (unary op v) (·.In r) := by
  unfold unary
  split
  · exact store_confined.bind fun _ _ => .pure Value.in_bool
  · split
    · exact .pure Value.in_int
    · exact .pure Value.in_float
    · exact .pure Value.in_complex
    · exact .wrongType
  · split
    · exact .pure Value.in_int
    · exact .pure Value.in_float
    · exact .pure Value.in_complex
    · exact .wrongType
  · exact .throw

theorem compare_confined [AllowsReads r R] {op : CompareOp} {a b : Value} (ha : a.In r) (hb : b.In r) :
    Confined r R (compare op a b) fun _ => True := by
  have read : ∀ f : Store → Except Fault Bool, Confined r R (Run.read f) fun _ => True :=
    fun f => gives_confined fun _ => .any _
  unfold compare
  split
  · exact read _
  · exact (read _).bind fun _ _ => .pure trivial
  · exact read _
  · exact read _
  · exact read _
  · exact read _
  · exact contains_confined hb ha
  · exact (contains_confined hb ha).bind fun _ _ => .pure trivial
  · exact .pure trivial
  · exact .pure trivial

/-! ## Items and parts -/

theorem bound?_confined [AllowsReads r R] {v : Value} : Confined r R (bound? v) fun _ => True := by
  unfold bound?
  split
  · exact .pure trivial
  · split
    · exact .pure trivial
    · exact .wrongType

theorem stride_confined [AllowsReads r R] {v : Value} : Confined r R (stride v) fun _ => True := by
  refine bound?_confined.bind fun n _ => ?_
  split
  · exact .pure trivial
  · exact .ite (fun _ => .throw) fun _ => .pure trivial

theorem mem_itemsAt {α : Type} {items : Array α} {step : Int} {x : α} :
    ∀ {n : Nat} {start : Int}, x ∈ itemsAt items start step n → x ∈ items
  | 0, _, h => absurd h List.not_mem_nil
  | n + 1, start, h => by
    unfold itemsAt at h
    dsimp only at h
    split at h
    · rcases List.mem_cons.1 h with rfl | h
      · exact Array.mem_of_getElem? ‹_›
      · exact mem_itemsAt h
    · exact mem_itemsAt h

theorem part_confined [AllowsReads r R] {α : Type} {items : List α} {lower upper step : Value} :
    Confined r R (part items lower upper step) fun xs => ∀ x ∈ xs, x ∈ items :=
  stride_confined.bind fun _ _ => bound?_confined.bind fun _ _ => bound?_confined.bind fun _ _ =>
    .pure fun _ hx => List.mem_toArray.1 (mem_itemsAt hx)

theorem item_confined [AllowsReads r R] {α : Type} {items : List α} {index : Value} :
    Confined r R (item items index) fun x => x ∈ items := by
  unfold item
  split
  · refine .guard fun _ => ?_
    split
    · exact .pure (List.mem_of_getElem? ‹_›)
    · exact .throw
  · exact .wrongType

theorem missingKey_confined [AllowsReads r R] {α : Type} {k : Value} {Q : α → Prop} :
    Confined r R (missingKey k) Q := by
  refine store_confined.bind fun s _ => ?_
  split <;> exact .throw

theorem subscript_confined [AllowsReads r R] {v index : Value} (hv : v.In r) (hi : index.In r) :
    Confined r R (subscript v index) (·.In r) := by
  unfold subscript
  split
  · exact (list_confined hv).bind fun xs hxs => part_confined.bind fun ys hys =>
      newList_confined fun y hy => hxs y (hys y hy)
  · exact part_confined.bind fun ys hys => .pure (Value.in_tuple.2 fun y hy => Value.in_tuple.1 hv y (hys y hy))
  · exact part_confined.bind fun _ _ => .pure Value.in_text
  · exact part_confined.bind fun _ _ => .pure Value.in_bytes
  · exact stride_confined.bind fun _ _ => bound?_confined.bind fun _ _ => bound?_confined.bind fun _ _ =>
      .pure Value.in_range
  · exact (list_confined hv).bind fun xs hxs => item_confined.weaken fun x hx => hxs x hx
  · exact item_confined.weaken fun x hx => Value.in_tuple.1 hv x hx
  · exact item_confined.bind fun _ _ => .pure Value.in_text
  · exact item_confined.bind fun _ _ => .pure Value.in_int
  · split
    · exact .guard fun _ => .pure Value.in_int
    · exact .wrongType
  · refine (dict_confined hv).bind fun es hes => (Value.key_confined hi).bind fun k _ => ?_
    split
    · exact .pure (hes.find? ‹_›)
    · exact missingKey_confined
  · exact .wrongType

end Run

end NestedSite
