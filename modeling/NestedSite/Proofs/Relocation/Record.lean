import NestedSite.Method.Attribute
import NestedSite.Proofs.Method.Record
import NestedSite.Proofs.Relocation.Container

/-!
# Legends, metadata, days and attributes of values that are moved

Copies of what legends and metadata hold, groups and legends that are looked up, and attributes that are read are moved
along with the values they come from (`Run.dumped_moves`, `Run.legendNamed_moves`, `Run.readAttribute_moves`, …).
-/

namespace NestedSite

variable {ρ : Relocation}

/-! ## Legends and metadata -/

theorem Legend.givenFields_moved (l : Legend) : (l.moved ρ).givenFields = movedFields ρ l.givenFields := by
  obtain ⟨name, echo, given, extras⟩ := l
  cases given <;> cases echo <;> rfl

namespace Run

theorem newRecord_moves (fields : List (String × Value)) :
    Moves ρ (Value.moved ρ) (newRecord fields) (newRecord (movedFields ρ fields)) := by
  refine newDict_moves ?_
  rw [← Entries.merge_moved, ← namedEntries_moved, Entries.moved_nil]

theorem dumpedTo_moves : ∀ (n : Nat) (inside : List Value) (v : Value),
    Moves ρ (Value.moved ρ) (dumpedTo n inside v) (dumpedTo n (inside.map (Value.moved ρ)) (v.moved ρ))
  | 0, _, _ => .throw
  | n + 1, inside, v => by
    have ih := dumpedTo_moves n
    have deeper := ih (v :: inside)
    have fields (fields : List (String × Value)) : Moves ρ (Value.moved ρ)
        (do newRecord (← fields.mapM fun f => return (f.1, ← dumpedTo n (v :: inside) f.2)))
        (do newRecord (← (movedFields ρ fields).mapM fun f =>
          return (f.1, ← dumpedTo n (v.moved ρ :: inside.map (Value.moved ρ)) f.2))) := by
      refine Moves.bind (f := movedFields ρ) (.mapM fun a => ?_) newRecord_moves
      exact (deeper a.2).bind fun w => .pure rfl
    unfold dumpedTo
    rw [any_identical_moved]
    refine .guard fun hinside => ?_
    clear hinside
    cases v
    case list p => exact (list_moves p).bind fun vs => (Moves.mapM deeper).bind fun _ => newList_moves rfl
    case tuple vs =>
      rw [Value.moved, Value.movedAll_eq_map]
      exact (Moves.mapM (ih inside)).bind fun us => .pure (by simp)
    case set p => exact (set_moves p).bind fun _ => newSet_moves rfl
    case dict p =>
      refine (dict_moves p).bind fun es => ?_
      refine Moves.bind (f := Entries.moved ρ) (.mapM fun e => ?_) fun _ => newDict_moves rfl
      exact (deeper e.2).bind fun w => .pure rfl
    case legend p =>
      refine store_bind_moves fun s s' hs => ?_
      dsimp only [Value.moved]
      rw [hs.legend, fields_legend_moved]
      exact fields _
    case metadata p =>
      refine store_bind_moves fun s s' hs => ?_
      dsimp only [Value.moved]
      rw [hs.metadata, fields_metadata_moved]
      exact fields _
    all_goals exact .pure rfl

theorem dumped_moves (v : Value) : Moves ρ (Value.moved ρ) (dumped v) (dumped (v.moved ρ)) :=
  dumpedTo_moves depthLimit [] v

theorem legendFields_moves (l : Legend) : Moves ρ (Value.moved ρ) (legendFields l) (legendFields (l.moved ρ)) := by
  unfold legendFields
  rw [Legend.givenFields_moved]
  refine (Moves.forIn fun a => ?_).seq (newRecord_moves _)
  exact (dumped_moves a.2).discard.bindPlain fun _ => .pure rfl

theorem metadataGroup_moves (m : Metadata) (name : Value) :
    Moves ρ (Value.moved ρ) (metadataGroup m name) (metadataGroup (m.moved ρ) (name.moved ρ)) := by
  refine name.key_moves.bind fun name => ?_
  cases name
  case text name =>
    dsimp only [Value.moved]
    split
    · refine .pure ?_
      cases h : m.ignore <;> simp only [Metadata.moved, h] <;> rfl
    · exact .pure rfl
    · rename_i name _ _ heq
      cases heq
      refine .pure ?_
      rw [Metadata.moved, find?_movedFields]
      cases m.extras.find? fun a => a.1 == name <;> rfl
    · exact .pure rfl
  all_goals exact .pure rfl

theorem legendNamedGo_moves (name : Value) (vs : List Value) :
    Moves ρ (Value.moved ρ) (legendNamed.go name vs) (legendNamed.go (name.moved ρ) (vs.map (Value.moved ρ))) := by
  induction vs with
  | nil => exact .pure rfl
  | cons v vs ih =>
    cases v
    case legend p =>
      refine (read_plain_moves fun s s' hs => ?_).bindPlain fun found => .ite (fun _ => .pure rfl) fun _ => ih
      rw [hs.legend]
      exact Store.equal_moved hs (.text (s.legend p).name) name
    all_goals exact .throw

theorem legendNamed_moves (m : Metadata) (name : Value) :
    Moves ρ (Value.moved ρ) (legendNamed m name) (legendNamed (m.moved ρ) (name.moved ρ)) :=
  (list_moves m.files).bind (legendNamedGo_moves name)

theorem callLegend_moves (place : Nat) (name : String) (args : Arguments) :
    Moves ρ (Value.moved ρ) (callLegend place name args) (callLegend (ρ.legends place) name (args.moved ρ)) := by
  refine store_bind_moves fun s s' hs => ?_
  dsimp only
  rw [hs.legend]
  split
  · exact (args.exactly_moves 0).discard.seq (legendFields_moves _)
  · exact dumped_moves (.legend place)
  · exact dumped_moves (.legend place)
  · exact newLegend_moves rfl
  · exact newLegend_moves rfl
  · exact .wrongType

theorem callMetadata_moves (place : Nat) (name : String) (args : Arguments) :
    Moves ρ (Value.moved ρ) (callMetadata place name args)
      (callMetadata (ρ.metadata place) name (args.moved ρ)) := by
  refine store_bind_moves fun s s' hs => ?_
  dsimp only
  rw [hs.metadata]
  split
  · refine (args.assign_moves _).bind fun us => ?_
    rcases us with _ | ⟨_ | v, _ | _⟩
    case cons.some.nil => exact metadataGroup_moves _ v
    all_goals exact .wrongType
  · refine (args.assign_moves _).bind fun us => ?_
    rcases us with _ | ⟨_ | v, _ | _⟩
    case cons.some.nil => exact legendNamed_moves _ v
    all_goals exact .wrongType
  · exact dumped_moves (.metadata place)
  · exact dumped_moves (.metadata place)
  · exact newMetadata_moves rfl
  · exact newMetadata_moves rfl
  · exact .wrongType

/-! ## Days and moments -/

theorem replaced_moves (args : Arguments) (names : List String) (values : List Nat) :
    Moves ρ id (replaced args names values) (replaced (args.moved ρ) names values) := by
  refine (args.assign_moves _).bind fun given => ?_
  have h : (movedOptions ρ given).zip values = (given.zip values).map fun a => (a.1.map (Value.moved ρ), a.2) := by
    rw [List.zip_map_left]
    rfl
  rw [h]
  refine .mapM_plain fun (v, old) => ?_
  cases v with
  | none => exact .pure rfl
  | some v => exact (expectInt_moves v).bindPlain fun n => .ite (fun _ => .throw) fun _ => .pure rfl

theorem callMoment_moves (m : Moment) (whole : Bool) (name : String) (args : Arguments) :
    Moves ρ (Value.moved ρ) (callMoment m whole name args) (callMoment m whole name (args.moved ρ)) := by
  unfold callMoment
  dsimp only
  split
  · refine (args.assign_moves _).bind fun us => ?_
    rcases us with _ | ⟨_ | pattern, _ | _⟩
    case cons.some.nil => exact (expectText_moves pattern).bindPlain fun _ => .pure rfl
    all_goals exact .wrongType
  · split
    · refine (replaced_moves args _ _).bindPlain fun parts => ?_
      split
      · exact .ite (fun _ => .pure rfl) fun _ => .throw
      · exact .wrongType
    · refine (replaced_moves args _ _).bindPlain fun parts => ?_
      split
      · exact .ite (fun _ => .pure rfl) fun _ => .throw
      · exact .wrongType
  · refine .ite (fun _ => ?_) fun _ => ?_
    · exact (args.exactly_moves 0).discard.bindPlain fun _ => .pure rfl
    · refine (args.assign_moves _).bind fun us => ?_
      have written (sep : String) : Moves ρ (Value.moved ρ)
          (if sep.length == 1 then return .text (m.textWith sep) else wrongType)
          (if sep.length == 1 then return .text (m.textWith sep) else wrongType) :=
        .ite (fun _ => .pure rfl) fun _ => .wrongType
      rcases us with _ | ⟨sep, _ | ⟨_ | spec, _ | _⟩⟩
      case cons.cons.none.nil =>
        cases sep with
        | none => exact written "T"
        | some v => exact (expectText_moves v).bindPlain written
      all_goals exact .wrongType
  · refine (args.exactly_moves 0).discard.bindPlain fun _ => ?_
    split
    · exact .pure rfl
    · exact .pure rfl
    · exact .pure rfl
    · exact .pure rfl
    · exact .pure rfl
    · split
      · exact .pure rfl
      · exact .wrongType
    · refine .pure ?_
      split <;> rfl
    · exact .wrongType

end Run

/-! ## Attributes -/

/-- A field of a record that is moved. -/
theorem field?_moved (fields : List (String × Value)) (name : String) :
    ((movedFields ρ fields).find? fun f => f.1 == name).map Prod.snd =
      ((fields.find? fun f => f.1 == name).map Prod.snd).map (Value.moved ρ) := by
  rw [find?_movedFields, Option.map_map, Option.map_map]
  rfl

theorem Legend.attribute?_moved (place : Nat) (l : Legend) (name : String) :
    (l.moved ρ).attribute? (ρ.legends place) name = (l.attribute? place name).map (Value.moved ρ) := by
  unfold Legend.attribute?
  simp only [apply_ite (Option.map (Value.moved ρ)), ← field?_moved]
  cases h : l.echo <;> simp [Legend.moved, h, Value.moved]

theorem Metadata.attribute?_moved (place : Nat) (m : Metadata) (name : String) :
    (m.moved ρ).attribute? (ρ.metadata place) name = (m.attribute? place name).map (Value.moved ρ) := by
  unfold Metadata.attribute?
  simp only [apply_ite (Option.map (Value.moved ρ)), ← field?_moved]
  cases h : m.ignore <;> simp [Metadata.moved, h, Value.moved]

/-- Values without places that may be missing. -/
theorem map_moved_of_in_nowhere {o : Option Value} (h : ∀ v ∈ o, v.In .nowhere) : o.map (Value.moved ρ) = o := by
  cases o with
  | none => rfl
  | some v => exact congrArg some (v.moved_of_in_nowhere ρ (h v rfl))

theorem typeAttribute?_moved (type name : String) :
    (typeAttribute? type name).map (Value.moved ρ) = typeAttribute? type name :=
  map_moved_of_in_nowhere typeAttribute?_in

namespace Run

/-- A method of a value, or a field that holds no places. -/
theorem among_moves (methods : List String) (name : String) (v : Value) (field : Option Value)
    (h : ∀ w ∈ field, w.In .nowhere) : Moves ρ (Option.map (Value.moved ρ))
      (pure (if methods.contains name then some (.method v name) else field))
      (pure (if methods.contains name then some (.method (v.moved ρ) name) else field)) := by
  refine .pure ?_
  split
  · rfl
  · exact (map_moved_of_in_nowhere h).symm

theorem ownAttribute?_moves (v : Value) (name : String) :
    Moves ρ (Option.map (Value.moved ρ)) (ownAttribute? v name) (ownAttribute? (v.moved ρ) name) := by
  have plain (methods : List String) := among_moves (ρ := ρ) methods name v none nofun
  -- the fields of a number, and the methods of its type
  have number (methods names types : List String) (type : String) (field : String → Value)
      (hf : ∀ f, (field f).In .nowhere) := among_moves (ρ := ρ) methods name v
        ((if names.contains name then some (field name) else none).orElse fun _ =>
          if types.contains name then some (.classMethod type name) else none) (by
      intro w hw
      split at hw
      · cases hw; exact hf name
      · rw [Option.orElse_none] at hw
        split at hw
        · cases hw; exact Value.in_classMethod
        · cases hw)
  cases v
  case text t =>
    refine .pure ?_
    dsimp only
    split
    · rfl
    · split <;> rfl
  case bytes bs => exact plain _
  case bool b => exact number _ _ _ _ _ fun _ => intField_in
  case int n => exact number _ _ _ _ _ fun _ => intField_in
  case float x => exact number _ _ _ _ _ fun _ => floatField_in
  case complex re im =>
    refine among_moves _ name (.complex re im) _ fun w hw => ?_
    dsimp only at hw
    split at hw
    · cases hw; exact Value.in_float
    · cases hw; exact Value.in_float
    · cases hw
  case date d => exact among_moves _ name (.date d) _ dateField?_in
  case moment m => exact among_moves _ name (.moment m) _ momentField?_in
  case tuple vs => exact plain _
  case list p => exact plain _
  case set p => exact plain _
  case range a b c =>
    refine among_moves _ name (.range a b c) _ fun w hw => ?_
    dsimp only at hw
    split at hw
    · cases hw; exact Value.in_int
    · cases hw; exact Value.in_int
    · cases hw; exact Value.in_int
    · cases hw
  case view kind p => exact plain _
  case legend p =>
    refine store_bind_moves fun s s' hs => ?_
    dsimp only
    rw [hs.legend, Legend.attribute?_moved]
    exact .ite (fun _ => (newRecord_moves _).map fun _ => rfl) fun _ => .pure rfl
  case metadata p =>
    refine store_bind_moves fun s s' hs => ?_
    dsimp only
    rw [hs.metadata, Metadata.attribute?_moved]
    exact .ite (fun _ => (newRecord_moves _).map fun _ => rfl) fun _ => .pure rfl
  case builtin b =>
    refine .pure ?_
    split
    · exact (typeAttribute?_moved _ _).symm
    · rfl
  case foreignType t => exact .pure (typeAttribute?_moved _ _).symm
  all_goals exact .pure rfl

theorem readAttribute_moves (v : Value) (name : String) :
    Moves ρ (Value.moved ρ) (readAttribute v name) (readAttribute (v.moved ρ) name) := by
  refine (record_moves _ _).bindPlain fun _ => ?_
  have own : Moves ρ (Value.moved ρ) (do return (← ownAttribute? v name).getD .none)
      (do return (← ownAttribute? (v.moved ρ) name).getD .none) :=
    (ownAttribute?_moves v name).bind fun w => .pure (by cases w <;> rfl)
  cases v
  case none => exact .throw
  case dict p =>
    refine (dict_moves p).bind fun es => ?_
    have found := Entries.find?_moved ρ es (.text name)
    dsimp only [Value.moved] at found
    rw [found]
    cases es.find? (.text name) with
    | some w => exact .pure rfl
    | none =>
      refine .pure ?_
      split <;> rfl
  all_goals exact own

end Run

end NestedSite
