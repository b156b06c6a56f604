import NestedSite.Proofs.Relocation.Record
import NestedSite.Site.Echo

/-!
# Legends and metadata read from what is moved

Legends and metadata that are read from mappings, the legends of a group that is echoed and the legend of a file are
found alike where the mappings are moved (`Run.legendOf?_moves`, `Run.metadataOf?_moves`, `Run.branches_moves`,
`Directories.legendAt?_moves`).
-/

namespace NestedSite

variable {ρ : Relocation}

namespace Run

/-! ## Arguments -/

theorem textArgument_moves (label : String) (v : Value) :
    Moves ρ id (textArgument label v) (textArgument label (v.moved ρ)) := by
  cases v
  case text t => exact .pure rfl
  all_goals exact typeFault_moves (fun t => .argument (.notText label t)) _

theorem nonemptyArgument_moves (label : String) (v : Value) :
    Moves ρ id (nonemptyArgument label v) (nonemptyArgument label (v.moved ρ)) :=
  (textArgument_moves label v).bindPlain fun _ => .ite (fun _ => .throw) fun _ => .pure rfl

theorem mappingArgument_moves (label : String) (v : Value) :
    Moves ρ ρ.dicts (mappingArgument label v) (mappingArgument label (v.moved ρ)) := by
  cases v
  case dict p => exact .pure rfl
  all_goals exact typeFault_moves (fun t => .argument (.notMapping label t)) _

end Run

/-! ## Legends -/

/-- What is checked, moved. -/
abbrev Checked.moved (ρ : Relocation) : Checked Value → Checked Value := Except.map (Value.moved ρ)

theorem fieldOf?_moved (fields : List (String × Value)) (name : String) :
    fieldOf? (movedFields ρ fields) name = (fieldOf? fields name).map (Value.moved ρ) := field?_moved fields name

/-- Fields that are kept for their names. -/
theorem filter_movedFields (keep : String → Bool) (fields : List (String × Value)) :
    (movedFields ρ fields).filter (fun f => keep f.1) = movedFields ρ (fields.filter fun f => keep f.1) := by
  simp only [movedFields, List.filter_map, Function.comp_def]

section Legends

variable {s s' : Store} (hs : ρ.Fits s s')

include hs

theorem Store.keyName_moved (k : Value) : s'.keyName (k.moved ρ) = s.keyName k := by
  have shown := Store.show_moved hs k
  cases k
  case text t => rfl
  case bool b => rfl
  all_goals
    unfold Store.keyName
    dsimp only [Value.moved] at shown ⊢
    rw [shown]

theorem splitKeys_moved (es : Entries) :
    splitKeys s' (es.moved ρ) = ((splitKeys s es).map (movedFields ρ) id) := by
  induction es with
  | nil => rfl
  | cons e es ih =>
    obtain ⟨k, v⟩ := e
    have name := Store.keyName_moved hs k
    unfold splitKeys Entries.moved at ih ⊢
    rw [List.map_cons, List.foldr_cons, ih]
    cases k
    case text t => rfl
    all_goals
      dsimp only [Value.moved] at name ⊢
      rw [name]
      rfl

omit hs in
theorem Checked.text_moved (place : List String) (v : Value) :
    Checked.text place (v.moved ρ) = Checked.text place v := by
  cases v <;> rfl

omit hs in
theorem Checked.textOrNone_moved (place : List String) (o : Option Value) :
    Checked.textOrNone place (o.map (Value.moved ρ)) = Checked.textOrNone place o := by
  rcases o with _ | v
  · rfl
  · cases v <;> rfl

theorem Legend.ofEntries_moved (es : Entries) :
    Legend.ofEntries s' (es.moved ρ) = (Legend.ofEntries s es).map (Legend.moved ρ) := by
  unfold Legend.ofEntries
  rw [splitKeys_moved hs]
  obtain ⟨fields, badKeys⟩ := splitKeys s es
  have extras := filter_movedFields (ρ := ρ) (fun k => k != "name" && k != "echo") fields
  dsimp only [Prod.map_apply, id]
  rw [fieldOf?_moved, fieldOf?_moved, Checked.textOrNone_moved, Option.isSome_map, extras]
  cases fieldOf? fields "name" with
  | none => rfl
  | some v =>
    dsimp only [Option.map_some]
    rw [Checked.text_moved]
    generalize (do
      let t ← Checked.text ["name"] v
      if t.isEmpty then Checked.defect ["name"] .emptyText else pure t : Checked String) = name
    generalize Checked.textOrNone ["echo"] (fieldOf? fields "echo") = echo
    cases name <;> cases echo <;> cases badKeys <;> rfl

end Legends

namespace Run

theorem legendOf?_moves (v : Value) : Moves ρ (Checked.moved ρ) (legendOf? v) (legendOf? (v.moved ρ)) := by
  cases v
  case legend p => exact .pure rfl
  case dict p =>
    refine store_bind_moves fun s s' hs => (dict_moves p).bind fun es => ?_
    rw [Legend.ofEntries_moved hs]
    cases Legend.ofEntries s es with
    | error issues => exact .pure rfl
    | ok l => exact (newLegend_moves rfl).bind fun _ => .pure rfl
  all_goals exact .pure rfl

/-! ## Metadata -/

theorem sequenceOf?_moves (v : Value) :
    Moves ρ (Option.map (List.map (Value.moved ρ))) (sequenceOf? v) (sequenceOf? (v.moved ρ)) := by
  have all (v : Value) : Moves ρ (Option.map (List.map (Value.moved ρ))) (some <$> items v)
      (some <$> items (v.moved ρ)) := (items_moves v).map fun _ => rfl
  cases v
  case list => exact all _
  case tuple => exact all _
  case set => exact all _
  case range => exact all _
  case view => exact all _
  case cursor => exact all _
  case legend => exact all _
  case metadata => exact all _
  all_goals exact .pure rfl

theorem legendsOf_moves (place : List String) : ∀ (n : Nat) (vs : List Value),
    Moves ρ (Prod.map (List.map (Value.moved ρ)) id) (legendsOf place n vs)
      (legendsOf place n (vs.map (Value.moved ρ)))
  | _, [] => .pure rfl
  | n, v :: vs => by
    refine (legendOf?_moves v).bind fun first => (legendsOf_moves place (n + 1) vs).bind fun rest => ?_
    obtain ⟨rest, issues⟩ := rest
    cases first with
    | ok l => exact .pure rfl
    | error own => exact .pure rfl

theorem filesOf_moves (field : Option Value) :
    Moves ρ (Except.map (List.map (Value.moved ρ))) (filesOf field) (filesOf (field.map (Value.moved ρ))) := by
  cases field with
  | none => exact .pure rfl
  | some v =>
    refine (sequenceOf?_moves v).bind fun vs => ?_
    cases vs with
    | none => exact .pure rfl
    | some vs =>
      refine (legendsOf_moves ["files"] 0 vs).bind fun found => ?_
      obtain ⟨legends, issues⟩ := found
      cases issues <;> exact .pure rfl

theorem ignoreOf_moves (field : Option Value) :
    Moves ρ id (ignoreOf field) (ignoreOf (field.map (Value.moved ρ))) := by
  unfold ignoreOf
  rw [Checked.textOrNone_moved]
  split
  · refine .ite (fun _ => .pure rfl) fun _ => (pure_moves _).bindPlain fun t => ?_
    cases t <;> exact .pure rfl
  · exact .pure rfl

theorem metadataOf?_moves (v : Value) : Moves ρ (Checked.moved ρ) (metadataOf? v) (metadataOf? (v.moved ρ)) := by
  cases v
  case metadata p => exact .pure rfl
  case dict p =>
    refine store_bind_moves fun s s' hs => (dict_moves p).bind fun es => ?_
    rw [splitKeys_moved hs]
    obtain ⟨fields, badKeys⟩ := splitKeys s es
    have extras := filter_movedFields (ρ := ρ) (fun k => k != "ignore" && k != "files") fields
    dsimp only [Prod.map_apply, id]
    rw [fieldOf?_moved, fieldOf?_moved]
    refine (ignoreOf_moves _).bindPlain fun ignore => (filesOf_moves _).bind fun files => ?_
    cases ignore with
    | error issues => cases files <;> exact .pure rfl
    | ok ignore =>
      cases files with
      | error issues => exact .pure rfl
      | ok legends =>
        cases badKeys with
        | cons => exact .pure rfl
        | nil =>
          refine (newList_moves rfl).bind fun v => ?_
          cases v
          case list place => exact (newMetadata_moves (by rw [extras]; rfl)).bind fun _ => .pure rfl
          all_goals exact .pure rfl
  all_goals exact .pure rfl

/-! ## Echoes -/

theorem mergeLegend_moves (context : Nat) (l : Legend) :
    Moves ρ id (mergeLegend context l) (mergeLegend (ρ.dicts context) (l.moved ρ)) := by
  refine (legendFields_moves l).bind fun v => ?_
  cases v
  case dict p =>
    refine (dict_moves context).bind fun es => (dict_moves p).bind fun fields => ?_
    exact setDict_moves (Entries.merge_moved ρ es fields) context
  all_goals exact .pure rfl

theorem branch_moves (context : Nat) (l : Legend) :
    Moves ρ ρ.dicts (branch context l) (branch (ρ.dicts context) (l.moved ρ)) := by
  refine (dict_moves context).bind fun es => (newDict_moves rfl).bind fun v => ?_
  cases v
  case dict p => exact (mergeLegend_moves p l).seq (.pure rfl)
  all_goals exact .wrongType

theorem echoGroup_moves (metadata : Option Nat) (l : Legend) :
    Moves ρ (Prod.map id (List.map (Value.moved ρ))) (echoGroup metadata l)
      (echoGroup (metadata.map ρ.metadata) (l.moved ρ)) := by
  unfold echoGroup
  have echo : (l.moved ρ).echo = l.echo := rfl
  rw [echo]
  extract_lets next next'
  have hnext (group : String) : Moves ρ (Prod.map id (List.map (Value.moved ρ))) (next group) (next' group) := by
    unfold next next'
    cases metadata with
    | none => exact .throw
    | some p =>
      refine store_bind_moves fun s s' hs => ?_
      rw [hs.metadata]
      refine (metadataGroup_moves (s.metadataAt p) (.text group)).bind fun v => ?_
      cases v
      case none => exact .throw
      case list q =>
        refine (list_moves q).bind fun vs => ?_
        rw [List.isEmpty_map]
        exact .ite (fun _ => .throw) fun _ => .pure rfl
      all_goals exact typeFault_moves (fun t => .echo (.notList group t)) _
  cases l.echo with
  | none => exact .throw_bind
  | some group => exact .ite (fun _ => .throw_bind) fun _ => hnext group

theorem echoLegend_moves (group : String) (index : Nat) (element : Value) :
    Moves ρ (Legend.moved ρ) (echoLegend group index element) (echoLegend group index (element.moved ρ)) := by
  cases element
  case legend p => exact store_bind_moves fun s s' hs => .pure (hs.legend p)
  case dict p =>
    refine (legendOf?_moves (.dict p)).bind fun l => ?_
    cases l with
    | error issues => exact .throw
    | ok v =>
      cases v
      case legend p => exact store_bind_moves fun s s' hs => .pure (hs.legend p)
      all_goals exact .throw
  all_goals exact .throw

theorem echoLegends_moves (group : String) : ∀ (n : Nat) (vs : List Value),
    Moves ρ (List.map (Legend.moved ρ)) (echoLegends group n vs) (echoLegends group n (vs.map (Value.moved ρ)))
  | _, [] => .pure rfl
  | n, v :: vs =>
    (echoLegend_moves group n v).bind fun _ => (echoLegends_moves group (n + 1) vs).bind fun _ => .pure rfl

theorem branches_moves (context : Nat) (metadata : Option Nat) (l : Legend) :
    Moves ρ (List.map ρ.dicts) (branches context metadata l)
      (branches (ρ.dicts context) (metadata.map ρ.metadata) (l.moved ρ)) := by
  refine (echoGroup_moves metadata l).bind fun found => ?_
  exact (echoLegends_moves found.1 0 found.2).bind fun ls => .mapM (branch_moves context)

end Run

/-! ## Directories -/

namespace Directories

def moved (ρ : Relocation) (ds : Directories) : Directories := ds.map fun d => (d.1, ρ.metadata d.2)

theorem find?_moved (ds : Directories) (directory : String) :
    (ds.moved ρ).find? directory = (ds.find? directory).map ρ.metadata := by
  unfold find? moved
  rw [List.find?_map, Option.map_map, Option.map_map]
  rfl

theorem metadataAt?_moved (ds : Directories) (path : String) :
    (ds.moved ρ).metadataAt? path = (ds.metadataAt? path).map ρ.metadata := find?_moved ds _

theorem legendAt?_moves (ds : Directories) (path : String) :
    Moves ρ (Option.map ρ.legends) (ds.legendAt? path) ((ds.moved ρ).legendAt? path) := by
  unfold legendAt?
  rw [metadataAt?_moved]
  cases ds.metadataAt? path with
  | none => exact .pure rfl
  | some p =>
    refine Run.store_bind_moves fun s s' hs => ?_
    rw [hs.metadata]
    refine (Run.legendNamed_moves (s.metadataAt p) (.text (Path.name path))).bind fun v => ?_
    cases v <;> exact .pure rfl

theorem ignores_moves (ds : Directories) (path : String) :
    Moves ρ id (ds.ignores path) ((ds.moved ρ).ignores path) := by
  unfold ignores
  rw [metadataAt?_moved]
  cases ds.metadataAt? path with
  | none => exact .pure rfl
  | some p =>
    refine Run.store_bind_moves fun s s' hs => ?_
    rw [hs.metadata]
    dsimp only [Metadata.moved]
    cases (s.metadataAt p).ignore with
    | none => exact .pure rfl
    | some t =>
      refine .ite (fun _ => .pure rfl) fun _ => ?_
      cases Pattern.parse t <;> exact .pure rfl

end Directories

end NestedSite
