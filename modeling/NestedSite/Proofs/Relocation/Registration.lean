import NestedSite.Proofs.Relocation.Engine

/-!
# Registering with an engine that is moved

The values of a document are made alike wherever the free places are (`Yaml.load_moves`), and so a source is registered
alike with an engine and with the engine moved (`Engine.register_moves`). An engine that is built of the same sources in
another world is therefore the same up to its places (`Engine.registered_anywhere`).
-/

namespace NestedSite

variable {ρ : Relocation}

/-- Values that stand for keys, moved. -/
def movedMade (ρ : Relocation) (made : List (Nat × Value)) : List (Nat × Value) := made.map fun m => (m.1, m.2.moved ρ)

namespace Yaml

def Making.moved (ρ : Relocation) (m : Making) : Making :=
  { m with made := movedMade ρ m.made, pending := movedMade ρ m.pending }

/-- Two computations go together if they do so for the values made so far and for these moved. -/
abbrev Make.Moves {α β : Type} (ρ : Relocation) (f : α → β) (m : Make α) (m' : Make β) : Prop :=
  MovesWith ρ (Making.moved ρ) f m m'

/-- The computation goes together with itself, and its result holds no places. -/
abbrev Make.Stays {α : Type} (ρ : Relocation) (m : Make α) : Prop := Make.Moves ρ id m m

namespace Make

theorem node_moves (n : Nat) : Make.Stays ρ (node n) := .get_bind fun _ => .pure rfl

theorem setNode_moves (n : Nat) (node : Node) : Make.Stays ρ (setNode n node) :=
  .modify fun _ => rfl

theorem entries_moves (n : Nat) : Make.Stays ρ (entries n) := by
  refine (node_moves n).bindPlain fun node => ?_
  cases node.content <;> exact .pure rfl

theorem scalarTextGo_moves : ∀ fuel n : Nat, Make.Stays ρ (scalarText.go fuel n)
  | 0, _ => .throw
  | fuel + 1, n => by
    refine (node_moves n).bindPlain fun node => ?_
    cases node.content with
    | scalar t => exact .pure rfl
    | sequence items => exact .throw
    | mapping es =>
      refine MovesWith.bindPlain (.mapM_plain (fun e => ?_) es) fun tags => ?_
      · exact (node_moves e.1).bindPlain fun _ => .pure rfl
      · dsimp only
        cases tags.find? fun t => t.1 == .default with
        | none => exact .throw
        | some t => exact scalarTextGo_moves fuel t.2

theorem scalarText_moves (n : Nat) : Make.Stays ρ (scalarText n) :=
  .get_bind fun _ => scalarTextGo_moves _ n

theorem gather_moves {flatten : Nat → Make Unit} (hflatten : ∀ n, Make.Stays ρ (flatten n)) (n : Nat) :
    ∀ (fuel i : Nat) (merged : List (Nat × Nat)), Make.Stays ρ (gather flatten n fuel i merged)
  | 0, _, _ => .pure rfl
  | fuel + 1, i, merged => by
    have next := gather_moves hflatten n fuel
    refine (entries_moves n).bindPlain fun es => ?_
    cases es[i]? with
    | none => exact .pure rfl
    | some e =>
      obtain ⟨k, v⟩ := e
      refine (node_moves k).bindPlain fun key => ?_
      split
      · refine (node_moves n).bindPlain fun node => (setNode_moves n _).seq ((node_moves v).bindPlain fun target => ?_)
        split
        · exact (hflatten v).seq ((entries_moves v).bindPlain fun own => next i _)
        · rename_i items _
          refine MovesWith.bindPlain (.mapM_plain (fun item => ?_) items) fun parts => next i _
          refine (node_moves item).bindPlain fun node => ?_
          split
          · exact (hflatten item).seq (entries_moves item)
          · exact .throw
        · exact .throw
      · exact (setNode_moves k _).seq (next (i + 1) merged)
      · exact next (i + 1) merged

theorem flatten_moves : ∀ fuel n : Nat, Make.Stays ρ (flatten fuel n)
  | 0, _ => .throw
  | fuel + 1, n => by
    refine (entries_moves n).bindPlain fun es => ?_
    refine (gather_moves (flatten_moves fuel) n _ 0 []).bindPlain fun merged => .ite ?_ (.pure rfl)
    exact (node_moves n).bindPlain fun node => (entries_moves n).bindPlain fun own => setNode_moves n _

/-- Days and moments have no places. -/
theorem timestamp_moved (t : String) : (Scalar.timestamp t).map (Value.moved ρ) = Scalar.timestamp t := by
  have moment (m : Moment) (c : Bool) :
      (if c then pure (.moment m) else throw .badValue : Except Fault Value).map (Value.moved ρ) =
        if c then pure (.moment m) else throw .badValue := by
    cases c <;> rfl
  unfold Scalar.timestamp
  cases Scalar.groups? Scalar.timestampParts t with
  | none => rfl
  | some group =>
    dsimp only
    split
    · split <;> rfl
    · exact moment _ _

theorem begin_moves (n : Nat) : Make.Moves ρ (Value.moved ρ) (begin n) (begin n) := by
  unfold begin
  extract_lets scalar collection
  have hscalar (f : String → Except Fault Value) (hf : ∀ t, (f t).map (Value.moved ρ) = f t) :
      Make.Moves ρ (Value.moved ρ) (scalar f) (scalar f) :=
    (scalarText_moves n).bindPlain fun t => .lift (Run.read_moves fun _ _ _ => (hf t).symm)
  have hcollection (v : Value) : Make.Moves ρ (Value.moved ρ) (collection v) (collection (v.moved ρ)) := by
    refine MovesWith.seq (.modify fun m => ?_) (.pure rfl)
    simp only [Making.moved, movedMade, List.map_append]
    rfl
  clear_value scalar collection
  refine (node_moves n).bindPlain fun node => ?_
  split
  · exact hscalar _ fun _ => rfl
  · refine hscalar _ fun t => ?_
    cases Scalar.bool t <;> rfl
  · refine hscalar _ fun t => ?_
    cases Scalar.int t <;> rfl
  · refine hscalar _ fun t => ?_
    cases Scalar.float t <;> rfl
  · refine hscalar _ fun t => ?_
    cases Scalar.binary t <;> rfl
  · exact hscalar _ fun _ => rfl
  · refine (scalarText_moves n).bindPlain fun t => (node_moves n).bindPlain fun node => ?_
    cases node.content with
    | scalar _ => exact .lift (Run.read_moves fun _ _ _ => (timestamp_moved t).symm)
    | sequence _ => exact .throw
    | mapping _ => exact .throw
  · exact (MovesWith.lift (Run.newList_moves List.map_nil.symm)).bind hcollection
  · exact (MovesWith.lift (Run.newList_moves List.map_nil.symm)).bind hcollection
  · exact (MovesWith.lift (Run.newList_moves List.map_nil.symm)).bind hcollection
  · exact (MovesWith.lift (Run.newDict_moves (Entries.moved_nil ρ).symm)).bind hcollection
  · exact (MovesWith.lift (Run.newSet_moves List.map_nil.symm)).bind hcollection
  · exact .throw
  · exact .throw
  · exact .throw

theorem value_moves (n : Nat) : Make.Moves ρ (Value.moved ρ) (value n) (value n) := by
  refine .get_bind fun m => ?_
  have found : (movedMade ρ m.made).find? (fun a => a.1 == n) =
      (m.made.find? fun a => a.1 == n).map fun a => (a.1, a.2.moved ρ) := by
    simp only [movedMade, List.find?_map, Function.comp_def]
  dsimp only [Making.moved]
  rw [found]
  cases m.made.find? fun a => a.1 == n with
  | some a => exact .pure rfl
  | none =>
    refine (begin_moves n).bind fun v => ?_
    have add : Make.Moves ρ id (modify fun m => { m with made := (n, v) :: m.made })
        (modify fun m => { m with made := (n, v.moved ρ) :: m.made }) := .modify fun _ => rfl
    exact add.seq (.pure rfl)

theorem visitParts_moves : ∀ fuel n : Nat, Make.Stays ρ (visitParts fuel n)
  | 0, _ => .throw
  | fuel + 1, n => by
    unfold visitParts
    extract_lets visit
    have hvisit (m : Nat) : Make.Stays ρ (visit m) := by
      refine .get_bind fun g => ?_
      have found : (movedMade ρ g.made).any (fun a => a.1 == m) = g.made.any fun a => a.1 == m := by
        simp only [movedMade, List.any_map, Function.comp_def]
      simp only [Making.moved, found]
      refine .ite ?_ (.pure rfl)
      exact (begin_moves m).discard.seq (visitParts_moves fuel m)
    clear_value visit
    refine (node_moves n).bindPlain fun node => ?_
    split
    case h_1 => exact .forM hvisit _
    case h_2 | h_3 =>
      refine .forM (fun item => (entries_moves item).bindPlain fun es => ?_) _
      rcases es with _ | ⟨⟨k, v⟩, _ | _⟩
      · exact .throw
      · exact (hvisit k).seq (hvisit v)
      · exact .throw
    case h_4 | h_5 =>
      refine .get_bind fun m => (flatten_moves _ n).seq ((entries_moves n).bindPlain fun es => .forM (fun e => ?_) es)
      refine (hvisit e.1).seq ((node_moves e.1).bindPlain fun key => .ite ?_ (hvisit e.2))
      exact (MovesWith.throw (f := id)).seq (hvisit e.2)
    case h_6 => exact .ite .throw (.pure rfl)

theorem mapping_moves (n : Nat) : Make.Moves ρ (Entries.moved ρ) (mapping n) (mapping n) := by
  refine (node_moves n).bindPlain fun node => ?_
  split
  · refine .get_bind fun m => (flatten_moves _ n).seq ((entries_moves n).bindPlain fun es => ?_)
    refine MovesWith.foldlM (f := Entries.moved ρ) (fun all e => ?_) es []
    refine (value_moves e.1).bind fun key => ?_
    dsimp only
    rw [Value.isKey_moved]
    have rest : Make.Moves ρ (Entries.moved ρ) (do return all.insert key (← value e.2))
        (do return (all.moved ρ).insert (key.moved ρ) (← value e.2)) :=
      (value_moves e.2).bind fun v => .pure (Entries.insert_moved ρ all key v)
    refine .ite (.get_bind fun m => (visitParts_moves _ e.1).seq ?_) rest
    exact (MovesWith.throw (f := id)).seq rest
  · exact .throw

theorem finish_moves (n : Nat) (v : Value) : Make.Moves ρ id (finish n v) (finish n (v.moved ρ)) := by
  refine (node_moves n).bindPlain fun node => ?_
  obtain ⟨tag, content⟩ := node
  cases v
  case list p =>
    cases tag
    case sequence =>
      cases content with
      | sequence items => exact (MovesWith.mapM value_moves items).bind fun vs => .lift (Run.setList_moves rfl p)
      | _ => exact .throw
    case orderedMapping | pairs =>
      cases content with
      | sequence items =>
        refine MovesWith.bind (.mapM (f := Value.moved ρ) (fun item => ?_) items) fun pairs =>
          .lift (Run.setList_moves rfl p)
        refine (entries_moves item).bindPlain fun es => ?_
        rcases es with _ | ⟨⟨k, v⟩, _ | _⟩
        · exact .throw
        · exact (value_moves k).bind fun k => (value_moves v).bind fun v => .pure rfl
        · exact .throw
      | _ => exact .throw
    all_goals exact .throw
  case dict p =>
    cases tag
    case mapping => exact (mapping_moves n).bind fun es => .lift (Run.setDict_moves rfl p)
    all_goals exact .throw
  case set p =>
    cases tag
    case set =>
      refine (mapping_moves n).bind fun es => .lift (Run.setSet_moves ?_ p)
      exact Entries.keys_moved ρ es
    all_goals exact .throw
  all_goals cases tag <;> exact .throw

theorem finishAll_moves (fuel : Nat) : Make.Stays ρ (finishAll fuel) := by
  induction fuel with
  | zero => exact .pure rfl
  | succ fuel ih =>
    refine .get_bind fun m => ?_
    dsimp only [Making.moved, movedMade]
    cases m.pending with
    | nil => exact .pure rfl
    | cons first pending =>
      have drop : Make.Moves ρ id (modify fun m => { m with pending })
          (modify fun m => { m with pending := movedMade ρ pending }) := .modify fun _ => rfl
      exact drop.seq ((finish_moves first.1 first.2).seq ih)

end Make

theorem load_moves (text : String) : Moves ρ (Value.moved ρ) (load text) (load text) := by
  unfold load
  split
  · exact .throw
  · exact .pure rfl
  · rename_i d _
    have make : Make.Moves ρ (Value.moved ρ)
        (do
          let root ← Make.value d.root
          Make.finishAll (d.nodes.size + 1)
          return root)
        (do
          let root ← Make.value d.root
          Make.finishAll (d.nodes.size + 1)
          return root) :=
      (Make.value_moves d.root).bind fun root => (Make.finishAll_moves _).seq (.pure rfl)
    exact (make { nodes := d.nodes }).map fun _ => rfl

end Yaml

namespace Engine

theorem readMetadata_moves (directory text : String) :
    Moves ρ ρ.metadata (readMetadata directory text) (readMetadata directory text) := by
  refine ((Yaml.load_moves text).tryCatch fun f => ?_).bind fun loaded => ?_
  · split <;> exact .throw
  extract_lets next
  have hnext (fields : Value) : Moves ρ ρ.metadata (next fields) (next (fields.moved ρ)) := by
    refine (Run.metadataOf?_moves fields).bind fun found => ?_
    cases found with
    | error issues => exact .throw
    | ok v =>
      cases v
      case metadata p => exact .pure rfl
      all_goals exact .throw
  cases loaded
  case none => exact (Run.newDict_moves (Entries.moved_nil ρ).symm).bind hnext
  case dict p => exact hnext (.dict p)
  all_goals exact .throw_bind

theorem putTemplate_moved (e : Engine) (path : String) (t : Template) :
    (e.moved ρ).putTemplate path t = (e.putTemplate path t).moved ρ := by
  unfold putTemplate
  rw [apply_ite (Engine.moved ρ)]
  rfl

theorem registerMetadata_moves (e : Engine) (directory text : String) :
    Moves ρ (Engine.moved ρ) (e.registerMetadata directory text) ((e.moved ρ).registerMetadata directory text) := by
  refine (readMetadata_moves directory text).bind fun p => ?_
  have known : ((e.moved ρ).directories.find? directory).isSome = (e.directories.find? directory).isSome := by
    rw [moved, Directories.find?_moved, Option.isSome_map]
  rw [known]
  refine .guard fun _ => (Run.note_moves _ _).seq (.pure ?_)
  simp only [moved, Directories.moved, List.map_append]
  rfl

theorem registerTemplate_moves (e : Engine) (path text : String) :
    Moves ρ (Engine.moved ρ) (e.registerTemplate path text) ((e.moved ρ).registerTemplate path text) := by
  unfold registerTemplate
  cases Template.compile text with
  | error f => exact .throw
  | ok t => exact (Run.note_moves _ _).seq (.pure (putTemplate_moved e path t))

/-- A source is registered with an engine that is moved as it is with the engine. -/
theorem register_moves (e : Engine) (text path : Value) :
    Moves ρ (Engine.moved ρ) (e.register text path) ((e.moved ρ).register (text.moved ρ) (path.moved ρ)) := by
  refine (Run.textArgument_moves "source" text).bindPlain fun text => ?_
  refine (Run.nonemptyArgument_moves "path" path).bindPlain fun path => ?_
  exact .ite (fun _ => registerMetadata_moves e _ text) fun _ => registerTemplate_moves e _ text

/-- Registers sources, each under its path, one after the other. -/
def registerAll (e : Engine) (sources : List (String × String)) : Run Engine :=
  sources.foldlM (fun (e : Engine) s => e.register (.text s.1) (.text s.2)) e

theorem registerAll_moves (e : Engine) (sources : List (String × String)) :
    Moves ρ (Engine.moved ρ) (e.registerAll sources) ((e.moved ρ).registerAll sources) := by
  unfold registerAll
  induction sources generalizing e with
  | nil => exact .pure rfl
  | cons s sources ih =>
    rw [List.foldlM_cons, List.foldlM_cons]
    exact (register_moves e (.text s.1) (.text s.2)).bind ih

end Engine

/-! ## Fresh engines -/

/-- The places of a new store, behind those of `s`. -/
def Relocation.behind (s : Store) : Relocation where
  lists p := s.lists.size + p
  dicts p := s.dicts.size + p
  sets p := s.sets.size + p
  cursors p := s.cursors.size + p
  legends p := s.legends.size + p
  metadata p := s.metadata.size + p
  lists_inj := Nat.add_left_cancel_iff
  dicts_inj := Nat.add_left_cancel_iff
  sets_inj := Nat.add_left_cancel_iff
  cursors_inj := Nat.add_left_cancel_iff
  legends_inj := Nat.add_left_cancel_iff
  metadata_inj := Nat.add_left_cancel_iff

/-- The empty store fits every store. -/
theorem Relocation.behind_fits (s : Store) : (behind s).Fits {} s where
  list p := by simp [behind, Store.list]
  dict p := by simp [behind, Store.dict, Entries.moved]
  set p := by simp [behind, Store.set]
  cursor p := by simp [behind, Store.cursor, Cursor.moved]
  legend p := by
    have hnone : s.legends[s.legends.size + p]? = none := Array.getElem?_eq_none (Nat.le_add_right _ _)
    have hlegend : s.legend (s.legends.size + p) = default := by rw [Store.legend, hnone, Option.getD_none]
    exact hlegend
  metadata p := by simp [behind, Store.metadataAt, Metadata.moved, movedFields]
  freeLists n := by simp [behind]
  freeDicts n := by simp [behind]
  freeSets n := by simp [behind]
  freeCursors n := by simp [behind]
  freeLegends n := by simp [behind]
  freeMetadata n := by simp [behind]

namespace Engine

/-- Wherever sources are registered with an engine that holds nothing, the engine is the one that is registered in the
empty world, moved. -/
theorem registered_anywhere {e : Engine} (himports : e.imports = []) (hdirectories : e.directories = [])
    (sources : List (String × String)) (w : World) :
    (e.registerAll sources).outcome w =
        ((e.registerAll sources).outcome {}).map (Engine.moved (.behind w.store)) ∧
      (Relocation.behind w.store).Fits ((e.registerAll sources).after {}).store ((e.registerAll sources).after w).store := by
  have hmoved : e.moved (.behind w.store) = e := by
    obtain ⟨workDir, root, imports, rename, templates, directories⟩ := e
    obtain rfl : imports = [] := himports
    obtain rfl : directories = [] := hdirectories
    rfl
  have hmoves := registerAll_moves e sources {} w (Relocation.behind_fits w.store)
  rw [hmoved] at hmoves
  exact ⟨hmoves.1, hmoves.2.1⟩

end Engine

end NestedSite
