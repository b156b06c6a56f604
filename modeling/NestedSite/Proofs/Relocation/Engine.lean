import NestedSite.Proofs.Relocation.Site
import NestedSite.Proofs.Relocation.Template
import NestedSite.Proofs.Site.Engine

/-!
# Engines that are moved

An engine whose imports and metadata are moved renders data that is moved as the engine renders the data: levels and
pages put out the same (`Engine.renderTo_moves`, `Engine.renderThrough_moves`), and a page has the same documents
(`Engine.renderTemplate_moves`).
-/

namespace NestedSite

variable {ρ : Relocation}

namespace Engine

def moved (ρ : Relocation) (e : Engine) : Engine :=
  { e with imports := movedFields ρ e.imports, directories := e.directories.moved ρ }

/-- The helpers have no places. -/
theorem scope_moved (e : Engine) : (e.moved ρ).scope = movedFields ρ e.scope := by
  have h : (Helper.all.map fun h => (h.name, Value.helper h)) ++ movedFields ρ e.imports =
      movedFields ρ ((Helper.all.map fun h => (h.name, Value.helper h)) ++ e.imports) := by
    rw [movedFields_append]
    rfl
  unfold scope
  rw [← Template.baseScope_moved, ← h]
  rfl

theorem metadataAt?_moved (e : Engine) (path : String) :
    (e.moved ρ).directories.metadataAt? path = (e.directories.metadataAt? path).map ρ.metadata :=
  Directories.metadataAt?_moved e.directories path

/-! ## Contexts -/

theorem setKey_moves (context : Nat) (key : String) (v : Value) :
    Moves ρ id (setKey context key v) (setKey (ρ.dicts context) key (v.moved ρ)) :=
  (Run.dict_moves context).bind fun es => Run.setDict_moves (Entries.insert_moved ρ es (.text key) v) context

/-- A key of a context that is moved. -/
theorem findKey_moved (es : Entries) (key : String) :
    (es.moved ρ).find? (.text key) = (es.find? (.text key)).map (Value.moved ρ) := Entries.find?_moved ρ es (.text key)

theorem ensureText_moves (context : Nat) (key : String) :
    Moves ρ id (ensureText context key) (ensureText (ρ.dicts context) key) := by
  refine (Run.dict_moves context).bind fun es => ?_
  rw [findKey_moved]
  rcases es.find? (.text key) with _ | v
  · exact setKey_moves context key (.text "")
  · cases v
    case text t => exact .pure rfl
    all_goals exact setKey_moves context key (.text "")

theorem contextOf_moves (v : Value) : Moves ρ ρ.dicts (contextOf v) (contextOf (v.moved ρ)) := by
  have new : Moves ρ ρ.dicts (contextOf .none) (contextOf .none) := by
    refine (Run.newDict_moves (Entries.moved_nil ρ).symm).bind fun v => ?_
    cases v
    case dict p => exact .pure rfl
    all_goals exact .wrongType
  cases v
  case dict p => exact .pure rfl
  all_goals exact new

theorem copiedContext_moves (v : Value) : Moves ρ ρ.dicts (copiedContext v) (copiedContext (v.moved ρ)) := by
  have new := contextOf_moves (ρ := ρ) .none
  cases v
  case dict p => exact (Run.dict_moves p).bind fun es => (Run.newDict_moves rfl).bind contextOf_moves
  all_goals exact new

theorem ensureDefaults_moves (e : Engine) (path context : Value) :
    Moves ρ id (e.ensureDefaults path context) ((e.moved ρ).ensureDefaults (path.moved ρ) (context.moved ρ)) := by
  refine (Run.textArgument_moves "path" path).bindPlain fun path => ?_
  refine (Run.mappingArgument_moves "context" context).bind fun p => ?_
  refine (ensureText_moves p contentKey).seq ((ensureText_moves p titleKey).seq ?_)
  refine (setKey_moves p selfKey (.dict p)).seq ?_
  extract_lets merge merge'
  have hmerge : Moves ρ id (merge ()) (merge' ()) := by
    refine (Directories.legendAt?_moves e.directories path).bind fun place => ?_
    cases place with
    | none => exact .pure rfl
    | some l =>
      refine Run.store_bind_moves fun s s' hs => ?_
      rw [hs.legend]
      exact .ite (fun _ => Run.mergeLegend_moves p (s.legend l)) fun _ => .pure rfl
  rw [metadataAt?_moved]
  cases e.directories.metadataAt? path with
  | none => exact hmerge
  | some m => exact (setKey_moves p metaKey (.metadata m)).seq hmerge

/-! ## Rendering -/

theorem reporting_moves {α β : Type} {f : α → β} (path : String) {m : Run α} {m' : Run β} (h : Moves ρ f m m') :
    Moves ρ f (reporting path m) (reporting path m') :=
  h.tryCatch fun _ => (Run.note_moves _ _).seq .throw

theorem passedContent_moves (context : Nat) :
    Moves ρ (Value.moved ρ) (passedContent context) (passedContent (ρ.dicts context)) := by
  refine (Run.dict_moves context).bind fun es => .pure ?_
  rw [findKey_moved]
  cases es.find? (.text contentKey) <;> rfl

/-- Hosts include alike what engines render alike. -/
theorem host_moves_of {e : Engine} {n : Nat} (h : ∀ path context : Value,
    Moves ρ (Value.moved ρ) (e.renderTo n path context) ((e.moved ρ).renderTo n (path.moved ρ) (context.moved ρ))) :
    (e.host n).Moves ρ ((e.moved ρ).host n) :=
  ⟨rfl, fun path context => (copiedContext_moves context).bind fun p => h path (.dict p)⟩

theorem renderTo_moves (e : Engine) : ∀ (n : Nat) (path context : Value),
    Moves ρ (Value.moved ρ) (e.renderTo n path context) ((e.moved ρ).renderTo n (path.moved ρ) (context.moved ρ))
  | 0, _, _ => .throw
  | n + 1, path, context => by
    have hhost : (e.host n).Moves ρ ((e.moved ρ).host n) := host_moves_of (renderTo_moves e n)
    unfold renderTo
    refine (Run.nonemptyArgument_moves "path" path).bindPlain fun path => ?_
    refine (contextOf_moves context).bind fun p => ?_
    refine (ensureDefaults_moves e (.text (Path.normalize path)) (.dict p)).seq (reporting_moves _ ?_)
    have found : (e.moved ρ).template? = e.template? := rfl
    rw [found, scope_moved]
    cases e.template? (Path.withoutExtension (Path.normalize path)) with
    | none => exact passedContent_moves p
    | some t => exact (Template.render_moves hhost e.scope t (some p)).map fun _ => rfl

theorem host_moves (e : Engine) (n : Nat) : (e.host n).Moves ρ ((e.moved ρ).host n) :=
  host_moves_of (renderTo_moves e n)

theorem renderThrough_moves (e : Engine) (path context : Value) :
    Moves ρ (Value.moved ρ) (e.renderThrough path context)
      ((e.moved ρ).renderThrough (path.moved ρ) (context.moved ρ)) := by
  refine (Run.nonemptyArgument_moves "path" path).bindPlain fun path => ?_
  refine (contextOf_moves context).bind fun p => ?_
  have level (l : String) : Moves ρ id
      (do setKey p contentKey (← e.renderOne (.text l) (.dict p)))
      (do setKey (ρ.dicts p) contentKey (← (e.moved ρ).renderOne (.text l) (.dict (ρ.dicts p)))) :=
    (renderTo_moves e includeLimit (.text l) (.dict p)).bind (setKey_moves p contentKey)
  exact (Moves.forM level _).seq (passedContent_moves p)

/-! ## Pages -/

theorem pageContext_moves (path : String) (data : Value) (legend : Option Legend) :
    Moves ρ ρ.dicts (pageContext path data legend)
      (pageContext path (data.moved ρ) (legend.map (Legend.moved ρ))) := by
  refine (copiedContext_moves data).bind fun p => ?_
  have named := (setKey_moves (ρ := ρ) p nameKey (.text (Path.name path))).seq
    (.pure (a := p) (b := ρ.dicts p) (f := ρ.dicts) rfl)
  cases legend with
  | none => exact named
  | some l => exact (Run.mergeLegend_moves p l).seq named

/-- The contexts of the documents of a page whose legend is known. -/
theorem echoed_moves (e : Engine) (path : String) (p : Nat) (l : Legend) : Moves ρ (List.map ρ.dicts)
    (if l.echoes then reporting path (Run.branches p (e.directories.metadataAt? path) l) else return [p])
    (if l.echoes then
      reporting path (Run.branches (ρ.dicts p) ((e.directories.metadataAt? path).map ρ.metadata) (l.moved ρ))
    else return [ρ.dicts p]) :=
  .ite (fun _ => reporting_moves path (Run.branches_moves p (e.directories.metadataAt? path) l)) fun _ => .pure rfl

theorem pageContexts_moves (e : Engine) (path : String) (data : Value) :
    Moves ρ (List.map ρ.dicts) (e.pageContexts path data) ((e.moved ρ).pageContexts path (data.moved ρ)) := by
  unfold pageContexts
  rw [metadataAt?_moved]
  refine (Directories.legendAt?_moves e.directories path).bind fun place => ?_
  extract_lets next next'
  have hnext (legend : Option Legend) :
      Moves ρ (List.map ρ.dicts) (next legend) (next' (legend.map (Legend.moved ρ))) := by
    refine (pageContext_moves path data legend).bind fun p => ?_
    cases legend with
    | none => exact .pure rfl
    | some l => exact echoed_moves e path p l
  cases place with
  | none => exact hnext none
  | some l =>
    refine Run.store_bind_moves fun s s' hs => ?_
    rw [hs.legend]
    exact hnext (some (s.legend l))

/-- A document, moved. -/
abbrev movedDocument (ρ : Relocation) (d : String × Value) : String × Value := (d.1, d.2.moved ρ)

theorem renderBranch_moves (e : Engine) (path : String) (context : Nat) :
    Moves ρ (movedDocument ρ) (e.renderBranch path context) ((e.moved ρ).renderBranch path (ρ.dicts context)) := by
  refine (Run.dict_moves context).bind fun es => ?_
  rw [findKey_moved]
  extract_lets next next'
  have hnext (name : String) : Moves ρ (movedDocument ρ) (next name) (next' name) := by
    refine (setKey_moves context pathKey (.text _)).seq ?_
    refine (renderThrough_moves e (.text path) (.dict context)).bind fun document => ?_
    exact (Run.pure_moves _).bindPlain fun target => .pure rfl
  cases es.find? (.text nameKey) with
  | none => exact .throw_bind
  | some v => exact (Run.text_moves v).bindPlain hnext

theorem put_moved (docs : Documents) (path : String) (content : Value) :
    Documents.put (movedFields ρ docs) path (content.moved ρ) = movedFields ρ (docs.put path content) := by
  unfold Documents.put
  simp only [movedFields, List.any_map, Function.comp_def, List.map_map, apply_ite (List.map _), List.map_append]
  split
  · refine List.map_congr_left fun d _ => ?_
    split <;> rfl
  · rfl

theorem putBranch_moves (e : Engine) (path : String) (docs : Documents) (context : Nat) :
    Moves ρ (movedFields ρ) (do let d ← e.renderBranch path context; return docs.put d.1 d.2)
      (do
        let d ← (e.moved ρ).renderBranch path (ρ.dicts context)
        return Documents.put (movedFields ρ docs) d.1 d.2) :=
  (renderBranch_moves e path context).bind fun d => .pure (put_moved docs d.1 d.2)

theorem renderTemplate_moves (e : Engine) (path data : Value) :
    Moves ρ (movedFields ρ) (e.renderTemplate path data)
      ((e.moved ρ).renderTemplate (path.moved ρ) (data.moved ρ)) := by
  refine (Run.nonemptyArgument_moves "path" path).bindPlain fun path => ?_
  refine (pageContexts_moves e path data).bind fun contexts => ?_
  exact Moves.foldlM (f := movedFields ρ) (h := ρ.dicts) (putBranch_moves e path) []

end Engine

end NestedSite
