import NestedSite.Proofs.Site.Malformed

/-!
# Looking up

Metadata that is read is sound (`Engine.readMetadata_sound`): its files are legends, and its pattern, if there is one,
can be searched for. It stays so wherever it is carried (`Store.SoundAt.carries`). So no lookup of a path fails: it
finds the metadata of the directory, the first one of its legends that has the name of the path, and whether its pattern
occurs in the name (`Engine.answers_of`).
-/

namespace NestedSite

variable {s t : Store} {ρ : Relocation} {p : Nat} {w : World}

/-! ## Sound metadata -/

/-- The legends of the metadata at a place. -/
def Store.legendsOf (s : Store) (p : Nat) : List Nat :=
  (s.list (s.metadataAt p).files).filterMap fun
    | .legend l => some l
    | _ => none

/-- The metadata at a place has legends, all of which are there, and a pattern that can be searched for, if any. -/
structure Store.SoundAt (s : Store) (p : Nat) : Prop where
  used : p < s.metadata.size
  files : (s.metadataAt p).files < s.lists.size
  list : s.list (s.metadataAt p).files = (s.legendsOf p).map Value.legend
  legends : ∀ l ∈ s.legendsOf p, l < s.legends.size
  ignore : ∀ t ∈ (s.metadataAt p).ignore, t ≠ "" → ∃ pattern, Pattern.parse t = .ok pattern

theorem filterMap_legend (ls : List Nat) :
    (ls.map Value.legend).filterMap (fun | .legend l => some l | _ => none) = ls := by
  rw [List.filterMap_map]
  exact List.filterMap_some

namespace Store.SoundAt

theorem of_list {ls : List Nat} (hused : p < s.metadata.size) (hfiles : (s.metadataAt p).files < s.lists.size)
    (hlist : s.list (s.metadataAt p).files = ls.map Value.legend) (hls : ∀ l ∈ ls, l < s.legends.size)
    (hignore : ∀ t ∈ (s.metadataAt p).ignore, t ≠ "" → ∃ pattern, Pattern.parse t = .ok pattern) : s.SoundAt p := by
  have hlegends : s.legendsOf p = ls := by
    unfold Store.legendsOf
    rw [hlist]
    exact filterMap_legend ls
  rw [← hlegends] at hlist hls
  exact ⟨hused, hfiles, hlist, hls, hignore⟩

/-- What the metadata holds is carried with it. -/
theorem metadataAt_carries (h : s.SoundAt p) (hc : ρ.Carries s t) :
    t.metadataAt (ρ.metadata p) = (s.metadataAt p).moved ρ := (hc.metadata p h.used).2

theorem list_carries (h : s.SoundAt p) (hc : ρ.Carries s t) :
    t.list (t.metadataAt (ρ.metadata p)).files = ((s.legendsOf p).map ρ.legends).map Value.legend := by
  rw [h.metadataAt_carries hc]
  refine (hc.lists _ h.files).2.trans ?_
  rw [h.list, List.map_map, List.map_map]
  rfl

theorem legendsOf_carries (h : s.SoundAt p) (hc : ρ.Carries s t) :
    t.legendsOf (ρ.metadata p) = (s.legendsOf p).map ρ.legends := by
  unfold Store.legendsOf
  rw [h.list_carries hc]
  exact filterMap_legend _

theorem carries (h : s.SoundAt p) (hc : ρ.Carries s t) : t.SoundAt (ρ.metadata p) := by
  have hmetadata := h.metadataAt_carries hc
  refine .of_list (hc.metadata p h.used).1 ?_ (h.list_carries hc) ?_ ?_
  · rw [hmetadata]
    exact (hc.lists _ h.files).1
  · intro _ hmem
    obtain ⟨l, hl, rfl⟩ := List.mem_map.1 hmem
    exact (hc.legends l (h.legends l hl)).1
  · rw [hmetadata]
    exact h.ignore

end Store.SoundAt

/-! ## Metadata that is read -/

/-- A value is a legend that is there. -/
def Store.HasLegend (s : Store) (v : Value) : Prop := ∃ l < s.legends.size, v = .legend l

theorem Store.HasLegend.mono {v : Value} (h : s.HasLegend v) (hst : s.legends.size ≤ t.legends.size) :
    t.HasLegend v :=
  have ⟨l, hl, hv⟩ := h
  ⟨l, Nat.lt_of_lt_of_le hl hst, hv⟩

theorem Store.exists_legends {vs : List Value} (h : ∀ v ∈ vs, s.HasLegend v) :
    ∃ ls : List Nat, (∀ l ∈ ls, l < s.legends.size) ∧ vs = ls.map Value.legend := by
  induction vs with
  | nil => exact ⟨[], nofun, rfl⟩
  | cons v vs ih =>
    obtain ⟨⟨l, hl, rfl⟩, hvs⟩ := List.forall_mem_cons.1 h
    obtain ⟨ls, hls, rfl⟩ := ih hvs
    exact ⟨l :: ls, List.forall_mem_cons.2 ⟨hl, hls⟩, rfl⟩

namespace Run

theorem legendOf?_ensures {v : Value} (h : v.IsDatum) (w : World) : (legendOf? v).Ensures w fun found w' =>
    w.store.legends.size ≤ w'.store.legends.size ∧ ∀ l, found = .ok l → w'.store.HasLegend l := by
  cases h
  case dict p =>
    refine .step_bind rfl (.step_bind rfl ?_)
    split
    · rename_i l _
      refine .step_bind rfl (.pure ?_)
      have hsize : (w.store.legends.push l).size = w.store.legends.size + 1 := Array.size_push _
      refine ⟨hsize ▸ Nat.le_succ _, fun v hv => ⟨w.store.legends.size, hsize ▸ Nat.lt_succ_self _, ?_⟩⟩
      cases hv
      rfl
    · exact .pure ⟨Nat.le_refl _, nofun⟩
  all_goals exact .pure ⟨Nat.le_refl _, nofun⟩

theorem legendsOf_ensures (place : List String) {vs : List Value} (h : ∀ v ∈ vs, v.IsDatum) (n : Nat) (w : World) :
    (legendsOf place n vs).Ensures w fun found w' =>
      w.store.legends.size ≤ w'.store.legends.size ∧ ∀ l ∈ found.1, w'.store.HasLegend l := by
  induction vs generalizing n w with
  | nil => exact .pure ⟨Nat.le_refl _, fun l hl => absurd hl List.not_mem_nil⟩
  | cons v vs ih =>
    obtain ⟨hv, hvs⟩ := List.forall_mem_cons.1 h
    unfold legendsOf
    refine (legendOf?_ensures hv w).bind fun first u hlegend => ?_
    obtain ⟨hu, hfirst⟩ := hlegend
    refine (ih hvs (n + 1) u).bind fun rest w' hlegends => ?_
    obtain ⟨hw', hrest⟩ := hlegends
    cases first with
    | ok l => exact .pure ⟨hu.trans hw', List.forall_mem_cons.2 ⟨(hfirst l rfl).mono hw', hrest⟩⟩
    | error own => exact .pure ⟨hu.trans hw', hrest⟩

theorem sequenceOf?_ensures {v : Value} (h : v.IsDatum) {w : World} (hw : w.store.HoldsData) :
    (sequenceOf? v).Ensures w fun found _ => ∀ vs ∈ found, ∀ v ∈ vs, v.IsDatum := by
  cases h
  case list p => exact .step rfl fun vs hvs => by cases hvs; exact fun v hv => (hw.lists p v hv).1
  case set p => exact .step rfl fun vs hvs => by cases hvs; exact fun v hv => (hw.sets p v hv).1
  case tuple vs h => exact .step rfl fun vs hvs => by cases hvs; exact h
  all_goals exact .pure nofun

theorem filesOf_ensures {field : Option Value} (h : ∀ v ∈ field, v.IsDatum) {w : World} (hw : w.store.HoldsData) :
    (filesOf field).Ensures w fun found w' => ∀ vs, found = .ok vs → ∀ l ∈ vs, w'.store.HasLegend l := by
  cases field with
  | none => exact .pure fun vs hvs => by cases hvs; exact fun l hl => absurd hl List.not_mem_nil
  | some v =>
    refine (sequenceOf?_ensures (h v rfl) hw).bind fun found w hfound => ?_
    cases found with
    | none => exact .pure nofun
    | some vs =>
      refine (legendsOf_ensures _ (hfound vs rfl) 0 w).bind fun legends w' ⟨_, hlegends⟩ => ?_
      split
      · exact .pure fun vs hvs => by cases hvs; exact hlegends
      · exact .pure nofun

theorem ignoreOf_ensures (field : Option Value) (w : World) : (ignoreOf field).Ensures w fun found w' =>
    w' = w ∧ ∀ t, found = .ok (some t) → t ≠ "" → ∃ pattern, Pattern.parse t = .ok pattern := by
  unfold ignoreOf
  split
  · rename_i t _
    split
    · rename_i hempty
      exact .pure ⟨rfl, fun u hu hne => by cases hu; exact absurd (String.isEmpty_iff.1 hempty) hne⟩
    · refine (read_ensures _ w).bind fun checked w' ⟨hw', hchecked⟩ => ?_
      subst hw'
      unfold Checked.patternText at hchecked
      cases hparse : Pattern.parse t with
      | ok pattern =>
        rw [hparse] at hchecked
        cases hchecked
        exact .pure ⟨rfl, fun u hu _ => by cases hu; exact ⟨pattern, hparse⟩⟩
      | error f =>
        rw [hparse] at hchecked
        cases f <;> cases hchecked
        exact .pure ⟨rfl, nofun⟩
  · rename_i hnone
    exact .pure ⟨rfl, fun t ht => absurd ht (hnone t)⟩

/-- Metadata with a new list of legends is sound. -/
theorem soundAt_new (s : Store) {ls : List Nat} (hls : ∀ l ∈ ls, l < s.legends.size) {m : Metadata}
    (hfiles : m.files = s.lists.size)
    (hignore : ∀ t ∈ m.ignore, t ≠ "" → ∃ pattern, Pattern.parse t = .ok pattern) :
    Store.SoundAt { s with lists := s.lists.push (ls.map Value.legend), metadata := s.metadata.push m }
      s.metadata.size := by
  have hnew : Store.metadataAt { s with lists := s.lists.push (ls.map Value.legend), metadata := s.metadata.push m }
      s.metadata.size = m := by
    simp [Store.metadataAt]
  refine .of_list (by simp) ?_ ?_ hls ?_
  · rw [hnew, hfiles]
    simp
  · rw [hnew, hfiles]
    simp [Store.list]
  · rw [hnew]
    exact hignore

/-- Metadata that is made of the fields of a document is sound. -/
theorem metadataOf?_sound {w : World} (h : w.store.HoldsData) (p : Nat) : (metadataOf? (.dict p)).Ensures w
    fun found w' => ∀ q, found = .ok (.metadata q) → w'.store.SoundAt q := by
  have hfields {name : String} : ∀ v ∈ fieldOf? (splitKeys w.store (w.store.dict p)).1 name, v.IsDatum := by
    intro v hv
    obtain ⟨f, hf, rfl⟩ := Option.map_eq_some_iff.1 hv
    exact ((h.dicts p).data _ (mem_splitKeys (List.mem_of_find?_eq_some hf))).2.1
  refine .step_bind rfl (.step_bind rfl ?_)
  refine (ignoreOf_ensures _ w).bind fun ignore u ⟨hu, hignore⟩ => ?_
  subst hu
  refine (filesOf_ensures hfields h).bind fun files w hfiles => ?_
  split
  · rename_i legends _ _
    obtain ⟨ls, hls, rfl⟩ := Store.exists_legends (hfiles legends rfl)
    refine .step_bind rfl (.step_bind rfl (.pure fun q hq => ?_))
    cases hq
    exact soundAt_new w.store hls rfl fun t ht => hignore t (congrArg Except.ok ht)
  · exact .pure nofun

end Run

namespace Engine

theorem metadataFrom_sound {w : World} (h : w.store.HoldsData) (directory : String) (p : Nat) :
    (metadataFrom directory (.dict p)).Ensures w fun q w' => w'.store.SoundAt q := by
  refine (Run.metadataOf?_sound h p).bind fun found w' hfound => ?_
  cases found with
  | error issues => exact .throw
  | ok v =>
    cases v
    case metadata q => exact .pure (hfound q rfl)
    all_goals exact .throw

/-- Metadata that is read by itself is sound. -/
theorem readMetadata_sound (directory text : String) :
    (readMetadata directory text).Ensures {} fun p w => w.store.SoundAt p := by
  have hload := Yaml.load_ends text (w := {}) Store.empty_holdsData
  unfold Run.outcome Run.after at hload
  intro q u hrun
  rw [readMetadata_run] at hrun
  rcases hrunLoad : (Yaml.load text).run.run {} with ⟨f | v, w⟩
  · rw [hrunLoad] at hrun
    cases hrun
  · rw [hrunLoad] at hrun hload
    cases hload with
    | ok hload =>
      obtain ⟨-, -, hdata⟩ := hload
      cases v
      case dict p => exact metadataFrom_sound hdata directory p q u hrun
      case none =>
        exact metadataFrom_sound (w := { w with store := { w.store with dicts := w.store.dicts.push [] } })
          hdata.pushDict directory w.store.dicts.size q u hrun
      all_goals cases hrun

theorem IsRead.soundAt {directory text : String} (h : IsRead directory text s p) : s.SoundAt p := by
  obtain ⟨p₀, ρ, hread, -, hcarries, rfl⟩ := h
  exact (readMetadata_sound directory text p₀ _ (Prod.ext hread rfl)).carries hcarries

end Engine

/-! ## What is looked up -/

/-- The first legend with a name of the metadata at a place. -/
def Store.legendNamed? (s : Store) (p : Nat) (name : String) : Option Nat :=
  (s.legendsOf p).find? fun l => (s.legend l).name == name

/-- Whether the pattern of metadata occurs in a name. -/
def Metadata.hides (m : Metadata) (name : String) : Bool :=
  m.ignore.any fun t => !t.isEmpty && (Pattern.parse t).toOption.any fun pattern => pattern.occursIn name

theorem Metadata.hides_iff {m : Metadata} {name : String} : m.hides name = true ↔
    ∃ t pattern, m.ignore = some t ∧ t ≠ "" ∧ Pattern.parse t = .ok pattern ∧ pattern.occursIn name = true := by
  have hparsed (t : String) : (Pattern.parse t).toOption.any (fun pattern => pattern.occursIn name) = true ↔
      ∃ pattern, Pattern.parse t = .ok pattern ∧ pattern.occursIn name = true := by
    cases Pattern.parse t <;> simp [Except.toOption]
  unfold hides
  simp only [Option.any_eq_true, Bool.and_eq_true, Bool.not_eq_true', hparsed, String.isEmpty_eq_false_iff]
  grind

/-- A legend keeps its name, so that the same one is the first wherever the metadata is carried. -/
theorem Store.SoundAt.legendNamed?_carries (h : s.SoundAt p) (hc : ρ.Carries s t) (name : String) :
    t.legendNamed? (ρ.metadata p) name = (s.legendNamed? p name).map ρ.legends := by
  unfold Store.legendNamed?
  rw [h.legendsOf_carries hc, List.find?_map]
  have hlegends := h.legends
  generalize s.legendsOf p = ls at hlegends
  refine congrArg (Option.map ρ.legends) ?_
  induction ls with
  | nil => rfl
  | cons l ls ih =>
    obtain ⟨hl, hls⟩ := List.forall_mem_cons.1 hlegends
    have hname : (t.legend (ρ.legends l)).name = (s.legend l).name := by
      rw [(hc.legends l hl).2]
      rfl
    rw [List.find?_cons, List.find?_cons, ih hls, Function.comp_apply, hname]

theorem Store.SoundAt.hides_carries (h : s.SoundAt p) (hc : ρ.Carries s t) (name : String) :
    (t.metadataAt (ρ.metadata p)).hides name = (s.metadataAt p).hides name := by
  rw [h.metadataAt_carries hc]
  rfl

/-- A legend is looked for as long as none with the name is found. -/
theorem Run.legendNamed_run (h : w.store.SoundAt p) (name : String) :
    (legendNamed (w.store.metadataAt p) (.text name)).run.run w =
      (.ok (((w.store.legendNamed? p name).map Value.legend).getD .none), w) := by
  unfold legendNamed Store.legendNamed?
  refine (Run.run_bind _ _ w).trans ?_
  have hlist : (list (w.store.metadataAt p).files).run.run w = (.ok (w.store.list (w.store.metadataAt p).files), w) :=
    rfl
  rw [hlist, h.list]
  dsimp only
  induction w.store.legendsOf p with
  | nil => rfl
  | cons l ls ih =>
    have hread : (read fun s => s.equal (.text (s.legend l).name) (.text name)).run.run w =
        (.ok ((w.store.legend l).name == name), w) := rfl
    rw [List.map_cons, legendNamed.go, run_bind, hread, List.find?_cons]
    dsimp only
    cases (w.store.legend l).name == name with
    | true => rfl
    | false => exact ih

theorem Directories.legendAt?_found {ds : Directories} {path : String} (hp : ds.metadataAt? path = some p)
    (h : w.store.SoundAt p) :
    (ds.legendAt? path).run.run w = (.ok (w.store.legendNamed? p (Path.name path)), w) := by
  unfold legendAt?
  rw [hp]
  dsimp only
  rw [Run.run_bind, Run.store_run]
  dsimp only
  rw [Run.run_bind, Run.legendNamed_run h]
  cases w.store.legendNamed? p (Path.name path) <;> rfl

theorem Directories.ignores_found {ds : Directories} {path : String} (hp : ds.metadataAt? path = some p) (w : World) :
    (ds.ignores path).run.run w = (.ok ((w.store.metadataAt p).hides (Path.name path)), w) := by
  unfold ignores Metadata.hides
  rw [hp]
  dsimp only
  rw [Run.run_bind, Run.store_run]
  dsimp only
  cases (w.store.metadataAt p).ignore with
  | none => rfl
  | some t =>
    dsimp only [Option.any_some]
    cases t.isEmpty with
    | true => rfl
    | false => cases Pattern.parse t <;> rfl

namespace Engine

/-- What the lookups of a path answer in a world, which they leave as it is. -/
structure Answers (e : Engine) (w : World) (path : String) (metadata legend : Option Nat) (ignored : Bool) : Prop where
  metadata : (e.metadataAt (.text path)).run.run w = (.ok ((metadata.map Value.metadata).getD .none), w)
  legend : (e.legendAt (.text path)).run.run w = (.ok ((legend.map Value.legend).getD .none), w)
  ignores : (e.ignores (.text path)).run.run w = (.ok ignored, w)

theorem metadataAt_run (e : Engine) (path : String) (w : World) : (e.metadataAt (.text path)).run.run w =
    (.ok (((e.directories.metadataAt? path).map Value.metadata).getD .none), w) := rfl

/-- Without metadata there is nothing to be found. -/
theorem answers_nothing {e : Engine} {path : String} (h : e.directories.metadataAt? path = none) (w : World) :
    e.Answers w path none none false := by
  constructor
  · rw [metadataAt_run, h]
  · have hlegend : e.directories.legendAt? path = pure none := by
      unfold Directories.legendAt?
      rw [h]
    unfold legendAt
    simp only [Run.textArgument, pure_bind, hlegend]
    rfl
  · have hignores : e.directories.ignores path = pure false := by
      unfold Directories.ignores
      rw [h]
    unfold ignores
    simp only [Run.textArgument, pure_bind, hignores]
    rfl

/-- With sound metadata, nothing fails that is looked up. -/
theorem answers_of {e : Engine} {path : String} (hp : e.directories.metadataAt? path = some p)
    (h : w.store.SoundAt p) : e.Answers w path (some p) (w.store.legendNamed? p (Path.name path))
      ((w.store.metadataAt p).hides (Path.name path)) := by
  constructor
  · rw [metadataAt_run, hp]
  · unfold legendAt
    simp only [Run.textArgument, pure_bind]
    rw [Run.run_bind, Directories.legendAt?_found hp h]
    rfl
  · unfold ignores
    simp only [Run.textArgument, pure_bind]
    exact Directories.ignores_found hp w

end Engine

end NestedSite
