import NestedSite.Proofs.Relative
import NestedSite.Proofs.Site.Registered
import NestedSite.Proofs.Store.Ensures
import NestedSite.Site.Builder

/-!
# Sources that are loaded

A source that is loaded is registered under its path below the directory of the sources, joined to that directory. This
is the same as registering it under its path alone, with an engine that is anywhere (`Engine.register_placed`): what the
engine is told to spell paths from is of no account for paths that are spelled already. So it is for all sources of a
directory (`Engine.foldlM_register_placed`), as their paths lead through the names on the disk
(`Run.collectSources_ensures`), and loading them comes to the same engine, or to the same fault
(`Builder.load_registers`).
-/

namespace NestedSite

open Path (IsName IsLast ofNames)

/-! ## Paths of sources -/

namespace Disk

/-- All places are named by names. -/
def Named (d : Disk) : Prop := ∀ e ∈ d.entries, ∀ s ∈ e.1, IsLast s

theorem mem_filesUnder {d : Disk} {directory : Place} {file : Place × List UInt8}
    (h : file ∈ d.filesUnder directory) : file.1 ≠ [] ∧ ∃ e ∈ d.entries, ∀ s ∈ file.1, s ∈ e.1 := by
  obtain ⟨e, he, hfile⟩ := List.mem_filterMap.1 h
  dsimp only at hfile
  split at hfile
  · rename_i hunder
    have hsteps : file.1 = e.1.drop directory.length := by
      split at hfile
      · cases hfile
        rfl
      · split at hfile
        · cases hfile
          rfl
        · cases hfile
      · cases hfile
    have hlength : directory.length < e.1.length := by simpa using (Bool.and_eq_true_iff.1 hunder).2
    refine ⟨?_, e, he, fun s hs => List.mem_of_mem_drop (hsteps ▸ hs)⟩
    rw [hsteps]
    exact mt List.drop_eq_nil_iff.1 (Nat.not_le.2 hlength)
  · cases hfile

end Disk

/-- The path of a source leads through names. -/
def SourceFile.Named (s : SourceFile) : Prop :=
  ∃ names : List String, s.path = ofNames names ∧ names ≠ [] ∧ ∀ n ∈ names, IsLast n

theorem intercalate_eq_ofNames (names : List String) : "/".intercalate names = ofNames names :=
  String.toList_inj.1 (by rw [String.toList_intercalate, Path.toList_ofNames]; rfl)

namespace Run

variable {α β : Type}

theorem filterMapM_ensures {f : α → Run (Option β)} {P : β → Prop} {xs : List α} {w : World}
    (h : ∀ x ∈ xs, ∀ w, (f x).Ensures w fun b _ => ∀ y ∈ b, P y) :
    (xs.filterMapM f).Ensures w fun ys _ => ∀ y ∈ ys, P y := by
  induction xs generalizing w with
  | nil => exact .pure fun y hy => absurd hy List.not_mem_nil
  | cons x xs ih =>
    rw [List.filterMapM_cons]
    refine (h x List.mem_cons_self w).bind fun b u hb => ?_
    have hrest := ih (w := u) fun y hy => h y (List.mem_cons_of_mem _ hy)
    cases b with
    | none => exact hrest
    | some y => exact hrest.bind fun ys _ hys => .pure (List.forall_mem_cons.2 ⟨hb y rfl, hys⟩)

theorem sourceOf?_ensures (globs : List String) (file : Place × List UInt8) (w : World) :
    (sourceOf? globs file).Ensures w fun s _ => ∀ t ∈ s, t.path = ofNames file.1 := by
  unfold sourceOf?
  dsimp only
  split
  · refine (Ensures.anything _ w).bind fun _ _ _ => .pure fun t ht => ?_
    cases ht
  · refine (Ensures.anything _ w).bind fun text _ _ => .pure fun t ht => ?_
    cases ht
    exact intercalate_eq_ofNames file.1

/-- The paths of the sources of a directory lead through the names on the disk. -/
theorem collectSources_ensures {d : Disk} (h : d.Named) (p : Place) (globs : List String) (w : World) :
    (collectSources d p globs).Ensures w fun sources _ => ∀ s ∈ sources, s.Named := by
  unfold collectSources
  refine (Ensures.anything _ w).bind fun root u _ => ?_
  refine (filterMapM_ensures (P := SourceFile.Named) fun file hfile v => ?_).bind fun sources _ hsources => .pure ?_
  · obtain ⟨hne, e, he, hsteps⟩ := Disk.mem_filesUnder (List.mem_mergeSort.1 hfile)
    exact (sourceOf?_ensures globs file v).mono fun _ _ hs t ht =>
      ⟨file.1, hs t ht, hne, fun n hn => h e he n (hsteps n hn)⟩
  · exact fun s hs => hsources s (List.mem_mergeSort.1 hs)

end Run

/-! ## Engines elsewhere -/

namespace Engine

variable {cwd root : String}

/-- The engine, if it were elsewhere: paths start at `cwd`, and are spelled from `root`. -/
def placed (e : Engine) (cwd root : String) : Engine := { e with workDir := cwd, root }

theorem registerMetadata_placed (e : Engine) (cwd root directory text : String) :
    (e.placed cwd root).registerMetadata directory text =
      (·.placed cwd root) <$> e.registerMetadata directory text := by
  unfold registerMetadata
  rw [map_bind]
  refine bind_congr fun p => ?_
  change (if (e.directories.find? directory).isSome then _ else _) = _
  split
  · rfl
  · rfl

theorem putTemplate_placed (e : Engine) (cwd root path : String) (t : Template) :
    (e.placed cwd root).putTemplate path t = (e.putTemplate path t).placed cwd root := by
  unfold putTemplate placed
  dsimp only
  split <;> rfl

theorem registerTemplate_placed (e : Engine) (cwd root path text : String) :
    (e.placed cwd root).registerTemplate path text = (·.placed cwd root) <$> e.registerTemplate path text := by
  unfold registerTemplate
  cases Template.compile text with
  | error f => rfl
  | ok t =>
    dsimp only
    rw [putTemplate_placed]
    rfl

/-- A source of the directory that paths are spelled from is registered as it is under its path alone, elsewhere. -/
theorem register_placed (e : Engine) (cwd : String) (hroot : Path.isAbsolute root = true) (text : String)
    {names : List String} (hne : names ≠ []) (h : ∀ s ∈ names, IsLast s) :
    (e.placed cwd root).register (.text text) (.text (Path.join root [ofNames names])) =
      (·.placed cwd root) <$> e.register (.text text) (.text (ofNames names)) := by
  have habsolute := (Path.relative_join cwd hroot hne h).1
  have hjoin : Path.join root [ofNames names] ≠ "" := fun hempty => by
    rw [hempty] at habsolute
    cases habsolute
  rw [register_text text hjoin, register_text text (Path.ofNames_ne_empty hne h)]
  have hpath : Path.relativeTo (e.placed cwd root).workDir (e.placed cwd root).root (Path.join root [ofNames names]) =
      Path.relativeTo e.workDir e.root (ofNames names) := Path.relativeTo_join cwd hroot hne h e.workDir e.root
  rw [hpath]
  generalize Path.relativeTo e.workDir e.root (ofNames names) = path
  by_cases hmetadata : metadataExtensions.contains (Path.extension path) = true
  · rw [if_pos hmetadata, if_pos hmetadata]
    exact registerMetadata_placed e cwd root _ text
  · rw [if_neg hmetadata, if_neg hmetadata]
    exact registerTemplate_placed e cwd root _ text

/-- All sources of the directory are registered so. -/
theorem foldlM_register_placed (e : Engine) (cwd : String) (hroot : Path.isAbsolute root = true)
    {sources : List SourceFile} (h : ∀ s ∈ sources, s.Named) :
    sources.foldlM (fun (e : Engine) s => e.register (.text s.content) (.text (Path.join root [s.path])))
        (e.placed cwd root) =
      (·.placed cwd root) <$> e.registerAll (sources.map fun s => (s.content, s.path)) := by
  unfold registerAll
  induction sources generalizing e with
  | nil => rfl
  | cons s sources ih =>
    obtain ⟨⟨names, hpath, hne, hnames⟩, hsources⟩ := List.forall_mem_cons.1 h
    rw [List.map_cons, List.foldlM_cons, List.foldlM_cons, hpath, register_placed e cwd hroot s.content hne hnames,
      map_bind, bind_map_left]
    exact bind_congr fun e' => ih e' hsources

end Engine

/-! ## Builders -/

namespace Work

variable {α β : Type}

theorem run_bind (m : Work α) (f : α → Work β) (wp : Workplace) :
    (m >>= f).run.run wp = match m.run.run wp with
      | (.ok a, wp') => (f a).run.run wp'
      | (.error e, wp') => (.error e, wp') := by
  simp only [ExceptT.run_bind, StateT.run_bind]
  rcases m.run.run wp with ⟨_ | _, wp'⟩ <;> rfl

theorem getThe_run (wp : Workplace) : (getThe Workplace : Work Workplace).run.run wp = (.ok wp, wp) := rfl

/-- What happens to values and notes depends on the world alone. -/
theorem ofRun_run_congr {m m' : Run α} {wp : Workplace} (h : m.run.run wp.world = m'.run.run wp.world) :
    (ofRun m).run.run wp = (ofRun m').run.run wp := by
  unfold ofRun
  rw [run_bind, run_bind, getThe_run]
  dsimp only
  rw [h]

end Work

/-- Computations go on alike if they do so for what the first one can come to. -/
theorem Run.bind_run_congr {α β : Type} {m : Run α} {f g : α → Run β} {w : World} {P : α → Prop}
    (h : m.Ensures w fun a _ => P a) (hfg : ∀ a, P a → f a = g a) : (m >>= f).run.run w = (m >>= g).run.run w := by
  rw [run_bind, run_bind]
  rcases hm : m.run.run w with ⟨e | a, w'⟩
  · rfl
  · dsimp only
    rw [hfg a (h a w' hm)]

namespace Builder

/-- An engine that nothing is registered with, as the builder configures it. -/
def start (b : Builder) (cwd root : String) : Engine :=
  { workDir := cwd, root, imports := b.imports, rename := b.config.renaming?, observers := b.observers }

/-- Registers the sources under their paths below the directory of the sources, with an engine that is anywhere; then
the engine is where the sources are. -/
def registerSources (b : Builder) (cwd root : String) : Work Engine := do
  let place ← b.sourcePlace
  let d := (← getThe Workplace).disk
  Work.ofRun do
    let sources ← Run.collectSources d place b.config.exclude
    let e ← (b.start cwd root).registerAll (sources.map fun s => (s.content, s.path))
    Run.note (.log .info source s!"Loaded {sources.length} source files from {place.path}")
    return e.placed b.project.path place.path

/-- The place of the sources is only looked up. -/
theorem sourcePlace_run (b : Builder) (wp : Workplace) : ∃ r, b.sourcePlace.run.run wp = (r, wp) := by
  unfold sourcePlace placeOf
  dsimp only
  rw [Work.run_bind, Work.getThe_run]
  dsimp only
  generalize wp.disk.resolve _ = resolved
  cases resolved with
  | error f => exact ⟨.error (.file f), rfl⟩
  | ok q => exact ⟨.ok q, rfl⟩

/-- Loading the sources of a directory is the same as registering each of them under its path below the directory, with
an engine that is anywhere: it comes to the same engine, or to the same fault, and to the same notes. For the path of
a source below the directory, spelled from there, is the path itself, whatever the directory is. -/
theorem load_registers :
    (∀ (cwd root path : String), Path.isAbsolute root = true →
      (∀ s ∈ Path.segments path.toList, IsName (.ofList s)) →
        Path.relativeTo cwd root (root ++ "/" ++ path) = path) ∧
    ∀ (b : Builder) (wp : Workplace), wp.disk.Named →
      ∀ cwd root, b.load.run.run wp = (b.registerSources cwd root).run.run wp := by
  refine ⟨fun cwd root path hroot h => Path.relativeTo_below cwd hroot h, fun b wp h cwd root => ?_⟩
  unfold load registerSources
  obtain ⟨r, hplace⟩ := b.sourcePlace_run wp
  rw [Work.run_bind, Work.run_bind, hplace]
  cases r with
  | error f => rfl
  | ok place =>
    dsimp only
    rw [Work.run_bind, Work.run_bind, Work.getThe_run]
    refine Work.ofRun_run_congr ?_
    refine Run.bind_run_congr (Run.collectSources_ensures h place b.config.exclude _) fun sources hsources => ?_
    have hroot : Path.isAbsolute place.path = true := by
      rw [Path.isAbsolute, Place.path, String.toList_append]
      rfl
    have hregistered := (b.start cwd root).foldlM_register_placed b.project.path hroot hsources
    change (sources.foldlM _ ((b.start cwd root).placed b.project.path place.path) >>= _) = _
    rw [hregistered, bind_map_left]

/-- A disk with a page, metadata, and a page whose name holds a backslash. -/
def siteDisk : Disk where
  entries := [(["srv"], .directory), (["srv", "src"], .directory), (["srv", "src", "a\\b.html"], .file []),
    (["srv", "src", "docs"], .directory), (["srv", "src", "docs", "meta.yaml"], .file []),
    (["srv", "src", "docs", "intro.html"], .file [])]

/-- A builder in "/srv", with the sources in "src". -/
def siteBuilder : Builder where
  config := {}
  project := ["srv"]

theorem siteDisk_named : siteDisk.Named := by
  intro e he s hs
  have hsteps : ∀ e ∈ siteDisk.entries, ∀ s ∈ e.1,
      s ∈ ["srv", "src", "a\\b.html", "docs", "meta.yaml", "intro.html"] := by simp [siteDisk]
  have hnames : ∀ s ∈ ["srv", "src", "a\\b.html", "docs", "meta.yaml", "intro.html"], IsLast s := by
    simp only [List.forall_mem_cons, List.not_mem_nil, IsEmpty.forall_iff, implies_true, and_true]
    exact ⟨by constructor <;> decide, by constructor <;> decide, by constructor <;> decide, by constructor <;> decide,
      by constructor <;> decide, by constructor <;> decide⟩
  exact hnames s (hsteps e he s hs)

/-- A page below a directory that is spelled in a roundabout way is spelled from there by its path, and loading a site
is registering its sources anywhere. -/
theorem load_registers_site :
    Path.relativeTo "/tmp" "/srv//src/" ("/srv//src/" ++ "/" ++ "docs/intro.html") = "docs/intro.html" ∧
      siteDisk.Named ∧
        siteBuilder.load.run.run { disk := siteDisk } =
          (siteBuilder.registerSources "/tmp" "/").run.run { disk := siteDisk } := by
  refine ⟨load_registers.1 "/tmp" "/srv//src/" "docs/intro.html" (by decide) ?_, siteDisk_named,
    load_registers.2 _ _ siteDisk_named "/tmp" "/"⟩
  have hsegments : Path.segments "docs/intro.html".toList = ["docs".toList, "intro.html".toList] := by decide
  rw [hsegments]
  simp only [List.forall_mem_cons, List.not_mem_nil, IsEmpty.forall_iff, implies_true, and_true, String.ofList_toList]
  exact ⟨by decide, by decide⟩

end Builder

end NestedSite
