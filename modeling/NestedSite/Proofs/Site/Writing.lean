import Mathlib
import NestedSite.Proofs.Disk.Change
import NestedSite.Proofs.Site.Documents

/-!
# Writing documents

Each document is written at its target, which is where the straight spelling of its path leads to
(`Disk.IsTarget`, `Writer.Wrote`); a document that is refused changes nothing. A run writes documents in the order of
their paths, up to the first one that fails (`Writer.writeAll_run`). So the files that a run changes are targets of the
requested paths, and they lie under the directory unless a path runs into a loop of links (`Writer.writeAll_confined`).
If a path leads out of the directory, the documents before it are written all the same (`Writer.writeAll_outside`).
-/

namespace NestedSite

/-! ## Targets -/

namespace Disk

variable {d d' : Disk} {P : Place → Prop} {directory p q : Place} {path : String}

/-- Where the straight spelling of a path under a directory leads to; it must begin with the one of the directory. -/
structure IsTarget (d : Disk) (directory : Place) (path : String) (q : Place) : Prop where
  within : d.straight directory <+: d.straight (directory ++ Place.ofPath path)
  leads : d.follow linkLimit [] (d.straight (directory ++ Place.ofPath path)) = .ok q

/-- A path leads out of the directory. -/
def IsOutside (d : Disk) (directory : Place) (path : String) : Prop :=
  ∃ root q, d.resolve directory = .ok root ∧ d.resolve (directory ++ Place.ofPath path) = .ok q ∧ ¬root <+: q

/-- The place that a path under a directory is resolved to, which must lie there as well. -/
def target (d : Disk) (directory : Place) (path : String) : Except Fault Place :=
  if path.contains '\x00' then .error .badValue
  else match d.resolve (directory ++ Place.ofPath path), d.resolve directory with
    | .ok place, .ok root =>
      if root.isPrefixOf place then .ok place
      else .error (.path (.outside (directory ++ Place.ofPath path).path directory.path))
    | .error f, _ => .error (.file f)
    | .ok _, .error f => .error (.file f)

theorem target_eq_ok (h : d.target directory path = .ok p) :
    d.resolve (directory ++ Place.ofPath path) = .ok p ∧ ∃ root, d.resolve directory = .ok root ∧ root <+: p := by
  unfold target at h
  split at h
  · cases h
  · split at h
    · rename_i hplace hroot
      split at h
      · rename_i hwithin
        cases h
        exact ⟨hplace, _, hroot, List.isPrefixOf_iff_prefix.1 hwithin⟩
      · cases h
    · cases h
    · cases h

theorem target_eq_path {f : PathFault} (h : d.target directory path = .error (.path f)) :
    f = .outside (directory ++ Place.ofPath path).path directory.path ∧ d.IsOutside directory path := by
  unfold target at h
  split at h
  · cases h
  · split at h
    · rename_i hplace hroot
      split at h
      · cases h
      · rename_i hnot
        cases h
        exact ⟨rfl, _, _, hroot, hplace, mt List.isPrefixOf_iff_prefix.2 hnot⟩
    · cases h
    · cases h

/-- A path that is straightened comes to a link again that it is going through. -/
def RunsIntoLoop (d : Disk) (p : Place) : Prop := ∃ steps, d.straighten [] [] p = .error steps

theorem IsTarget.change (h : d.IsTarget directory path q) (hchange : d.Change P d') : d'.IsTarget directory path q where
  within := by
    rw [hchange.straight, hchange.straight]
    exact h.within
  leads := by
    rw [hchange.straight]
    exact hchange.follow h.leads

theorem IsOutside.of_change (h : d'.IsOutside directory path) (hchange : d.Change P d') :
    d.IsOutside directory path := by
  obtain ⟨root, q, hroot, hq, hnot⟩ := h
  exact ⟨root, q, hchange.resolve hroot, hchange.resolve hq, hnot⟩

/-- The target of a path is the place that the path is resolved to, unless it runs into a loop of links. -/
theorem IsTarget.eq (h : d.IsTarget directory path q)
    (hp : d.straighten [] [] (directory ++ Place.ofPath path) = .ok p) : q = p := by
  have hleads := h.leads
  rw [straight_of_straighten hp] at hleads
  exact (clear_of_straighten hp (.nil d)).follow_eq hleads

end Disk

/-! ## Documents of valid paths -/

namespace Documents

/-- A document with the shortest spelling of its path, which must be valid. -/
def checked (doc : String × Value) : Except PathFault (String × Value) := return (← outputPath doc.1, doc.2)

/-- Paths are checked first, and then the documents are gathered. -/
theorem validated_eq (docs : Documents) : docs.validated = gather <$> docs.mapM checked := by
  suffices h : ∀ all : Documents,
      docs.foldlM (fun (all : Documents) doc => return all.put (← outputPath doc.1) doc.2) all =
        putAll all <$> docs.mapM checked from h []
  induction docs with
  | nil => exact fun _ => rfl
  | cons doc docs ih =>
    intro all
    rw [List.foldlM_cons, List.mapM_cons]
    cases hdoc : outputPath doc.1 with
    | error f =>
      rw [checked, hdoc]
      rfl
    | ok out =>
      rw [checked, hdoc]
      refine (ih _).trans ?_
      cases docs.mapM checked <;> rfl

theorem exists_of_mem_mapM {docs outs : List (String × Value)} {out : String × Value}
    (h : docs.mapM checked = .ok outs) (hout : out ∈ outs) : ∃ doc ∈ docs, checked doc = .ok out := by
  induction docs generalizing outs with
  | nil =>
    cases h
    cases hout
  | cons doc docs ih =>
    rw [List.mapM_cons] at h
    cases hdoc : checked doc with
    | error f =>
      rw [hdoc] at h
      cases h
    | ok first =>
      cases hdocs : docs.mapM checked with
      | error f =>
        rw [hdoc, hdocs] at h
        cases h
      | ok rest =>
        rw [hdoc, hdocs] at h
        cases h
        rcases List.mem_cons.1 hout with rfl | hout
        · exact ⟨doc, List.mem_cons_self, hdoc⟩
        · obtain ⟨other, hother, hchecked⟩ := ih hdocs hout
          exact ⟨other, List.mem_cons_of_mem _ hother, hchecked⟩

theorem exists_find?_of_mem {docs : Documents} {path : String} (h : path ∈ docs.paths) :
    ∃ content, docs.find? (goesTo path) = some (path, content) := by
  cases hdoc : docs.find? (goesTo path) with
  | none => exact absurd h (find?_eq_none.1 hdoc)
  | some doc => exact ⟨doc.2, congrArg (fun p => some (p, doc.2)) (path_of_find? hdoc)⟩

theorem exists_of_mem_validated {docs valid : Documents} {out : String} (h : docs.validated = .ok valid)
    (hout : out ∈ valid.paths) : ∃ doc ∈ docs, outputPath doc.1 = .ok out := by
  rw [validated_eq] at h
  cases houts : docs.mapM checked with
  | error f =>
    rw [houts] at h
    cases h
  | ok outs =>
    rw [houts] at h
    cases h
    obtain ⟨pair, hpair, rfl⟩ := List.mem_map.1 (mem_paths_gather.1 hout)
    obtain ⟨doc, hdoc, hchecked⟩ := exists_of_mem_mapM houts hpair
    refine ⟨doc, hdoc, ?_⟩
    unfold checked at hchecked
    cases hpath : outputPath doc.1 <;> rw [hpath] at hchecked <;> cases hchecked
    rfl

end Documents

namespace Writer

open Documents (goesTo)

variable {α β : Type} {directory : Place} {path : String} {content : Value} {docs : Documents} {w w' w'' : Writing}

/-! ## Runs -/

/-- What a run leaves. -/
def after (m : Writer α) (w : Writing) : Writing := (m.run.run w).2

/-- The result of a run, or its fault. -/
def outcome (m : Writer α) (w : Writing) : Except Fault α := (m.run.run w).1

theorem run_bind (m : Writer α) (f : α → Writer β) (w : Writing) :
    (m >>= f).run.run w = match m.run.run w with
      | (.ok a, w') => (f a).run.run w'
      | (.error e, w') => (.error e, w') := by
  simp only [ExceptT.run_bind, StateT.run_bind]
  rcases m.run.run w with ⟨_ | _, w'⟩ <;> rfl

theorem get_run (w : Writing) : (get : Writer Writing).run.run w = (.ok w, w) := rfl

theorem ofDisk_run (result : Except FileFault α) (w : Writing) :
    (ofDisk result).run.run w = (match result with
      | .ok a => .ok a
      | .error f => .error (.file f), w) := by
  cases result <;> rfl

/-! ## One document -/

theorem target_run (directory : Place) (path : String) (w : Writing) :
    (target directory path).run.run w = (w.disk.target directory path, w) := by
  unfold target Disk.target
  split
  · rfl
  rw [run_bind, get_run]
  dsimp only
  rw [run_bind, ofDisk_run]
  cases w.disk.resolve (directory ++ Place.ofPath path) with
  | error f => rfl
  | ok place =>
    dsimp only
    rw [run_bind, ofDisk_run]
    cases w.disk.resolve directory with
    | error f => rfl
    | ok root =>
      dsimp only
      split <;> rfl

/-- What is made of the disk by writing one document, step after step. -/
theorem write_eq (directory : Place) (path : String) (content : Value) (w : Writing) :
    (write directory path content).run.run w = match w.disk.target directory path with
      | .error f => (.error f, w)
      | .ok place => match w.disk.makeDirectories place.dropLast with
        | .error f => (.error (.file f), w)
        | .ok d => match content with
          | .text t => match d.writeFile place (Text.utf8Bytes t.toList) with
            | .error f => (.error (.file f), { w with disk := d })
            | .ok d => (.ok (), { disk := d, written := w.written ++
                [⟨path, Digest.Sha256.hex (Text.utf8Bytes t.toList)⟩] })
          | _ => (.error .wrongType, { w with disk := d }) := by
  unfold write
  rw [run_bind, target_run]
  cases w.disk.target directory path with
  | error f => rfl
  | ok place =>
    dsimp only
    rw [run_bind, get_run]
    dsimp only
    rw [run_bind, ofDisk_run]
    cases w.disk.makeDirectories place.dropLast with
    | error f => rfl
    | ok d =>
      have hmodify : (modify fun w => { w with disk := d } : Writer PUnit).run.run w =
        (.ok (), { w with disk := d }) := rfl
      dsimp only
      rw [run_bind, hmodify]
      dsimp only
      cases content with
      | text t =>
        dsimp only
        rw [run_bind, ofDisk_run]
        cases d.writeFile place (Text.utf8Bytes t.toList) <;> rfl
      | _ => rfl

/-- A document is written at its target. -/
def Wrote (directory : Place) (path : String) (content : Value) (w w' : Writing) : Prop :=
  ∃ t q, content = .text t ∧ w'.disk.IsTarget directory path q ∧ w.disk.Change (· = q) w'.disk ∧
    w'.disk.file? q = some (Text.utf8Bytes t.toList) ∧
    w'.written = w.written ++ [⟨path, Digest.Sha256.hex (Text.utf8Bytes t.toList)⟩]

/-- A document is not written: no file changes. -/
structure Failed (directory : Place) (path : String) (f : Fault) (w w' : Writing) : Prop where
  change : w.disk.Change (fun _ => False) w'.disk
  written : w'.written = w.written
  outside : ∀ g, f = .path g →
    g = .outside (directory ++ Place.ofPath path).path directory.path ∧ w.disk.IsOutside directory path

/-- How the writing of a document may end. -/
def Ends (directory : Place) (path : String) (content : Value) (w : Writing) : Except Fault Unit × Writing → Prop
  | (.ok (), w') => Wrote directory path content w w'
  | (.error f, w') => Failed directory path f w w'

/-- A document is written, or no file changes. -/
theorem write_run (directory : Place) (path : String) (content : Value) (w : Writing) :
    Ends directory path content w ((write directory path content).run.run w) := by
  rw [write_eq]
  cases htarget : w.disk.target directory path with
  | error f => exact ⟨.refl _ _, rfl, fun g hg => Disk.target_eq_path (htarget.trans (congrArg _ hg))⟩
  | ok place =>
    obtain ⟨hplace, root, hroot, hwithin⟩ := Disk.target_eq_ok htarget
    obtain rfl := Disk.eq_of_resolve hplace
    obtain rfl := Disk.eq_of_resolve hroot
    dsimp only
    cases hmade : w.disk.makeDirectories (w.disk.straight (directory ++ Place.ofPath path)).dropLast with
    | error f => exact ⟨.refl _ _, rfl, fun _ hf => by cases hf⟩
    | ok d =>
      have hchange := Disk.makeDirectories_change hmade
      dsimp only
      cases content with
      | text t =>
        dsimp only
        cases hwritten : d.writeFile (w.disk.straight (directory ++ Place.ofPath path)) (Text.utf8Bytes t.toList) with
        | error f => exact ⟨hchange, rfl, fun _ hf => by cases hf⟩
        | ok d' =>
          obtain ⟨q, hfollow, hfile, hcontent⟩ := Disk.writeFile_change hwritten
          have hall := (hchange.mono (Q := (· = q)) fun _ h => h.elim).trans hfile
          refine ⟨t, q, rfl, ⟨?_, ?_⟩, hall, hcontent, rfl⟩
          · show d'.straight directory <+: d'.straight (directory ++ Place.ofPath path)
            rwa [hall.straight, hall.straight]
          · show d'.follow Disk.linkLimit [] (d'.straight (directory ++ Place.ofPath path)) = .ok q
            rw [hall.straight]
            exact hfile.follow hfollow
      | _ => exact ⟨hchange, rfl, fun _ hf => by cases hf⟩

/-! ## Many documents -/

/-- Writes the document of a path. -/
def writeNamed (directory : Place) (docs : Documents) (path : String) : Writer Unit :=
  match docs.find? (goesTo path) with
  | some (_, content) => write directory path content
  | none => pure ()

/-- A text is written if its target can be. -/
theorem writeNamed_text {t : String} {place : Place} {d d' : Disk}
    (hdoc : docs.find? (goesTo path) = some (path, .text t)) (htarget : w.disk.target directory path = .ok place)
    (hmade : w.disk.makeDirectories place.dropLast = .ok d)
    (hwritten : d.writeFile place (Text.utf8Bytes t.toList) = .ok d') :
    (writeNamed directory docs path).run.run w =
      (.ok (), ⟨d', w.written ++ [⟨path, Digest.Sha256.hex (Text.utf8Bytes t.toList)⟩]⟩) := by
  rw [writeNamed, hdoc]
  dsimp only
  rw [write_eq, htarget]
  dsimp only
  rw [hmade]
  dsimp only
  rw [hwritten]

theorem writeNamed_refused {f : Fault} (hdoc : docs.find? (goesTo path) = some (path, content))
    (htarget : w.disk.target directory path = .error f) :
    (writeNamed directory docs path).run.run w = (.error f, w) := by
  rw [writeNamed, hdoc]
  dsimp only
  rw [write_eq, htarget]

/-- Documents are written one after the other. -/
inductive WroteAll (directory : Place) (docs : Documents) : List String → Writing → Writing → Prop where
  | nil {w : Writing} : WroteAll directory docs [] w w
  | cons {w w₁ w' : Writing} {path : String} {paths : List String} {content : Value} (hmem : (path, content) ∈ docs)
      (h : Wrote directory path content w w₁) (hrest : WroteAll directory docs paths w₁ w') :
      WroteAll directory docs (path :: paths) w w'

namespace WroteAll

variable {paths : List String}

/-- Only targets change. -/
theorem change (h : WroteAll directory docs paths w w') :
    w.disk.Change (fun q => ∃ path ∈ paths, w'.disk.IsTarget directory path q) w'.disk := by
  induction h with
  | nil => exact .refl _ _
  | cons hmem h hrest ih =>
    obtain ⟨t, q, -, htarget, hchange, -⟩ := h
    refine .trans (hchange.mono fun p hp => ?_) (ih.mono fun p ⟨path, hpath, hp⟩ => ?_)
    · exact ⟨_, List.mem_cons_self, hp ▸ htarget.change ih⟩
    · exact ⟨path, List.mem_cons_of_mem _ hpath, hp⟩

/-- Each path is told of. -/
theorem exists_written (h : WroteAll directory docs paths w w') :
    ∃ new, w'.written = w.written ++ new ∧ new.map Written.path = paths := by
  induction h with
  | nil => exact ⟨[], (List.append_nil _).symm, rfl⟩
  | cons hmem h hrest ih =>
    obtain ⟨t, q, -, -, -, -, hwritten⟩ := h
    obtain ⟨new, hnew, hpaths⟩ := ih
    rw [hwritten, List.append_assoc] at hnew
    exact ⟨_, hnew, congrArg _ hpaths⟩

/-- Each path has its file. -/
theorem exists_file (h : WroteAll directory docs paths w w') :
    ∀ path ∈ paths, ∃ q, w'.disk.IsTarget directory path q ∧ (w'.disk.file? q).isSome := by
  induction h with
  | nil => exact fun _ hpath => absurd hpath List.not_mem_nil
  | cons hmem h hrest ih =>
    obtain ⟨t, q, -, htarget, -, hfile, -⟩ := h
    refine List.forall_mem_cons.2 ⟨⟨q, htarget.change hrest.change, hrest.change.file ?_⟩, ih⟩
    rw [hfile]
    rfl

end WroteAll

/-- How the writing of several documents may end. -/
def EndsAll (directory : Place) (docs : Documents) (paths : List String) (w : Writing) :
    Except Fault Unit × Writing → Prop
  | (.ok (), w') => WroteAll directory docs paths w w'
  | (.error f, w') => ∃ before path rest w₁, paths = before ++ path :: rest ∧ WroteAll directory docs before w w₁ ∧
      Failed directory path f w₁ w'

/-- Documents are written up to the first one that fails. -/
theorem forM_run {paths : List String} (hpaths : ∀ path ∈ paths, path ∈ docs.paths) (w : Writing) :
    EndsAll directory docs paths w ((paths.forM (writeNamed directory docs)).run.run w) := by
  induction paths generalizing w with
  | nil => exact .nil
  | cons path paths ih =>
    obtain ⟨content, hdoc⟩ := Documents.exists_find?_of_mem (hpaths path List.mem_cons_self)
    have hnamed : writeNamed directory docs path = write directory path content := by rw [writeNamed, hdoc]
    have hwrite := write_run directory path content w
    rw [List.forM, run_bind, hnamed]
    generalize (write directory path content).run.run w = ended at hwrite
    rcases ended with ⟨f | _, w₁⟩
    · exact ⟨[], path, paths, w, rfl, .nil, hwrite⟩
    · have hmem := List.mem_of_find?_eq_some hdoc
      have hrest := ih (fun path hpath => hpaths path (List.mem_cons_of_mem _ hpath)) w₁
      dsimp only
      generalize (paths.forM (writeNamed directory docs)).run.run w₁ = ended at hrest
      rcases ended with ⟨f | _, w'⟩
      · obtain ⟨before, last, rest, w₂, rfl, hbefore, hfailed⟩ := hrest
        exact ⟨path :: before, last, rest, w₂, rfl, .cons hmem hwrite hbefore, hfailed⟩
      · exact .cons hmem hwrite hrest

/-- What happens before the first document is written. -/
theorem writeAll_run (directory : Place) (docs : Documents) (w : Writing) :
    (writeAll directory docs).run.run w = match docs.validated with
      | .error f => (.error (.path f), w)
      | .ok valid => match w.disk.makeDirectories directory with
        | .error f => (.error (.file f), w)
        | .ok d => ((sortedTexts valid.paths).forM (writeNamed directory valid)).run.run { w with disk := d } := by
  unfold writeAll
  cases docs.validated with
  | error f => rfl
  | ok valid =>
    dsimp only
    rw [run_bind, get_run]
    dsimp only
    rw [run_bind, ofDisk_run]
    cases w.disk.makeDirectories directory <;> rfl

/-- If all paths are valid and the directory is there, the documents are written one after the other. -/
theorem writeAll_run_of_valid {valid : Documents} (hvalid : docs.validated = .ok valid)
    (hmade : w.disk.makeDirectories directory = .ok w.disk) : (writeAll directory docs).run.run w =
      ((sortedTexts valid.paths).forM (writeNamed directory valid)).run.run w := by
  rw [writeAll_run, hvalid]
  dsimp only
  rw [hmade]

/-- What a run comes to: all paths are valid and the directory is there before a document is written. -/
theorem writeAll_ends (directory : Place) (docs : Documents) (w : Writing) :
    (∃ f, (writeAll directory docs).run.run w = (.error f, w) ∧ ∀ g, f = .path g → docs.validated = .error g) ∨
      ∃ valid d root, docs.validated = .ok valid ∧ w.disk.Change (fun _ => False) d ∧
        d.find? directory = .ok (root, .directory) ∧
        EndsAll directory valid (sortedTexts valid.paths) { w with disk := d }
          ((writeAll directory docs).run.run w) := by
  rw [writeAll_run]
  cases hvalid : docs.validated with
  | error f => exact .inl ⟨.path f, rfl, fun g hg => congrArg _ (Fault.path.inj hg)⟩
  | ok valid =>
    dsimp only
    cases hmade : w.disk.makeDirectories directory with
    | error f => exact .inl ⟨.file f, rfl, fun _ hg => by cases hg⟩
    | ok d =>
      obtain ⟨root, hroot⟩ := Disk.makeDirectories_find? hmade
      exact .inr ⟨valid, d, root, rfl, Disk.makeDirectories_change hmade, hroot,
        forM_run (fun path hpath => List.mem_mergeSort.1 hpath) _⟩

theorem EndsAll.change {paths : List String} {ended : Except Fault Unit × Writing}
    (h : EndsAll directory docs paths w ended) :
    w.disk.Change (fun q => ∃ path ∈ paths, ended.2.disk.IsTarget directory path q) ended.2.disk := by
  rcases ended with ⟨f | _, w'⟩
  · obtain ⟨before, path, rest, w₁, rfl, hbefore, hfailed⟩ := h
    have hlast := hfailed.change
    refine .trans (hbefore.change.mono fun q ⟨p, hp, htarget⟩ => ?_) (hlast.mono fun _ hfalse => hfalse.elim)
    exact ⟨p, List.mem_append_left _ hp, htarget.change hlast⟩
  · exact WroteAll.change h

/-- Every file that a run changes is the target of a requested path. It lies under the directory, and is the place that
the path is resolved to, or the path runs into a loop of links. -/
theorem writeAll_confined {q : Place}
    (h : ((writeAll directory docs).after w).disk.file? q ≠ w.disk.file? q) :
    ∃ doc ∈ docs, ∃ out root, outputPath doc.1 = .ok out ∧ w.disk.resolve directory = .ok root ∧
      (w.disk.resolve (directory ++ Place.ofPath out) = .ok q ∧ root <+: q ∧ root ≠ q ∨
        w.disk.RunsIntoLoop (directory ++ Place.ofPath out) ∧
          root <+: w.disk.straight (directory ++ Place.ofPath out) ∧
          ((writeAll directory docs).after w).disk.follow Disk.linkLimit []
            (w.disk.straight (directory ++ Place.ofPath out)) = .ok q) := by
  unfold after at *
  rcases writeAll_ends directory docs w with ⟨f, hrun, -⟩ | ⟨valid, d, root, hvalid, hmade, hroot, hends⟩
  · rw [hrun] at h
    exact absurd rfl h
  generalize (writeAll directory docs).run.run w = ended at h hends
  have hwritten := hends.change
  have hchange := (hmade.mono fun _ hfalse => hfalse.elim).trans hwritten
  obtain ⟨out, hout, htarget⟩ : ∃ out ∈ sortedTexts valid.paths, ended.2.disk.IsTarget directory out q :=
    not_not.1 (mt hchange.content h)
  obtain ⟨doc, hdoc, hpath⟩ := Documents.exists_of_mem_validated hvalid (List.mem_mergeSort.1 hout)
  -- the directory is there when documents are written, so its path runs into no loop
  have hstraight := Disk.straighten_of_find? hroot
  rw [hmade.straighten] at hstraight
  have hdirectory := hwritten.directory (Disk.find?_eq_ok_iff.1 hroot).2
  have hne : root ≠ q := by
    rintro rfl
    have hafter := Disk.file?_of_directory hdirectory
    exact h (hafter.trans (hchange.file?_eq_none hafter).symm)
  refine ⟨doc, hdoc, out, root, hpath, Disk.resolve_of_straighten hstraight, ?_⟩
  have hwithin := htarget.within
  have hleads := htarget.leads
  rw [hchange.straight, hchange.straight, Disk.straight_of_straighten hstraight] at hwithin
  rw [hchange.straight] at hleads
  cases hplace : w.disk.straighten [] [] (directory ++ Place.ofPath out) with
  | ok p =>
    obtain rfl := htarget.eq ((hchange.straighten _ _ _).trans hplace)
    rw [Disk.straight_of_straighten hplace] at hwithin
    exact .inl ⟨Disk.resolve_of_straighten hplace, hwithin, hne⟩
  | error steps => exact .inr ⟨⟨steps, hplace⟩, hwithin, hleads⟩

/-- A link to itself, and a link that goes through it. -/
def looped : Disk where
  entries := [(["outside"], .file [111]), (["dist"], .directory), (["dist", "a"], .link "a"),
    (["dist", "b"], .link "../outside"), (["dist", "c"], .link "a/../b")]

/-- Behind a loop of links, a file outside of the directory is overwritten. -/
theorem writeAll_confined_looped :
    ((writeAll ["dist"] [("c", .text "X")]).after ⟨looped, []⟩).disk.file? ["outside"] ≠ looped.file? ["outside"] ∧
      looped.resolve ["dist"] = .ok ["dist"] ∧ looped.RunsIntoLoop ["dist", "c"] := by
  have hvalid : Documents.validated [("c", .text "X")] = .ok [("c", .text "X")] := by cbv
  have hdirectory : looped.makeDirectories ["dist"] = .ok looped := by cbv
  have hsorted : sortedTexts (Documents.paths [("c", .text "X")]) = ["c"] := by cbv
  have htarget : looped.target ["dist"] "c" = .ok ["dist", "b"] := by cbv
  have hwritten : looped.writeFile ["dist", "b"] (Text.utf8Bytes "X".toList) =
      .ok (looped.put ["outside"] (.file [88])) := by cbv
  have hafter : ((writeAll ["dist"] [("c", .text "X")]).after ⟨looped, []⟩).disk =
      looped.put ["outside"] (.file [88]) := by
    rw [after, writeAll_run_of_valid hvalid hdirectory, hsorted, List.forM, run_bind,
      writeNamed_text rfl htarget hdirectory hwritten]
    rfl
  have hchanged : ((writeAll ["dist"] [("c", .text "X")]).after ⟨looped, []⟩).disk.file? ["outside"] ≠
      looped.file? ["outside"] := by
    rw [hafter]
    decide
  have hroot : looped.resolve ["dist"] = .ok ["dist"] := by cbv
  obtain ⟨doc, hdoc, out, root, hout, hresolved, h⟩ := writeAll_confined hchanged
  obtain rfl : ("c", Value.text "X") = doc := (List.mem_singleton.1 hdoc).symm
  cases hout.symm.trans (show outputPath "c" = .ok "c" by cbv)
  cases hresolved.symm.trans hroot
  rcases h with ⟨-, hwithin, -⟩ | ⟨hloop, -⟩
  · exact absurd hwithin (by decide)
  · exact ⟨hchanged, hroot, hloop⟩

/-- If a run ends as a path is refused, either it has changed nothing, or the path leads out of the directory: then the
documents of the paths before it are written, and no other file has changed. -/
theorem writeAll_outside {f : PathFault} (h : (writeAll directory docs).outcome w = .error (.path f)) :
    docs.validated = .error f ∧ (writeAll directory docs).after w = w ∨
      ∃ valid before path rest new, docs.validated = .ok valid ∧ sortedTexts valid.paths = before ++ path :: rest ∧
        f = .outside (directory ++ Place.ofPath path).path directory.path ∧ w.disk.IsOutside directory path ∧
        ((writeAll directory docs).after w).written = w.written ++ new ∧ new.map Written.path = before ∧
        (∀ q, ((writeAll directory docs).after w).disk.file? q ≠ w.disk.file? q →
          ∃ p ∈ before, ((writeAll directory docs).after w).disk.IsTarget directory p q) ∧
        ∀ p ∈ before, ∃ q, ((writeAll directory docs).after w).disk.IsTarget directory p q ∧
          (((writeAll directory docs).after w).disk.file? q).isSome := by
  unfold outcome after at *
  rcases writeAll_ends directory docs w with ⟨g, hrun, hvalid⟩ | ⟨valid, d, root, hvalid, hmade, -, hends⟩
  · rw [hrun] at h ⊢
    exact .inl ⟨hvalid f (Except.error.inj h), rfl⟩
  generalize (writeAll directory docs).run.run w = ended at h hends
  obtain ⟨result, w'⟩ := ended
  obtain rfl : result = .error (.path f) := h
  obtain ⟨before, path, rest, w₁, hpaths, hbefore, hfailed⟩ := hends
  obtain ⟨hfault, houtside⟩ := hfailed.outside f rfl
  obtain ⟨new, hnew, hnames⟩ := hbefore.exists_written
  have hwritten := hbefore.change
  have hlast := hfailed.change
  have hchange := (hmade.mono fun _ hfalse => hfalse.elim).trans hwritten
  refine .inr ⟨valid, before, path, rest, new, hvalid, hpaths, hfault, houtside.of_change hchange,
    hfailed.written.trans hnew, hnames, fun q hq => ?_, fun p hp => ?_⟩
  · rw [hlast.content not_false] at hq
    obtain ⟨p, hp, htarget⟩ := not_not.1 (mt hchange.content hq)
    exact ⟨p, hp, htarget.change hlast⟩
  · obtain ⟨q, htarget, hfile⟩ := hbefore.exists_file p hp
    exact ⟨q, htarget.change hlast, hlast.file hfile⟩

/-- A link out of the directory. -/
def linkedOut : Disk where
  entries := [(["out"], .directory), (["dist"], .directory), (["dist", "b"], .link "../out")]

/-- A path that leads out of the directory is refused when the one before it is written already. -/
theorem writeAll_outside_second :
    (writeAll ["dist"] [("a", .text "1"), ("b/c", .text "2")]).outcome ⟨linkedOut, []⟩ =
        .error (.path (.outside "/dist/b/c" "/dist")) ∧
      linkedOut.file? ["dist", "a"] = none ∧
      ((writeAll ["dist"] [("a", .text "1"), ("b/c", .text "2")]).after ⟨linkedOut, []⟩).disk.file? ["dist", "a"] =
        some [49] ∧
      linkedOut.IsOutside ["dist"] "b/c" := by
  have hvalid : Documents.validated [("a", .text "1"), ("b/c", .text "2")] =
      .ok [("a", .text "1"), ("b/c", .text "2")] := by cbv
  have hdirectory : linkedOut.makeDirectories ["dist"] = .ok linkedOut := by cbv
  have hsorted : sortedTexts (Documents.paths [("a", .text "1"), ("b/c", .text "2")]) = ["a", "b/c"] := by cbv
  have htarget : linkedOut.target ["dist"] "a" = .ok ["dist", "a"] := by cbv
  have hwritten : linkedOut.writeFile ["dist", "a"] (Text.utf8Bytes "1".toList) =
      .ok (linkedOut.put ["dist", "a"] (.file [49])) := by cbv
  have hrefused : (linkedOut.put ["dist", "a"] (.file [49])).target ["dist"] "b/c" =
      .error (.path (.outside "/dist/b/c" "/dist")) := by cbv
  have hrun : (writeAll ["dist"] [("a", .text "1"), ("b/c", .text "2")]).run.run ⟨linkedOut, []⟩ =
      (.error (.path (.outside "/dist/b/c" "/dist")), ⟨linkedOut.put ["dist", "a"] (.file [49]),
        [⟨"a", Digest.Sha256.hex (Text.utf8Bytes "1".toList)⟩]⟩) := by
    rw [writeAll_run_of_valid hvalid hdirectory, hsorted, List.forM, run_bind,
      writeNamed_text rfl htarget hdirectory hwritten]
    dsimp only
    rw [List.forM, run_bind, writeNamed_refused rfl hrefused]
    rfl
  have houtcome := congrArg Prod.fst hrun
  have hfile : ((writeAll ["dist"] [("a", .text "1"), ("b/c", .text "2")]).after ⟨linkedOut, []⟩).disk.file?
      ["dist", "a"] = some [49] := by
    rw [after, hrun]
    decide
  rcases writeAll_outside houtcome with
    ⟨hinvalid, -⟩ | ⟨valid, before, path, rest, new, hpaths, hsplit, -, houtside, hnew, hbefore, -⟩
  · cases hvalid.symm.trans hinvalid
  · rw [after, hrun] at hnew
    obtain rfl := hnew
    obtain rfl := hbefore
    cases hvalid.symm.trans hpaths
    cases hsorted.symm.trans hsplit
    exact ⟨houtcome, by decide, hfile, houtside⟩

end Writer

end NestedSite
