import NestedSite.Proofs.Site.Publishing

/-!
# Documents that are written to one place

Paths that are spelled in different ways can have one shortest spelling. Documents are gathered by it before they are
written, so that of those with one spelling the last is written, and the others are gone without a word. A run that
succeeds tells of each spelling once, with the text that came last for it; so it tells of all documents just if no two
of them have the same spelling (`Writer.writeAll_records`).
-/

namespace NestedSite

namespace Documents

variable {docs outs : List (String × Value)}

/-- Checking gives each path its shortest spelling. -/
theorem map_outputPath_of_mapM (h : docs.mapM checked = .ok outs) :
    docs.map (fun doc => outputPath doc.1) = (paths outs).map Except.ok := by
  induction docs generalizing outs with
  | nil =>
    cases h
    rfl
  | cons doc docs ih =>
    rw [List.mapM_cons, checked] at h
    cases hpath : outputPath doc.1 with
    | error f =>
      rw [hpath] at h
      cases h
    | ok path =>
      cases hdocs : docs.mapM checked with
      | error f =>
        rw [hpath, hdocs] at h
        cases h
      | ok rest =>
        rw [hpath, hdocs] at h
        cases h
        rw [List.map_cons, hpath, ih hdocs]
        rfl

/-- The shortest paths are all different just if no two paths have the same one. -/
theorem nodup_paths_iff (h : docs.mapM checked = .ok outs) :
    (paths outs).Nodup ↔ docs.Pairwise fun a b => outputPath a.1 ≠ outputPath b.1 := by
  rw [← List.nodup_map_iff (f := (Except.ok : String → Except PathFault String)) fun _ _ => Except.ok.inj,
    ← map_outputPath_of_mapM h]
  exact List.pairwise_map

/-- No document is replaced just if the paths are all different. -/
theorem replaced_eq_nil_iff : replaced docs = [] ↔ (paths docs).Nodup := by
  induction docs with
  | nil => exact ⟨fun _ => .nil, fun _ => rfl⟩
  | cons doc docs ih =>
    rw [paths_cons, List.nodup_cons, ← ih, replaced]
    split <;> simp_all

end Documents

namespace Writer

open Documents (goesTo)

variable {directory : Place} {docs : Documents} {paths : List String} {w w' : Writing}

/-- What is told of a document that is written. -/
def Tells (docs : Documents) (r : Written) : Prop :=
  ∃ t, (r.path, .text t) ∈ docs ∧ r.digest = Digest.Sha256.hex (Text.utf8Bytes t.toList)

/-- Each document that is written is told of, with the digest of its text. -/
theorem WroteAll.tells (h : WroteAll directory docs paths w w') :
    ∃ new, w'.written = w.written ++ new ∧ new.map Written.path = paths ∧ ∀ r ∈ new, Tells docs r := by
  induction h with
  | nil => exact ⟨[], (List.append_nil _).symm, rfl, fun _ h => absurd h List.not_mem_nil⟩
  | cons hmem h hrest ih =>
    obtain ⟨t, q, rfl, -, -, -, hwritten⟩ := h
    obtain ⟨new, hnew, hpaths, htells⟩ := ih
    rw [hwritten, List.append_assoc] at hnew
    exact ⟨_, hnew, congrArg _ hpaths, List.forall_mem_cons.2 ⟨⟨t, hmem, rfl⟩, htells⟩⟩

/-- A run that succeeds writes all documents that are gathered by their shortest paths. -/
theorem wroteAll_of_ok (h : (writeAll directory docs).outcome w = .ok ()) :
    ∃ outs d, docs.mapM Documents.checked = .ok outs ∧
      WroteAll directory (Documents.gather outs) (sortedTexts (Documents.gather outs).paths) { w with disk := d }
        ((writeAll directory docs).after w) := by
  unfold outcome after at *
  rcases writeAll_ends directory docs w with ⟨f, hrun, -⟩ | ⟨valid, d, root, hvalid, -, -, hends⟩
  · rw [hrun] at h
    cases h
  generalize (writeAll directory docs).run.run w = ended at h hends
  obtain ⟨result, w'⟩ := ended
  obtain rfl : result = .ok () := h
  rw [Documents.validated_eq] at hvalid
  cases houts : docs.mapM Documents.checked with
  | error f =>
    rw [houts] at hvalid
    cases hvalid
  | ok outs =>
    rw [houts] at hvalid
    cases hvalid
    exact ⟨outs, d, rfl, hends⟩

/-- A run that succeeds tells of each shortest path once, in the order of the paths, with the digest of the text that
came last for it. The other documents are the ones that such a text replaces; so all documents are told of just if no
two paths have the same shortest spelling. -/
theorem writeAll_records (h : (writeAll directory docs).outcome w = .ok ()) :
    ∃ outs new, docs.mapM Documents.checked = .ok outs ∧
      ((writeAll directory docs).after w).written = w.written ++ new ∧
      new.Pairwise (fun a b => a.path < b.path) ∧
      (∀ r, r ∈ new ↔ ∃ t, outs.reverse.find? (goesTo r.path) = some (r.path, .text t) ∧
        r.digest = Digest.Sha256.hex (Text.utf8Bytes t.toList)) ∧
      docs.length = new.length + (Documents.replaced outs).length ∧
      (new.length = docs.length ↔ docs.Pairwise fun a b => outputPath a.1 ≠ outputPath b.1) := by
  obtain ⟨outs, d, houts, hwrote⟩ := wroteAll_of_ok h
  obtain ⟨new, hnew, hpaths, htells⟩ := hwrote.tells
  have hnodup := Documents.nodup_gather outs
  have hlength : docs.length = new.length + (Documents.replaced outs).length := by
    have hdocs : docs.length = outs.length := by
      simpa [Documents.paths] using congrArg List.length (Documents.map_outputPath_of_mapM houts)
    have hgathered : new.length = (Documents.gather outs).length := by
      rw [← List.length_map (f := Written.path), hpaths, sortedTexts, List.length_mergeSort, Documents.paths,
        List.length_map]
    rw [hdocs, hgathered, Documents.length_gather outs]
  refine ⟨outs, new, houts, hnew, ?_, fun r => ⟨fun hr => ?_, ?_⟩, hlength, ?_⟩
  · exact List.pairwise_map.1 (hpaths ▸ sortedTexts_pairwise hnodup)
  · obtain ⟨t, ht, hdigest⟩ := htells r hr
    exact ⟨t, Documents.find?_gather outs r.path ▸ Documents.find?_of_mem hnodup ht, hdigest⟩
  · rintro ⟨t, ht, hdigest⟩
    rw [← Documents.find?_gather] at ht
    have hmem := List.mem_of_find?_eq_some ht
    -- the path is told of, and with the digest of the one text that it has
    obtain ⟨r', hr', hpath⟩ : ∃ r' ∈ new, r'.path = r.path := by
      rw [← List.mem_map, hpaths, sortedTexts, List.mem_mergeSort]
      exact List.mem_map_of_mem (f := Prod.fst) hmem
    obtain ⟨t', ht', hdigest'⟩ := htells r' hr'
    have hfound := Documents.find?_of_mem hnodup ht'
    rw [hpath, ht] at hfound
    obtain rfl : t = t' := by simpa using hfound
    obtain rfl : r' = r := by
      cases r
      cases r'
      simp_all
    exact hr'
  · rw [← Documents.nodup_paths_iff houts, ← Documents.replaced_eq_nil_iff, ← List.length_eq_zero_iff]
    omega

/-- Two documents that are both written to `a/b`: one of them is dropped. -/
theorem writeAll_records_doubled :
    (writeAll ["dist"] [("a/b", .text "1"), ("a//b", .text "2")]).outcome ⟨vacant, []⟩ = .ok () ∧
      ((writeAll ["dist"] [("a/b", .text "1"), ("a//b", .text "2")]).after ⟨vacant, []⟩).written.length = 1 := by
  have hchecked : ([("a/b", .text "1"), ("a//b", .text "2")] : Documents).mapM Documents.checked =
      .ok [("a/b", .text "1"), ("a/b", .text "2")] := by cbv
  have hvalid : Documents.validated [("a/b", .text "1"), ("a//b", .text "2")] = .ok [("a/b", .text "2")] := by cbv
  have hdirectory : vacant.makeDirectories ["dist"] = .ok vacant := by cbv
  have hsorted : sortedTexts (Documents.paths [("a/b", .text "2")]) = ["a/b"] := by cbv
  have htarget : vacant.target ["dist"] "a/b" = .ok ["dist", "a", "b"] := by cbv
  have hmade : vacant.makeDirectories ["dist", "a"] = .ok (vacant.put ["dist", "a"] .directory) := by cbv
  have hwritten : (vacant.put ["dist", "a"] .directory).writeFile ["dist", "a", "b"] (Text.utf8Bytes "2".toList) =
      .ok ((vacant.put ["dist", "a"] .directory).put ["dist", "a", "b"] (.file [50])) := by cbv
  have hok : (writeAll ["dist"] [("a/b", .text "1"), ("a//b", .text "2")]).outcome ⟨vacant, []⟩ = .ok () := by
    rw [outcome, writeAll_run_of_valid hvalid hdirectory, hsorted, List.forM, run_bind,
      writeNamed_text rfl htarget hmade hwritten]
    rfl
  obtain ⟨outs, new, houts, hnew, -, -, hlength, -⟩ := writeAll_records hok
  cases houts.symm.trans hchecked
  refine ⟨hok, ?_⟩
  rw [hnew, List.nil_append]
  exact Nat.add_right_cancel hlength.symm

end Writer

end NestedSite
