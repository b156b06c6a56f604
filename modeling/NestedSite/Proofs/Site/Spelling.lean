import NestedSite.Proofs.Directory
import NestedSite.Proofs.Site.Lookup
import NestedSite.Proofs.Site.Notes

/-!
# Spellings of a path

Metadata is registered for directories in their shortest spelling (`Engine.Reached.directories_normal`), but a path is
looked up in its directory as it is written. So two spellings of a path are looked up and rendered alike if they have
the same directory and the same name as they are written, as those have that are `Path.Direct`; and for a path whose
directory is not in its shortest spelling nothing is found (`Engine.lookups_spelled`).
-/

namespace NestedSite

variable {p q : String}

/-! ## Paths without names -/

theorem Path.getLast?_dropEndSlashes (cs : List Char) : (dropEndSlashes cs).getLast? ≠ some '/' := by
  intro hlast
  unfold dropEndSlashes at hlast
  rw [List.getLast?_reverse] at hlast
  have hnot := List.head?_dropWhile_not (· == '/') cs.reverse
  rw [hlast] at hnot
  simp at hnot

/-- Only the empty path has no name and does not end in a slash. -/
theorem Path.eq_empty_of_name (hslash : p.endsWith "/" = false) (h : name p = "") : p = "" := by
  obtain ⟨hparts, -, hhead⟩ := splitLast_parts (dropEndSlashes p.toList)
  have hname : (splitLast (dropEndSlashes p.toList)).2 = [] := by simpa [name] using congrArg String.toList h
  rw [hname, List.append_nil] at hparts
  rw [hparts] at hhead
  have hnil : dropEndSlashes p.toList = [] := by
    refine List.getLast?_eq_none_iff.1 (Option.eq_none_iff_forall_ne_some.2 fun c hc => ?_)
    exact getLast?_dropEndSlashes p.toList (hhead c hc ▸ hc)
  by_contra hne
  -- all characters are slashes, and so is the last one
  have hall : ∀ c ∈ p.toList, c = '/' := by
    intro c hc
    have hslash := List.dropWhile_eq_nil_iff.1 (List.reverse_eq_nil_iff.1 hnil) c (List.mem_reverse.2 hc)
    exact beq_iff_eq.1 hslash
  rcases List.eq_nil_or_concat p.toList with hempty | ⟨cs, c, hcs⟩
  · exact hne (String.toList_inj.1 hempty)
  · rw [List.concat_eq_append] at hcs
    obtain rfl : c = '/' := hall c (by simp [hcs])
    have hends : p.endsWith "/" = true := by
      rw [String.endsWith_eq_endsWith_toSlice, String.Slice.endsWith_string_iff, String.copy_toSlice, hcs]
      exact ⟨cs, rfl⟩
    rw [hends] at hslash
    cases hslash

/-! ## Lookups -/

namespace Directories

theorem directoryOf_of_not_slash (h : p.endsWith "/" = false) : directoryOf p = Path.parent p := by
  unfold directoryOf
  rw [h, if_neg Bool.false_ne_true]

variable {ds : Directories}

theorem legendAt?_eq (hdirectory : directoryOf p = directoryOf q) (hname : Path.name p = Path.name q) :
    ds.legendAt? p = ds.legendAt? q := by
  unfold legendAt? metadataAt?
  rw [hdirectory, hname]

theorem ignores_eq (hdirectory : directoryOf p = directoryOf q) (hname : Path.name p = Path.name q) :
    ds.ignores p = ds.ignores q := by
  unfold ignores metadataAt?
  rw [hdirectory, hname]

end Directories

namespace Engine

variable {e : Engine}

/-- Metadata is registered for directories in their shortest spelling. -/
theorem register_directories (h : ∀ d ∈ e.directories, Path.IsNormal d.1) (text path : Value) :
    Confined .whole Anything (e.register text path) fun e' => ∀ d ∈ e'.directories, Path.IsNormal d.1 := by
  unfold register
  refine (Confined.anything _).bind fun text _ => (Confined.anything _).bind fun path _ => ?_
  have hnormal := Path.isNormal_parent (Path.isNormal_relativeTo e.workDir e.root path)
  dsimp only
  generalize Path.relativeTo e.workDir e.root path = path at hnormal
  refine .ite (fun _ => ?_) fun _ => ?_
  · generalize Path.parent path = directory at hnormal ⊢
    refine (Confined.anything _).bind fun place _ => .guard fun _ => ?_
    refine (Confined.anything _).bind fun _ _ => .pure ?_
    exact List.forall_mem_append.2 ⟨h, List.forall_mem_singleton.2 hnormal⟩
  · unfold registerTemplate
    split
    · exact .throw
    · refine (Confined.anything _).bind fun _ _ => .pure ?_
      unfold putTemplate
      split <;> exact h

theorem Reached.directories_normal (h : e.Reached) : ∀ d ∈ e.directories, Path.IsNormal d.1 := by
  induction h with
  | new _ hd => simp [hd]
  | @register e e' text path w _ hr ih =>
    exact ((register_directories ih text path) w (Region.whole_holds _)).2.2 e' hr

theorem find?_of_not_normal (he : e.Reached) {directory : String} (h : ¬Path.IsNormal directory) :
    e.directories.find? directory = none := by
  refine Option.not_isSome_iff_eq_none.1 fun hfound => h ?_
  obtain ⟨d, hd, rfl⟩ := List.mem_map.1 (find?_isSome.1 hfound)
  exact he.directories_normal d hd

/-! ## Pages -/

theorem pageContexts_endsAlike (hdirectory : Directories.directoryOf p = Directories.directoryOf q)
    (hname : Path.name p = Path.name q) (data : Value) (w : World) :
    Run.EndsAlike (e.pageContexts p data) (e.pageContexts q data) w := by
  have hcontext : pageContext p data = pageContext q data := by
    funext legend
    unfold pageContext
    rw [hname]
  unfold pageContexts
  rw [Directories.legendAt?_eq hdirectory hname, Directories.metadataAt?, Directories.metadataAt?, hdirectory, hcontext]
  refine (Run.EndsAlike.of_run_eq (m := e.directories.legendAt? q) rfl).bind fun place u _ => ?_
  extract_lets next next'
  have hnext (legend : Option Legend) (u : World) : Run.EndsAlike (next legend) (next' legend) u := by
    refine (Run.EndsAlike.of_run_eq (m := pageContext q data legend) rfl).bind fun context v _ => ?_
    split
    · split
      · exact .reporting p q _ _
      · exact .of_run_eq rfl
    · exact .of_run_eq rfl
  cases place with
  | none => exact hnext none u
  | some l =>
    refine (Run.EndsAlike.of_run_eq (m := Run.store) rfl).bind fun s v _ => ?_
    simp only [pure_bind]
    exact hnext _ v

theorem renderThrough_eq (hp : p ≠ "") (hq : q ≠ "") (h : Path.normalize p = Path.normalize q) (context : Value) :
    e.renderThrough (.text p) context = e.renderThrough (.text q) context := by
  have hchain : Path.ancestorChain p = Path.ancestorChain q := by
    unfold Path.ancestorChain
    rw [h]
  unfold renderThrough
  rw [nonemptyArgument_text hp, nonemptyArgument_text hq, pure_bind, pure_bind, hchain]

theorem renderBranch_eq_of (hp : p ≠ "") (hq : q ≠ "") (h : Path.normalize p = Path.normalize q)
    (hparent : Path.parent p = Path.parent q) (context : Nat) :
    e.renderBranch p context = e.renderBranch q context := by
  unfold renderBranch
  rw [hparent]
  simp only [renderThrough_eq hp hq h]

theorem renderTemplate_endsAlike (hp : p ≠ "") (hq : q ≠ "") (h : Path.normalize p = Path.normalize q)
    (hdirectory : Directories.directoryOf p = Directories.directoryOf q) (hparent : Path.parent p = Path.parent q)
    (hname : Path.name p = Path.name q) (data : Value) (w : World) :
    Run.EndsAlike (e.renderTemplate (.text p) data) (e.renderTemplate (.text q) data) w := by
  unfold renderTemplate
  rw [nonemptyArgument_text hp, nonemptyArgument_text hq, pure_bind, pure_bind]
  refine (pageContexts_endsAlike hdirectory hname data w).bind fun contexts u _ => .of_run_eq ?_
  simp only [renderBranch_eq_of hp hq h hparent]

/-- Two spellings of a path that do not end in a slash have the same metadata, the same legend and the same documents,
and both are ignored or none is, if they have the same directory and the same name as they are written. So it is for
spellings that end in a name after a directory in its shortest spelling. If the directory of a path is not in its
shortest spelling, nothing is found for the path. -/
theorem lookups_spelled (he : e.Reached) (hp : p.endsWith "/" = false) (hq : q.endsWith "/" = false)
    (h : Path.normalize p = Path.normalize q) :
    (Path.parent p = Path.parent q → Path.name p = Path.name q →
      e.metadataAt (.text p) = e.metadataAt (.text q) ∧ e.legendAt (.text p) = e.legendAt (.text q) ∧
        e.ignores (.text p) = e.ignores (.text q) ∧
        ∀ data w, Run.EndsAlike (e.renderTemplate (.text p) data) (e.renderTemplate (.text q) data) w) ∧
      (Path.Direct p → Path.Direct q → Path.parent p = Path.parent q ∧ Path.name p = Path.name q) ∧
      (¬Path.IsNormal (Path.parent p) → ∀ w, e.Answers w p none none false) := by
  refine ⟨fun hparent hname => ?_, fun hdirect hdirect' => ?_, fun hnot w => ?_⟩
  · have hdirectory : Directories.directoryOf p = Directories.directoryOf q := by
      rw [Directories.directoryOf_of_not_slash hp, Directories.directoryOf_of_not_slash hq, hparent]
    have hempty : p = "" ↔ q = "" :=
      ⟨fun heq => Path.eq_empty_of_name hq (by rw [← hname, heq]; decide),
        fun heq => Path.eq_empty_of_name hp (by rw [hname, heq]; decide)⟩
    refine ⟨?_, ?_, ?_, fun data w => ?_⟩
    · unfold metadataAt
      simp only [Run.textArgument, pure_bind, Directories.metadataAt?, hdirectory]
    · unfold legendAt
      simp only [Run.textArgument, pure_bind, Directories.legendAt?_eq hdirectory hname]
    · unfold ignores
      simp only [Run.textArgument, pure_bind, Directories.ignores_eq hdirectory hname]
    · by_cases hnone : p = ""
      · rw [hnone, hempty.1 hnone]
        exact .of_run_eq rfl
      · exact renderTemplate_endsAlike hnone (mt hempty.2 hnone) h hdirectory hparent hname data w
  · constructor
    · rw [← hdirect.normalize.1, h, hdirect'.normalize.1]
    · rw [← hdirect.normalize.2, h, hdirect'.normalize.2]
  · refine answers_nothing ?_ w
    rw [Directories.metadataAt?, Directories.directoryOf_of_not_slash hp]
    exact find?_of_not_normal he hnot

/-- A page, and metadata of its directory. -/
def spelledSources : List (String × String) :=
  [("\x22ignore\x22: \x22intro\x22", "docs/meta.yaml"), ("A", "docs/intro.html")]

/-- Slashes between a directory and a name do not matter, but a segment that leads nowhere before them does. -/
theorem lookups_spelled_docs : ∃ e : Engine, e.Reached ∧ (e.directories.metadataAt? "docs/intro").isSome ∧
    e.metadataAt (.text "docs//intro") = e.metadataAt (.text "docs/intro") ∧
    e.ignores (.text "docs//intro") = e.ignores (.text "docs/intro") ∧
    (∀ data w,
      Run.EndsAlike (e.renderTemplate (.text "docs//intro") data) (e.renderTemplate (.text "docs/intro") data) w) ∧
    ∀ w, e.Answers w "./docs/intro" none none false := by
  have hregistered : ((bare.registerAll spelledSources).run.run {}).1.toOption.any (fun e =>
      (e.directories.metadataAt? "docs/intro").isSome) = true := by
    decide +kernel
  obtain ⟨e, he, hfound⟩ := (Option.any_eq_true _ _).1 hregistered
  have hreached : e.Reached := reached_bare.registerAll he
  have hdirect : Path.Direct "docs//intro" := ⟨Path.isNormal_iff.2 (by decide +kernel), by decide⟩
  have hdirect' : Path.Direct "docs/intro" := ⟨Path.isNormal_iff.2 (by decide +kernel), by decide⟩
  have hnot : ¬Path.IsNormal (Path.parent "./docs/intro") := mt Path.isNormal_iff.1 (by decide +kernel)
  obtain ⟨hsame, hparts, -⟩ := lookups_spelled (p := "docs//intro") (q := "docs/intro") hreached
    (by decide +kernel) (by decide +kernel) (by decide +kernel)
  obtain ⟨hparent, hname⟩ := hparts hdirect hdirect'
  obtain ⟨hmetadata, -, hignores, hrender⟩ := hsame hparent hname
  obtain ⟨-, -, hnothing⟩ := lookups_spelled (p := "./docs/intro") (q := "docs/intro") hreached
    (by decide +kernel) (by decide +kernel) (by decide +kernel)
  exact ⟨e, hreached, hfound, hmetadata, hignores, hrender, hnothing hnot⟩

end Engine

end NestedSite
