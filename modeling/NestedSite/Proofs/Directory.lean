import NestedSite.Proofs.Relative
import NestedSite.Site.Metadata

/-!
# Directories of paths

The directory of a path in its shortest spelling is in its shortest spelling (`isNormal_parent`), and is where the
metadata of the path is looked up (`Directories.directoryOf_of_isNormal`). If the last segment of a path is a name, its
shortest spelling ends in the name, after the shortest spelling of its directory (`parent_reduce`, `name_reduce`). So a
path keeps its directory and its name in its shortest spelling if the directory is in its shortest spelling already
(`Direct.normalize`).

An extension that is put on a last segment without points is one that is taken off again
(`Pointless.withoutExtension_extended`), but it is a part of the name (`Pointless.name_extended`).
-/

namespace NestedSite

namespace Path

/-! ## Directories in their shortest spelling -/

/-- The directory of a path in its shortest spelling is in its shortest spelling. -/
theorem isNormal_parent {path : String} (h : IsNormal path) : IsNormal (parent path) where
  shortest := shortest_parent h.shortest
  slashes hmem := (mem_parent hmem).elim (by decide) h.slashes

theorem isNormal_relativeTo (cwd base path : String) : IsNormal (relativeTo cwd base path) := isNormal_normalize _

end Path

/-- The metadata of a path in its shortest spelling is looked up in its directory. -/
theorem Directories.directoryOf_of_isNormal {path : String} (h : Path.IsNormal path) :
    directoryOf path = Path.parent path := by
  rcases h.shortest.cases with rfl | rfl | rfl | ⟨root, init, last, hway, rfl⟩
  · decide +kernel
  · decide +kernel
  · decide +kernel
  · have heq := hway.toList_spell
    rw [Path.unsegments_append, ← List.append_assoc] at heq
    unfold directoryOf
    rw [Path.not_endsWith_slash heq hway.last_ne_nil hway.last_plain, if_neg Bool.false_ne_true]

namespace Path

/-! ## Paths that end in a name -/

/-- The shortest spelling is settled by the slashes at the front and by what following the segments leaves. -/
theorem reduceChars_congr {cs ds : List Char} (hroot : rootSlashes cs = rootSlashes ds)
    (hfollow : ∀ rooted, follow rooted [] (segments cs) = follow rooted [] (segments ds)) :
    reduceChars cs = reduceChars ds := by
  simp only [reduceChars, hroot, hfollow]

/-- Slashes at the end of a path lead nowhere. -/
theorem reduceChars_dropEndSlashes {cs : List Char} (h : ¬cs.all (· == '/') = true) :
    reduceChars (dropEndSlashes cs) = reduceChars cs := by
  induction cs using List.reverseRecOn with
  | nil => exact absurd rfl h
  | append_singleton cs c ih =>
    by_cases hc : c = '/'
    · subst hc
      have hcs : ¬cs.all (· == '/') = true := fun hall => h (by simpa using hall)
      rw [dropEndSlashes_concat_slash, ih hcs]
      refine reduceChars_congr ?_ fun rooted => ?_
      · unfold rootSlashes
        rw [takeWhile_append_eq _ fun hall => absurd hall hcs]
      · rw [segments_append]
        exact (follow_still rfl _ _).symm
    · rw [dropEndSlashes_append (by simp) (by simpa using Ne.symm hc)]

/-- A path ends in a name, but for slashes, and `head` stands before the name. -/
structure EndsInName (path : String) (head : List Char) : Prop where
  isLast : IsLast (name path)
  parts : dropEndSlashes path.toList = head ++ (name path).toList
  slash : ∀ c ∈ head.getLast?, c = '/'

namespace EndsInName

variable {path : String} {head : List Char}

theorem of_isLast (h : IsLast (name path)) : ∃ head, EndsInName path head := by
  obtain ⟨hparts, -, hhead⟩ := splitLast_parts (dropEndSlashes path.toList)
  refine ⟨_, h, ?_, hhead⟩
  rw [name, String.toList_ofList]
  exact hparts.symm

/-- What following the segments before the name leaves, and the name. -/
theorem isWay (h : EndsInName path head) :
    IsWay (rootSlashes head) (follow (!(rootSlashes head).isEmpty) [] (segments head) ++ [(name path).toList]) :=
  (isWay_follow (rootSlashes_isRoot head) head).snoc h.isLast

theorem reduce_eq (h : EndsInName path head) : reduce path = spell (rootSlashes head)
    (follow (!(rootSlashes head).isEmpty) [] (segments head) ++ [(name path).toList]) := by
  -- there is a name, so that the slashes at the end do not matter
  have hnot : ¬path.toList.all (· == '/') = true := by
    intro hall
    obtain ⟨c, hc⟩ := List.exists_mem_of_ne_nil _ h.isLast.toList_ne_nil
    have hmem : c ∈ path.toList := mem_dropEndSlashes (h.parts ▸ List.mem_append_right head hc)
    exact h.isLast.slash (beq_iff_eq.1 (List.all_eq_true.1 hall c hmem) ▸ hc)
  refine String.toList_inj.1 ?_
  rw [h.isWay.toList_spell, reduce, String.toList_ofList, ← reduceChars_dropEndSlashes hnot, h.parts,
    reduceChars_append h.slash h.isLast.toList_ne_nil h.isLast.slash h.isLast.isStill h.isLast.isUp]

theorem reduce_parent_eq (h : EndsInName path head) : reduce (parent path) = .ofList (reduceChars head) := by
  refine congrArg String.ofList ?_
  rw [parent, h.parts, parentChars, splitLast_append h.isLast.slash h.slash]
  dsimp only
  by_cases hall : head.all (· == '/') = true
  · rw [if_pos hall]
    cases head with
    | nil => rfl
    | cons c cs => rw [String.toList_ofList]
  · rw [if_neg hall, ← reduceChars_dropEndSlashes hall]
    cases hdrop : dropEndSlashes head with
    | nil => rfl
    | cons c cs => rw [String.toList_ofList]

end EndsInName

variable {path : String}

/-- The shortest spelling of a path that ends in a name is that of its directory, and the name. -/
theorem parent_reduce (h : IsLast (name path)) : parent (reduce path) = reduce (parent path) := by
  obtain ⟨head, hends⟩ := EndsInName.of_isLast h
  rw [hends.reduce_eq, parent_spell hends.isWay, hends.reduce_parent_eq, ofList_reduceChars]

theorem name_reduce (h : IsLast (name path)) : name (reduce path) = name path := by
  obtain ⟨head, hends⟩ := EndsInName.of_isLast h
  rw [hends.reduce_eq, name_spell hends.isWay, String.ofList_toList]

theorem isNormal_iff : IsNormal path ↔ normalize path = path :=
  ⟨IsNormal.normalize_eq, fun h => h ▸ isNormal_normalize path⟩

/-- A path that ends in a name, after a directory in its shortest spelling. -/
structure Direct (path : String) : Prop where
  directory : IsNormal (parent path)
  isName : IsName (name path)

theorem mem_dropEndSlashes_of_ne {c : Char} (hc : c ≠ '/') {cs : List Char} (h : c ∈ cs) : c ∈ dropEndSlashes cs := by
  rw [← List.mem_reverse, ← List.takeWhile_append_dropWhile (p := (· == '/')) (l := cs.reverse), List.mem_append] at h
  rcases h with h | h
  · have hall := List.mem_takeWhile_imp h
    exact absurd (beq_iff_eq.1 hall) hc
  · exact List.mem_reverse.2 h

namespace Direct

theorem no_backslash (h : Direct path) : '\\' ∉ path.toList := by
  intro hmem
  obtain ⟨head, hends⟩ := EndsInName.of_isLast h.isName.isLast
  have hslash : '\\' ≠ '/' := by decide
  have hhead : '\\' ∈ head := by
    have hparts := mem_dropEndSlashes_of_ne hslash hmem
    rw [hends.parts] at hparts
    exact (List.mem_append.1 hparts).resolve_right h.isName.backslash
  -- what stands before the name is the directory, but for slashes
  have hdirectory : '\\' ∈ parentChars (dropEndSlashes path.toList) := by
    rw [hends.parts, parentChars, splitLast_append h.isName.slash hends.slash]
    dsimp only
    split
    · exact hhead
    · exact mem_dropEndSlashes_of_ne hslash hhead
  refine h.directory.slashes ?_
  unfold parent
  split
  · rename_i hnil
    rw [hnil] at hdirectory
    cases hdirectory
  · rwa [String.toList_ofList]

/-- Such a path keeps its directory and its name. -/
theorem normalize (h : Direct path) : parent (normalize path) = parent path ∧ name (normalize path) = name path := by
  rw [Path.normalize, unify_eq h.no_backslash]
  refine ⟨(parent_reduce h.isName.isLast).trans ?_, name_reduce h.isName.isLast⟩
  rw [reduce, h.directory.shortest.reduceChars_eq, String.ofList_toList]

end Direct

/-! ## Extensions that are put on -/

/-- What may stand behind the point of an extension. -/
structure IsExtension (ext : String) : Prop where
  point : '.' ∉ ext.toList
  slash : '/' ∉ ext.toList
  backslash : '\\' ∉ ext.toList

/-- A path in its shortest spelling whose last segment is not empty and has no point. -/
structure Pointless (path : String) : Prop where
  normal : IsNormal path
  name_ne : name path ≠ ""
  point : '.' ∉ (name path).toList

namespace Pointless

variable {ext : String}

theorem cases (h : Pointless path) :
    ∃ root init last, IsWay root (init ++ [last]) ∧ '.' ∉ last ∧ path = spell root (init ++ [last]) := by
  obtain ⟨⟨hshortest, -⟩, hne, hpoint⟩ := h
  rcases hshortest.cases with rfl | rfl | rfl | ⟨root, init, last, hway, rfl⟩
  · exact absurd (by decide) hpoint
  · exact absurd (by decide) hne
  · exact absurd (by decide) hne
  · rw [name_spell hway, String.toList_ofList] at hpoint
    exact ⟨root, init, last, hway, hpoint, rfl⟩

theorem slash_extended (hext : IsExtension ext) {last : List Char} (hlast : '/' ∉ last) :
    '/' ∉ last ++ '.' :: ext.toList := by
  intro hmem
  rcases List.mem_append.1 hmem with hmem | hmem
  · exact hlast hmem
  · rcases List.mem_cons.1 hmem with hc | hmem
    · exact absurd hc (by decide)
    · exact hext.slash hmem

theorem any_of_point {last : List Char} (hne : last ≠ []) (hpoint : '.' ∉ last) : last.any (· != '.') = true := by
  obtain ⟨c, hc⟩ := List.exists_mem_of_ne_nil last hne
  refine List.any_eq_true.2 ⟨c, hc, bne_iff_ne.2 ?_⟩
  rintro rfl
  exact hpoint hc

/-- The extension is put on the last segment. -/
theorem exists_extended (h : Pointless path) (hext : IsExtension ext) : ∃ root init last,
    (IsWay root (init ++ [last]) ∧ '.' ∉ last ∧ path = spell root (init ++ [last])) ∧
      IsWay root (init ++ [last ++ '.' :: ext.toList]) ∧
      path ++ "." ++ ext = spell root (init ++ [last ++ '.' :: ext.toList]) := by
  obtain ⟨root, init, last, hway, hpoint, rfl⟩ := h.cases
  have hany : (last ++ '.' :: ext.toList).any (· != '.') = true := by simp [any_of_point hway.last_ne_nil hpoint]
  obtain ⟨hstill, hup⟩ := isStill_eq_false hany
  have hextended := hway.dropLast.concat hstill hup (slash_extended hext hway.last_plain)
  refine ⟨root, init, last, ⟨hway, hpoint, rfl⟩, hextended, String.toList_inj.1 ?_⟩
  rw [hextended.toList_spell, String.toList_append, String.toList_append, hway.toList_spell, unsegments_append,
    unsegments_append]
  simp

theorem isNormal_extended (h : Pointless path) (hext : IsExtension ext) : IsNormal (path ++ "." ++ ext) where
  shortest := by
    obtain ⟨root, init, last, -, hextended, heq⟩ := h.exists_extended hext
    rw [heq]
    exact hextended.shortest_spell
  slashes hmem := by
    rw [String.toList_append, String.toList_append, List.append_assoc] at hmem
    rcases List.mem_append.1 hmem with hmem | hmem
    · exact h.normal.slashes hmem
    · rcases List.mem_append.1 hmem with hmem | hmem
      · exact absurd hmem (by decide)
      · exact hext.backslash hmem

/-- The extension that was put on is what is taken off. -/
theorem withoutExtension_extended (h : Pointless path) (hext : IsExtension ext) :
    withoutExtension (path ++ "." ++ ext) = path := by
  obtain ⟨root, init, last, ⟨hway, hpoint, rfl⟩, hextended, heq⟩ := h.exists_extended hext
  have htail : (last ++ '.' :: ext.toList).reverse.takeWhile (· != '.') = ext.toList.reverse := by
    rw [List.reverse_append, List.reverse_cons, List.append_assoc, List.takeWhile_append_of_pos]
    · simp
    · rintro c hc
      exact bne_iff_ne.2 fun heq => hext.point (heq ▸ List.mem_reverse.1 hc)
  have hlength : (last ++ '.' :: ext.toList).length = last.length + ext.toList.length + 1 := by
    rw [List.length_append, List.length_cons, Nat.add_assoc]
  have htake : (last ++ '.' :: ext.toList).take
      ((last ++ '.' :: ext.toList).length - ext.toList.reverse.reverse.length - 1) = last := by
    rw [hlength, List.reverse_reverse]
    exact List.take_left' (by omega)
  have hlt : ext.toList.reverse.reverse.length < (last ++ '.' :: ext.toList).length := by
    rw [hlength, List.reverse_reverse]
    omega
  unfold withoutExtension splitExtension
  rw [heq, hextended.toList_spell, splitLast_path hextended.isRoot init hextended.last_plain]
  dsimp only
  rw [htail, htake, any_of_point hway.last_ne_nil hpoint, if_pos (Bool.and_eq_true_iff.2 ⟨decide_eq_true hlt, rfl⟩)]
  dsimp only
  rw [List.append_assoc, ← unsegments_append, ← hway.toList_spell, String.ofList_toList]

/-- The name is the one with the extension. -/
theorem name_extended (h : Pointless path) (hext : IsExtension ext) :
    name (path ++ "." ++ ext) = name path ++ "." ++ ext := by
  obtain ⟨root, init, last, ⟨hway, -, rfl⟩, hextended, heq⟩ := h.exists_extended hext
  refine String.toList_inj.1 ?_
  rw [heq, name_spell hextended, name_spell hway]
  simp

end Pointless

end Path

end NestedSite
