import NestedSite.Proofs.Ancestors

/-!
# Paths below a directory

The segments from the root to an absolute path are those that following it leaves (`fromRoot_of_isAbsolute`). Names that
are put behind a directory stand behind its segments, so that a path below a directory, spelled from there, is the path
that leads through these names, however the directory is spelled (`relative_join`, `relativeTo_below`). Names may hold
backslashes, which count as slashes in the end (`relativeTo_join`).
-/

namespace NestedSite.Path

/-! ## Segments behind segments -/

/-- A path is what its segments spell. -/
theorem unsegments_segments (cs : List Char) : unsegments (segments cs) = cs := by
  induction cs with
  | nil => rfl
  | cons c cs ih =>
    unfold segments
    cases hcs : segments cs with
    | nil => exact absurd hcs (segments_ne_nil cs)
    | cons s ss =>
      rw [hcs] at ih
      split
      · rename_i hc
        rw [beq_iff_eq.1 hc, ← ih]
        rfl
      · rw [← ih]
        cases ss <;> simp [unsegments]

/-- Names are followed to the end, one after the other. -/
theorem follow_append {rooted : Bool} {ts : List (List Char)} (h : ∀ t ∈ ts, isStill t = false ∧ isUp t = false)
    (ss stack : List (List Char)) : follow rooted stack (ss ++ ts) = follow rooted stack ss ++ ts := by
  induction ts using List.reverseRecOn with
  | nil => simp
  | append_singleton ts t ih =>
    obtain ⟨hts, ht⟩ := List.forall_mem_append.1 h
    obtain ⟨hstill, hup⟩ := ht t List.mem_cons_self
    rw [← List.append_assoc, follow_concat hstill hup, ih hts, List.append_assoc]

/-! ## From the root -/

variable {cwd root : String}

theorem head?_of_isAbsolute {path : String} (h : isAbsolute path = true) : path.toList.head? = some '/' := by
  simpa [isAbsolute] using h

theorem rootSlashes_ne_nil {cs : List Char} (h : cs.head? = some '/') : rootSlashes cs ≠ [] := by
  cases cs with
  | nil => cases h
  | cons c cs =>
    obtain rfl : c = '/' := Option.some.inj h
    unfold rootSlashes
    split <;> simp_all

/-- The segments of a root lead nowhere. -/
theorem filter_segments_root {slashes : List Char} (h : IsRoot slashes) (cs : List Char) :
    (segments (slashes ++ cs)).filter (!·.isEmpty) = (segments cs).filter (!·.isEmpty) := by
  rcases h with rfl | rfl | rfl <;> simp [segments]

/-- The shortest spelling of an absolute path keeps its root. -/
theorem reduceChars_of_slash {cs : List Char} (h : cs.head? = some '/') :
    reduceChars cs = rootSlashes cs ++ unsegments (follow true [] (segments cs)) := by
  have hne := rootSlashes_ne_nil h
  have hrooted : (!(rootSlashes cs).isEmpty) = true := by simpa using hne
  unfold reduceChars
  simp only [hrooted]
  split
  · rename_i hnil
    exact absurd (List.append_eq_nil_iff.1 hnil).1 hne
  · rfl

theorem head?_reduceChars {cs : List Char} (h : cs.head? = some '/') : (reduceChars cs).head? = some '/' := by
  have hne := rootSlashes_ne_nil h
  rw [reduceChars_of_slash h]
  rcases rootSlashes_isRoot cs with hroot | hroot | hroot
  · exact absurd hroot hne
  · rw [hroot]
    rfl
  · rw [hroot]
    rfl

/-- From the root, an absolute path leads through what following it leaves. -/
theorem filter_segments_reduceChars {cs : List Char} (h : cs.head? = some '/') :
    (segments (reduceChars cs)).filter (!·.isEmpty) = follow true [] (segments cs) := by
  have hsettled : Settled true (follow true [] (segments cs)).reverse := follow_settled trivial
  have hplain : ∀ s ∈ follow true [] (segments cs), '/' ∉ s := fun s hs =>
    (mem_follow hs).elim (fun hnil => absurd hnil List.not_mem_nil) fun hs => (mem_segments s hs).1
  rw [reduceChars_of_slash h, filter_segments_root (rootSlashes_isRoot cs)]
  generalize follow true [] (segments cs) = ss at hsettled hplain
  cases ss with
  | nil => rfl
  | cons s ss =>
    rw [segments_unsegments (by simp) hplain]
    refine List.filter_eq_self.2 fun t ht => ?_
    simpa using hsettled.head_ne t (List.mem_reverse.2 ht)

theorem fromRoot_of_isAbsolute (cwd : String) {path : String} (h : isAbsolute path = true) :
    fromRoot cwd path = follow true [] (segments path.toList) := by
  have hhead := head?_of_isAbsolute h
  rw [fromRoot, appendChars, if_pos (by simpa using hhead), filter_segments_reduceChars hhead]

theorem isAbsolute_reduce {path : String} (h : isAbsolute path = true) : isAbsolute (reduce path) = true := by
  rw [isAbsolute, reduce, String.toList_ofList, head?_reduceChars (head?_of_isAbsolute h)]
  rfl

/-- The shortest spelling leads through the same segments. -/
theorem fromRoot_reduce (cwd : String) {path : String} (h : isAbsolute path = true) :
    fromRoot cwd (reduce path) = fromRoot cwd path := by
  have hhead := head?_reduceChars (head?_of_isAbsolute h)
  rw [fromRoot_of_isAbsolute cwd h, ← filter_segments_reduceChars (head?_of_isAbsolute h), fromRoot, reduce,
    String.toList_ofList, appendChars, if_pos (by simpa using hhead), (shortest_reduceChars _).reduceChars_eq]

/-! ## Below a directory -/

theorem dropCommon_append {α : Type} [BEq α] [ReflBEq α] (xs ys : List α) : dropCommon xs (xs ++ ys) = ([], ys) := by
  induction xs with
  | nil => cases ys <;> rfl
  | cons x xs ih => rw [List.cons_append, dropCommon, if_pos (beq_self_eq_true x), ih]

theorem relative_of_fromRoot {path : String} {names : List String} (hne : names ≠ [])
    (h : fromRoot cwd path = fromRoot cwd root ++ names.map String.toList) :
    relative cwd root path = ofNames names := by
  obtain ⟨s, names, rfl⟩ := List.exists_cons_of_ne_nil hne
  rw [relative, h, dropCommon_append]
  rfl

section Below

variable {names : List String}

theorem map_toList_ne_nil (hne : names ≠ []) : names.map String.toList ≠ [] := mt List.map_eq_nil_iff.1 hne

theorem segments_ofNames (hne : names ≠ []) (h : ∀ s ∈ names, IsLast s) :
    segments (ofNames names).toList = names.map String.toList := by
  rw [toList_ofNames]
  refine segments_unsegments (map_toList_ne_nil hne) fun cs hcs => ?_
  obtain ⟨s, hs, rfl⟩ := List.mem_map.1 hcs
  exact (h s hs).slash

theorem ofNames_ne_empty (hne : names ≠ []) (h : ∀ s ∈ names, IsLast s) : ofNames names ≠ "" := by
  intro hempty
  have hsegments := segments_ofNames hne h
  rw [hempty] at hsegments
  obtain ⟨s, hs, hnil⟩ := List.mem_map.1 (hsegments ▸ List.mem_cons_self : [] ∈ names.map String.toList)
  exact (h s hs).toList_ne_nil hnil

theorem follow_names (h : ∀ s ∈ names, IsLast s) (ss : List (List Char)) :
    follow true [] (ss ++ names.map String.toList) = follow true [] ss ++ names.map String.toList := by
  refine follow_append (fun cs hcs => ?_) ss []
  obtain ⟨s, hs, rfl⟩ := List.mem_map.1 hcs
  exact ⟨(h s hs).isStill, (h s hs).isUp⟩

theorem isAbsolute_ofNames (h : ∀ s ∈ names, IsLast s) : isAbsolute (ofNames names) = false := by
  have hhead : (unsegments (names.map String.toList)).head? ≠ some '/' := by
    refine head?_unsegments (fun cs hcs => ?_) fun cs hcs => ?_
    · obtain ⟨s, hs, rfl⟩ := List.mem_map.1 hcs
      exact (h s hs).toList_ne_nil
    · obtain ⟨s, hs, rfl⟩ := List.mem_map.1 hcs
      exact (h s hs).slash
  rw [isAbsolute, toList_ofNames]
  simpa using hhead

theorem fromRoot_below (cwd : String) (hroot : isAbsolute root = true) (hne : names ≠ []) (h : ∀ s ∈ names, IsLast s) :
    fromRoot cwd (root ++ "/" ++ ofNames names) = fromRoot cwd root ++ names.map String.toList := by
  have hpath : (root ++ "/" ++ ofNames names).toList = root.toList ++ '/' :: (ofNames names).toList := by simp
  have habsolute : isAbsolute (root ++ "/" ++ ofNames names) = true := by
    rw [isAbsolute, hpath, List.head?_append, head?_of_isAbsolute hroot]
    rfl
  rw [fromRoot_of_isAbsolute cwd habsolute, fromRoot_of_isAbsolute cwd hroot, hpath, segments_append,
    segments_ofNames hne h, follow_names h]

/-- What is joined to a directory stands behind its segments, whether a slash ends its spelling or not. -/
theorem fromRoot_append (cwd : String) (hroot : isAbsolute root = true) (hne : names ≠ []) (h : ∀ s ∈ names, IsLast s) :
    isAbsolute (append root (ofNames names)) = true ∧
      fromRoot cwd (append root (ofNames names)) = fromRoot cwd root ++ names.map String.toList := by
  have hrelative : ((ofNames names).toList.head? == some '/') = false := isAbsolute_ofNames h
  rcases List.eq_nil_or_concat root.toList with hnil | ⟨cs, c, hcs⟩
  · simp [isAbsolute, hnil] at hroot
  rw [List.concat_eq_append] at hcs
  have habsolute (path : String) (hpath : root.toList <+: path.toList) : isAbsolute path = true := by
    obtain ⟨rest, hrest⟩ := hpath
    rw [isAbsolute, ← hrest, List.head?_append, head?_of_isAbsolute hroot]
    rfl
  by_cases hslash : c = '/'
  · subst hslash
    have happend : (append root (ofNames names)).toList = cs ++ '/' :: (ofNames names).toList := by
      simp [append, appendChars, hrelative, hcs]
    have hpath : isAbsolute (append root (ofNames names)) = true :=
      habsolute _ ⟨(ofNames names).toList, by rw [happend, hcs, List.append_assoc]; rfl⟩
    refine ⟨hpath, ?_⟩
    rw [fromRoot_of_isAbsolute cwd hpath, fromRoot_of_isAbsolute cwd hroot, happend, hcs, segments_append,
      segments_append, segments_ofNames hne h, follow_names h, segments, follow_still rfl]
  · have happend : append root (ofNames names) = root ++ "/" ++ ofNames names := by
      refine String.toList_inj.1 ?_
      simp [append, appendChars, hrelative, hcs, hslash]
    rw [happend]
    exact ⟨habsolute _ ⟨'/' :: (ofNames names).toList, by simp⟩, fromRoot_below cwd hroot hne h⟩

/-- A path below a directory is spelled from there by its names. -/
theorem relative_below (cwd : String) (hroot : isAbsolute root = true) (hne : names ≠ []) (h : ∀ s ∈ names, IsLast s) :
    relative cwd root (root ++ "/" ++ ofNames names) = ofNames names :=
  relative_of_fromRoot hne (fromRoot_below cwd hroot hne h)

theorem relative_join (cwd : String) (hroot : isAbsolute root = true) (hne : names ≠ []) (h : ∀ s ∈ names, IsLast s) :
    isAbsolute (join root [ofNames names]) = true ∧ relative cwd root (join root [ofNames names]) = ofNames names := by
  obtain ⟨habsolute, hfrom⟩ := fromRoot_append cwd hroot hne h
  exact ⟨isAbsolute_reduce habsolute, relative_of_fromRoot hne ((fromRoot_reduce cwd habsolute).trans hfrom)⟩

/-- What is joined to the directory of the sources is spelled as it is without the directory. -/
theorem relativeTo_join (cwd : String) (hroot : isAbsolute root = true) (hne : names ≠ []) (h : ∀ s ∈ names, IsLast s)
    (cwd' root' : String) :
    relativeTo cwd root (join root [ofNames names]) = relativeTo cwd' root' (ofNames names) := by
  obtain ⟨habsolute, hrelative⟩ := relative_join cwd hroot hne h
  rw [relativeTo, relativeTo, if_pos habsolute, if_neg (by simp [isAbsolute_ofNames h]), hrelative]

end Below

/-- A path of names below a directory is spelled from there as it is. -/
theorem relativeTo_below (cwd : String) (hroot : isAbsolute root = true) {path : String}
    (h : ∀ s ∈ segments path.toList, IsName (.ofList s)) : relativeTo cwd root (root ++ "/" ++ path) = path := by
  have hpath : path = ofNames ((segments path.toList).map String.ofList) := by
    refine String.toList_inj.1 ?_
    rw [toList_ofNames, List.map_map, show String.toList ∘ String.ofList = id from funext fun _ => String.toList_ofList,
      List.map_id, unsegments_segments]
  have hnames : ∀ s ∈ (segments path.toList).map String.ofList, IsName s := by
    intro s hs
    obtain ⟨cs, hcs, rfl⟩ := List.mem_map.1 hs
    exact h cs hcs
  have hne : (segments path.toList).map String.ofList ≠ [] := mt List.map_eq_nil_iff.1 (segments_ne_nil _)
  have habsolute : isAbsolute (root ++ "/" ++ path) = true := by
    rw [isAbsolute, String.toList_append, String.toList_append, List.append_assoc, List.head?_append,
      head?_of_isAbsolute hroot]
    rfl
  rw [relativeTo, if_pos habsolute]
  generalize (segments path.toList).map String.ofList = names at hpath hnames hne
  subst hpath
  rw [relative_below cwd hroot hne fun s hs => (hnames s hs).isLast]
  rcases List.eq_nil_or_concat names with rfl | ⟨init, s, rfl⟩
  · exact absurd rfl hne
  · rw [List.concat_eq_append] at hnames ⊢
    exact (isNormal_ofNames hnames).normalize_eq

end NestedSite.Path
