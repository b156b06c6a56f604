import Mathlib.Data.List.Infix
import Mathlib.Data.List.TakeWhile
import NestedSite.Proofs.Ways

/-!
# Pages and their indices

A path that leads through names (`ofNames`) is in its shortest spelling, so that its last name, its directory and what
is joined to it are found without looking at characters. The ancestors of a page are the page itself, and the indices of
all beginnings of its directory from the longest to the root (`ancestorChain_ofNames`). Whatever the path, all of them
are in their shortest spelling (`isNormal_of_mem_ancestorChain`). What is joined to a directory tells the name that is
joined (`join_inj`).

Climbing from directory to directory takes the segments of any path off one by one, then the root, and ends at `.`
(`Climbs`, `exists_climbs`). The indices on the way get shorter with every step, so that no level of a page comes twice
(`ancestorChain_climbs`).
-/

namespace NestedSite.Path

/-- The path that leads through names. -/
def ofNames (names : List String) : String := .ofList (unsegments (names.map String.toList))

example : ofNames ["a", "b"] = "a/b" := by decide

/-- The directory that names lead to from the root. -/
def ofDirectory (names : List String) : String := if names.isEmpty then "." else ofNames names

/-- The path of the index of a directory. -/
def indexOf (directory : List String) : String := ofNames (directory ++ [indexName])

theorem toList_ofNames (names : List String) : (ofNames names).toList = unsegments (names.map String.toList) :=
  String.toList_ofList

theorem ofDirectory_concat (init : List String) (s : String) : ofDirectory (init ++ [s]) = ofNames (init ++ [s]) := by
  simp [ofDirectory]

/-! ## The shortest spelling -/

theorem isWay_names {names : List String} (h : ∀ s ∈ names, IsName s) : IsWay [] (names.map String.toList) := by
  induction names using List.reverseRecOn with
  | nil => exact ⟨.inl rfl, trivial, by simp⟩
  | append_singleton names s ih =>
    obtain ⟨hnames, hs⟩ := List.forall_mem_append.1 h
    rw [List.map_append]
    exact (ih hnames).snoc (hs s List.mem_cons_self).isLast

theorem isWay_names_concat {init : List String} {s : String} (h : ∀ t ∈ init ++ [s], IsName t) :
    IsWay [] (init.map String.toList ++ [s.toList]) := by
  have hway := isWay_names h
  rwa [List.map_append] at hway

theorem spell_names {names : List String} (h : ∀ s ∈ names, IsName s) :
    spell [] (names.map String.toList) = ofDirectory names := by
  rcases List.eq_nil_or_concat names with rfl | ⟨init, s, rfl⟩
  · rfl
  · rw [List.concat_eq_append] at *
    refine String.toList_inj.1 ?_
    rw [ofDirectory_concat, toList_ofNames, List.map_append]
    exact (isWay_names_concat h).toList_spell

theorem spell_names_concat {init : List String} {s : String} (h : ∀ t ∈ init ++ [s], IsName t) :
    spell [] (init.map String.toList ++ [s.toList]) = ofNames (init ++ [s]) := by
  have hspell := spell_names h
  rwa [List.map_append, ofDirectory_concat] at hspell

theorem isNormal_ofNames {init : List String} {s : String} (h : ∀ t ∈ init ++ [s], IsName t) :
    IsNormal (ofNames (init ++ [s])) where
  shortest := spell_names_concat h ▸ (isWay_names_concat h).shortest_spell
  slashes hmem := by
    rw [toList_ofNames] at hmem
    rcases mem_unsegments hmem with hmem | ⟨cs, hcs, hmem⟩
    · cases hmem
    · obtain ⟨t, ht, rfl⟩ := List.mem_map.1 hcs
      exact (h t ht).backslash hmem

/-! ## Names and directories -/

theorem toList_ofNames_concat (init : List String) (s : String) :
    (ofNames (init ++ [s])).toList = (init.map String.toList).flatMap (· ++ ['/']) ++ s.toList := by
  rw [toList_ofNames, List.map_append, List.map_singleton, unsegments_append]

/-- What stands before the last name: nothing, or the directory and a slash. -/
theorem flatMap_slash_concat (init : List String) (s : String) :
    ((init ++ [s]).map String.toList).flatMap (· ++ ['/']) = (ofNames (init ++ [s])).toList ++ ['/'] := by
  rw [toList_ofNames_concat]
  simp

theorem name_ofNames {init : List String} {s : String} (hs : IsName s) : name (ofNames (init ++ [s])) = s := by
  rw [name, toList_ofNames_concat, dropEndSlashes_append hs.isLast.toList_ne_nil hs.slash,
    splitLast_append hs.slash (getLast?_flatMap_slash _), String.ofList_toList]

theorem parent_ofNames {init : List String} {s : String} (h : ∀ t ∈ init ++ [s], IsName t) :
    parent (ofNames (init ++ [s])) = ofDirectory init := by
  have hinit : ∀ t ∈ init, IsName t := fun t ht => h t (List.mem_append_left _ ht)
  rw [← spell_names_concat h, parent_spell (isWay_names_concat h), spell_names hinit]

/-- A path is its last segment and what stands before it, which ends in a slash. -/
theorem splitLast_parts (cs : List Char) : (splitLast cs).1 ++ (splitLast cs).2 = cs ∧ '/' ∉ (splitLast cs).2 ∧
    ∀ c ∈ (splitLast cs).1.getLast?, c = '/' := by
  have hsplit : cs = (cs.reverse.dropWhile (· != '/')).reverse ++ (cs.reverse.takeWhile (· != '/')).reverse := by
    rw [← List.reverse_append, List.takeWhile_append_dropWhile, List.reverse_reverse]
  have hname : '/' ∉ (cs.reverse.takeWhile (· != '/')).reverse := fun h => by
    simpa using List.mem_takeWhile_imp (List.mem_reverse.1 h)
  have hhead : ∀ c ∈ ((cs.reverse.dropWhile (· != '/')).reverse).getLast?, c = '/' := by
    intro c hc
    rw [List.getLast?_reverse] at hc
    have hnot := List.head?_dropWhile_not (· != '/') cs.reverse
    rw [Option.mem_def.1 hc] at hnot
    simpa using hnot
  have heq := splitLast_append hname hhead
  rw [← hsplit] at heq
  rw [heq]
  exact ⟨hsplit.symm, hname, hhead⟩

/-- Without a point in its last segment, a path has no extension. -/
theorem withoutExtension_of_name {path : String} (h : '.' ∉ (name path).toList) :
    withoutExtension path = path := by
  obtain ⟨hparts, hslash, -⟩ := splitLast_parts path.toList
  rcases splitExtension_cases path with ⟨hsame, -⟩ | ⟨-, -, hstem, hlt⟩
  · exact hsame
  · -- there is a last segment, so that no slash ends the path
    have hne : (splitLast path.toList).2 ≠ [] := fun hnil => by simp [hnil] at hlt
    have hname : (name path).toList = (splitLast path.toList).2 := by
      have hkept : dropEndSlashes path.toList = path.toList := by
        rw [← hparts]
        exact dropEndSlashes_append hne hslash
      rw [name, String.toList_ofList, hkept]
    rw [hname] at h
    have htail : ((splitLast path.toList).2.reverse.takeWhile (· != '.')) = (splitLast path.toList).2.reverse :=
      List.takeWhile_eq_self_iff.2 fun c hc => bne_iff_ne.2 fun heq => h (heq ▸ List.mem_reverse.1 hc)
    simp [stem, htail] at hstem

theorem withoutExtension_ofNames {init : List String} {s : String} (hs : IsName s) (hdots : '.' ∉ s.toList) :
    withoutExtension (ofNames (init ++ [s])) = ofNames (init ++ [s]) :=
  withoutExtension_of_name (by rwa [name_ofNames hs])

theorem withoutExtension_indexOf (directory : List String) : withoutExtension (indexOf directory) = indexOf directory :=
  withoutExtension_ofNames isName_indexName (by decide)

theorem isName_index {directory : List String} (h : ∀ s ∈ directory, IsName s) :
    ∀ s ∈ directory ++ [indexName], IsName s :=
  List.forall_mem_append.2 ⟨h, List.forall_mem_singleton.2 isName_indexName⟩

theorem isNormal_indexOf {directory : List String} (h : ∀ s ∈ directory, IsName s) : IsNormal (indexOf directory) :=
  isNormal_ofNames (isName_index h)

theorem join_ofDirectory {directory : List String} (h : ∀ s ∈ directory, IsName s) :
    join (ofDirectory directory) [indexName] = indexOf directory := by
  rw [← spell_names h, join_spell (isWay_names_concat (isName_index h)), spell_names_concat (isName_index h), indexOf]

/-! ## Names that are joined -/

/-- What is joined to a directory is the last segment of the path. -/
theorem splitLast_join (directory : String) {s : String} (h : IsLast s) :
    (splitLast (join directory [s]).toList).2 = s.toList := by
  obtain ⟨head, happend, hhead⟩ := appendChars_eq directory.toList h.slash
  have hjoin : (join directory [s]).toList = reduceChars (head ++ s.toList) := by
    rw [← happend]
    simp [join, append, reduce]
  rw [hjoin, reduceChars_append hhead h.toList_ne_nil h.slash h.isStill h.isUp,
    splitLast_path (rootSlashes_isRoot head) _ h.slash]

/-- Different names are joined to a directory at different paths. -/
theorem join_inj {directory s t : String} (hs : IsLast s) (ht : IsLast t)
    (h : join directory [s] = join directory [t]) : s = t := by
  refine String.toList_inj.1 ?_
  rw [← splitLast_join directory hs, ← splitLast_join directory ht, h]

/-! ## Ancestors -/

theorem ofNames_ne_here {init : List String} {s : String} (h : ∀ t ∈ init ++ [s], IsName t) :
    ofNames (init ++ [s]) ≠ "." := by
  intro heq
  have hname : name (ofNames (init ++ [s])) = s := name_ofNames (h s (by simp))
  rw [heq] at hname
  exact (h s (by simp)).ne_here hname.symm

theorem ofDirectory_ne {init : List String} {s : String} (h : ∀ t ∈ init ++ [s], IsName t) :
    ofDirectory init ≠ ofNames (init ++ [s]) := by
  rcases List.eq_nil_or_concat init with rfl | ⟨above, t, rfl⟩
  · exact (ofNames_ne_here h).symm
  · rw [List.concat_eq_append, ofDirectory_concat]
    intro heq
    have hlength := congrArg (fun path => path.toList.length) heq
    simp only [toList_ofNames_concat (above ++ [t]), flatMap_slash_concat, List.length_append,
      List.length_singleton] at hlength
    omega

theorem length_le_flatMap_slash (names : List String) :
    names.length ≤ ((names.map String.toList).flatMap (· ++ ['/'])).length := by
  induction names with
  | nil => exact Nat.le_refl _
  | cons s names ih =>
    simp only [List.map_cons, List.flatMap_cons, List.length_append, List.length_cons, List.length_nil]
    omega

theorem tail_reverse_inits_concat (init : List String) (s : String) :
    (init ++ [s]).inits.reverse.tail = init.inits.reverse := by
  simp [List.inits_append]

theorem reverse_inits_eq (directory : List String) :
    directory.inits.reverse = directory :: directory.inits.reverse.tail := by
  rcases List.eq_nil_or_concat directory with rfl | ⟨init, s, rfl⟩
  · rfl
  · simp [List.inits_append]

/-- The indices of the directories above a directory, from the nearest to the root. -/
theorem indicesAbove_ofDirectory {directory : List String} (h : ∀ s ∈ directory, IsName s) {fuel : Nat}
    (hfuel : directory.length ≤ fuel) :
    indicesAbove fuel (ofDirectory directory) = directory.inits.reverse.tail.map indexOf := by
  induction directory using List.reverseRecOn generalizing fuel with
  | nil => cases fuel <;> rfl
  | append_singleton init s ih =>
    obtain ⟨fuel, rfl⟩ : ∃ n, fuel = n + 1 := ⟨fuel - 1, by simp at hfuel; omega⟩
    have hinit : ∀ t ∈ init, IsName t := fun t ht => h t (List.mem_append_left _ ht)
    have hs := h s (by simp)
    have hhead := reverse_inits_eq init
    rw [ofDirectory_concat, indicesAbove, if_neg (by simpa using ofNames_ne_here h)]
    simp only [parent_ofNames h]
    rw [if_neg (by simpa using ofDirectory_ne h), join_ofDirectory hinit, ih hinit (by simp at hfuel; omega),
      tail_reverse_inits_concat, ← List.map_cons, ← hhead]

/-- A page that is no index goes through the indices of its directory and of all directories above. -/
theorem ancestorChain_ofNames {directory : List String} {leaf : String} (h : ∀ s ∈ directory, IsName s)
    (hleaf : IsName leaf) (hdots : '.' ∉ leaf.toList) (hindex : leaf ≠ indexName) :
    ancestorChain (ofNames (directory ++ [leaf])) =
      ofNames (directory ++ [leaf]) :: directory.inits.reverse.map indexOf := by
  have hall : ∀ s ∈ directory ++ [leaf], IsName s := fun s hs =>
    (List.mem_append.1 hs).elim (h s) fun hs => List.mem_singleton.1 hs ▸ hleaf
  have hlength : directory.length ≤ (ofNames (directory ++ [leaf])).length + 1 := by
    have hnames := length_le_flatMap_slash directory
    rw [← String.length_toList, toList_ofNames_concat, List.length_append]
    omega
  have hnormal := isNormal_ofNames hall
  unfold ancestorChain
  simp only [hnormal.normalize_eq, withoutExtension_ofNames hleaf hdots, parent_ofNames hall, name_ofNames hleaf]
  rw [if_neg (by simpa using hindex), join_ofDirectory h, indicesAbove_ofDirectory h hlength, List.cons_append,
    List.singleton_append, ← List.map_cons, ← reverse_inits_eq]

/-! ## Levels -/

/-- Taking the extension off shortens the last segment, if anything, and leaves something of it. -/
theorem withoutExtension_cases (path : String) : withoutExtension path = path ∨ ∃ head name short : List Char,
    path.toList = head ++ name ∧ (withoutExtension path).toList = head ++ short ∧
      (name ≠ [] ∧ '/' ∉ name) ∧ (short ≠ [] ∧ '/' ∉ short) ∧ ∀ c ∈ head.getLast?, c = '/' := by
  rcases splitExtension_cases path with ⟨hw, -⟩ | ⟨hw, -, hstem, hlt⟩
  · exact .inl hw
  · obtain ⟨hparts, hname, hhead⟩ := splitLast_parts path.toList
    refine .inr ⟨_, _, _, hparts.symm, by rw [hw, String.toList_ofList], ⟨?_, hname⟩, ⟨?_, ?_⟩, hhead⟩
    · intro h
      simp [h] at hlt
    · intro h
      simp [h] at hstem
    · exact fun h => hname (stem_subset _ _ h)

/-- An extension does not count for the directory. -/
theorem parent_withoutExtension (path : String) : parent (withoutExtension path) = parent path := by
  obtain hw | ⟨head, name, short, hpath, hw, ⟨hne, hname⟩, ⟨hne', hshort⟩, hhead⟩ := withoutExtension_cases path
  · rw [hw]
  · unfold parent parentChars
    rw [hpath, hw, dropEndSlashes_append hne hname, dropEndSlashes_append hne' hshort, splitLast_append hname hhead,
      splitLast_append hshort hhead]

theorem not_endsWith_slash {path : String} {cs last : List Char} (h : path.toList = cs ++ last) (hne : last ≠ [])
    (hslash : '/' ∉ last) : path.endsWith "/" = false := by
  rw [Bool.eq_false_iff, String.endsWith_eq_endsWith_toSlice, Ne, String.Slice.endsWith_string_iff,
    String.copy_toSlice, h]
  rintro ⟨init, hinit⟩
  have hlast := congrArg List.getLast? hinit
  rw [List.getLast?_append_of_ne_nil _ hne] at hlast
  have hmem : '/' ∈ last := List.mem_of_getLast? (hlast.symm.trans (by simp))
  exact hslash hmem

theorem mem_dropEndSlashes {c : Char} {cs : List Char} (h : c ∈ dropEndSlashes cs) : c ∈ cs :=
  List.mem_reverse.1 ((List.dropWhile_sublist _).subset (List.mem_reverse.1 h))

theorem mem_parent {c : Char} {path : String} (h : c ∈ (parent path).toList) : c = '.' ∨ c ∈ path.toList := by
  have hhead {cs : List Char} (hc : c ∈ parentChars cs) : c ∈ cs := by
    unfold parentChars at hc
    dsimp only at hc
    split at hc
    · exact List.mem_of_mem_take hc
    · exact List.mem_of_mem_take (mem_dropEndSlashes hc)
  unfold parent at h
  split at h
  · exact .inl (by simpa using h)
  · rw [String.toList_ofList] at h
    exact .inr (mem_dropEndSlashes (hhead h))

theorem isNormal_join_index {directory : String} (h : '\\' ∉ directory.toList) :
    IsNormal (join directory [indexName]) where
  shortest := by
    rw [join, reduce, String.toList_ofList]
    exact shortest_reduceChars _
  slashes hc := by
    rw [join, reduce, String.toList_ofList] at hc
    have hindex : '\\' ∉ indexName.toList := by decide
    rcases mem_reduceChars hc with hc | hc | hc
    · simp only [List.foldl_cons, List.foldl_nil, append, String.toList_ofList] at hc
      unfold appendChars at hc
      split at hc
      · exact hindex hc
      · split at hc
        · exact (List.mem_append.1 hc).elim h hindex
        · refine (List.mem_append.1 hc).elim h fun hc => ?_
          exact (List.mem_cons.1 hc).elim (by decide) hindex
    · exact absurd hc (by decide)
    · exact absurd hc (by decide)

theorem isNormal_of_mem_indicesAbove {fuel : Nat} {directory level : String} (h : '\\' ∉ directory.toList)
    (hl : level ∈ indicesAbove fuel directory) : IsNormal level := by
  induction fuel generalizing directory with
  | zero => cases hl
  | succ fuel ih =>
    have hup : '\\' ∉ (parent directory).toList := fun hc => (mem_parent hc).elim (by decide) h
    unfold indicesAbove at hl
    split at hl
    · cases hl
    · dsimp only at hl
      split at hl
      · cases hl
      · rcases List.mem_cons.1 hl with rfl | hl
        · exact isNormal_join_index hup
        · exact ih hup hl

/-- All levels of a page are in their shortest spelling. -/
theorem isNormal_of_mem_ancestorChain {path level : String} (h : level ∈ ancestorChain path) : IsNormal level := by
  have hleaf := isNormal_withoutExtension (isNormal_normalize path)
  unfold ancestorChain at h
  dsimp only at h
  generalize withoutExtension (normalize path) = leaf at h hleaf
  have hparent : '\\' ∉ (parent leaf).toList := fun hc => (mem_parent hc).elim (by decide) hleaf.slashes
  generalize parent leaf = directory at h hparent
  rcases List.mem_append.1 h with h | h
  · rcases List.mem_cons.1 h with rfl | h
    · exact hleaf
    · split at h
      · cases h
      · rw [List.mem_singleton.1 h]
        exact isNormal_join_index hparent
  · exact isNormal_of_mem_indicesAbove hparent h

/-- A page begins with the level of its own template. -/
theorem withoutExtension_mem_ancestorChain {path : String} (h : IsNormal path) :
    withoutExtension path ∈ ancestorChain path := by
  unfold ancestorChain
  dsimp only
  rw [h.normalize_eq]
  exact List.mem_append_left _ List.mem_cons_self

/-! ## Climbing -/

/-- The path of the index in a directory. -/
def indexIn (directory : String) : String := join directory [indexName]

theorem toList_indexIn_spell {root : List Char} {ss : List (List Char)} (h : IsWay root ss) :
    (indexIn (spell root ss)).toList = root ++ ss.flatMap (· ++ ['/']) ++ indexName.toList := by
  have hway := h.snoc isLast_indexName
  rw [indexIn, join_spell hway, hway.toList_spell, unsegments_append, List.append_assoc]

theorem name_indexIn {directory : String} (h : Shortest directory.toList) : name (indexIn directory) = indexName := by
  rcases h.cases with rfl | rfl | rfl | ⟨root, init, last, hway, rfl⟩
  · decide
  · decide
  · decide
  · have hindex := hway.snoc isLast_indexName
    rw [indexIn, join_spell hindex, name_spell hindex, String.ofList_toList]

/-- The index of the directory above is shorter than that of the directory, unless there is none above. -/
theorem length_indexIn_parent_lt {directory : String} (h : Shortest directory.toList) (hne : directory ≠ ".") :
    (indexIn (parent directory)).toList.length < (indexIn directory).toList.length := by
  rcases h.cases with rfl | rfl | rfl | ⟨root, init, last, hway, rfl⟩
  · exact absurd rfl hne
  · decide
  · decide
  · rw [parent_spell hway, toList_indexIn_spell hway.dropLast, toList_indexIn_spell hway]
    simp only [List.flatMap_append, List.flatMap_singleton, List.length_append, List.length_singleton]
    omega

/-- The index of the directory of a path is not much longer than the path. -/
theorem length_indexIn_parent_le {path : String} (h : Shortest path.toList) :
    (indexIn (parent path)).toList.length ≤ path.toList.length + 4 := by
  rcases h.cases with rfl | rfl | rfl | ⟨root, init, last, hway, rfl⟩
  · decide
  · decide
  · decide
  · have hlast : 0 < last.length := List.length_pos_of_ne_nil hway.last_ne_nil
    have hindex : indexName.toList.length = 5 := by decide
    rw [parent_spell hway, toList_indexIn_spell hway.dropLast, hway.toList_spell, unsegments_append]
    simp only [List.length_append, hindex]
    omega

/-- Going from a directory to the one above it, again and again, leads through the directories and ends at `.`. -/
inductive Climbs : String → List String → Prop where
  | here : Climbs "." ["."]
  | up {directory : String} {above : List String} (hne : directory ≠ ".") (hup : parent directory ≠ directory)
      (rest : Climbs (parent directory) above) : Climbs directory (directory :: above)

namespace Climbs

variable {directory : String} {ds : List String}

theorem eq_cons (h : Climbs directory ds) : ds = directory :: ds.tail := by
  cases h <;> rfl

theorem getLast? (h : Climbs directory ds) : ds.getLast? = some "." := by
  induction h with
  | here => rfl
  | up hne hup rest ih => rw [rest.eq_cons, List.getLast?_cons_cons, ← rest.eq_cons, ih]

/-- The loop puts out the indices of the directories above. -/
theorem indicesAbove_eq (h : Climbs directory ds) {fuel : Nat} (hfuel : ds.length ≤ fuel + 1) :
    indicesAbove fuel directory = ds.tail.map indexIn := by
  induction h generalizing fuel with
  | here => cases fuel <;> rfl
  | @up directory above hne hup rest ih =>
    obtain ⟨fuel, rfl⟩ : ∃ n, fuel = n + 1 := by
      have habove := congrArg List.length rest.eq_cons
      refine ⟨fuel - 1, ?_⟩
      simp only [List.length_cons] at habove hfuel
      omega
    have hrest := ih (Nat.le_of_succ_le_succ hfuel)
    rw [indicesAbove, if_neg (by simpa using hne)]
    dsimp only
    rw [if_neg (by simpa using hup), hrest, List.tail_cons]
    exact congrArg (List.map indexIn) rest.eq_cons.symm

/-- The directories on the way are in their shortest spelling, and their indices get shorter. -/
theorem of_mem (h : Climbs directory ds) (hd : Shortest directory.toList) : ∀ d ∈ ds, Shortest d.toList ∧
    (indexIn d).toList.length ≤ (indexIn directory).toList.length := by
  induction h with
  | here => simpa using hd
  | up hne hup rest ih =>
    intro d hmem
    rcases List.mem_cons.1 hmem with rfl | hmem
    · exact ⟨hd, Nat.le_refl _⟩
    · obtain ⟨hshortest, hle⟩ := ih (shortest_parent hd) d hmem
      exact ⟨hshortest, hle.trans (length_indexIn_parent_lt hd hne).le⟩

theorem nodup (h : Climbs directory ds) (hd : Shortest directory.toList) : (ds.map indexIn).Nodup := by
  induction h with
  | here => exact by simp
  | up hne hup rest ih =>
    rw [List.map_cons, List.nodup_cons]
    refine ⟨fun hmem => ?_, ih (shortest_parent hd)⟩
    obtain ⟨d, hd', heq⟩ := List.mem_map.1 hmem
    have hle := (rest.of_mem (shortest_parent hd) d hd').2
    have hlt := length_indexIn_parent_lt hd hne
    rw [heq] at hle
    omega

end Climbs

/-- Climbing ends, as the index gets shorter with every step. -/
theorem exists_climbs {directory : String} (h : Shortest directory.toList) :
    ∃ ds, Climbs directory ds ∧ ds.length + 4 ≤ (indexIn directory).toList.length := by
  induction hn : (indexIn directory).toList.length using Nat.strongRecOn generalizing directory with
  | ind n ih =>
    by_cases hne : directory = "."
    · subst hne
      subst hn
      exact ⟨["."], .here, by decide⟩
    · have hlt := length_indexIn_parent_lt h hne
      obtain ⟨ds, hclimbs, hlength⟩ := ih _ (hn ▸ hlt) (shortest_parent h) rfl
      have hup : parent directory ≠ directory := by
        intro heq
        rw [heq] at hlt
        exact Nat.lt_irrefl _ hlt
      refine ⟨directory :: ds, .up hne hup hclimbs, ?_⟩
      rw [List.length_cons]
      omega

/-! ## The levels of a page -/

/-- The levels of a page are the page, and the indices of its directory and of all directories above, down to `.`; the
index of its own directory does not count if it is the page. Climbing ends whatever the path, at the root index at
last, and no level comes twice. -/
theorem ancestorChain_climbs (path : String) : ∃ ds,
    Climbs (parent (withoutExtension (normalize path))) ds ∧
    (∀ fuel, ds.length ≤ fuel + 1 →
      indicesAbove fuel (parent (withoutExtension (normalize path))) = ds.tail.map (join · [indexName])) ∧
    ancestorChain path = withoutExtension (normalize path) ::
      (if name (withoutExtension (normalize path)) = indexName then ds.tail else ds).map (join · [indexName]) ∧
    (ancestorChain path).getLast? = some indexName ∧ (ancestorChain path).Nodup := by
  have hshortest := (isNormal_withoutExtension (isNormal_normalize path)).shortest
  have hchain : ancestorChain path = withoutExtension (normalize path) ::
      ((if name (withoutExtension (normalize path)) == indexName then []
        else [indexIn (parent (withoutExtension (normalize path)))]) ++
      indicesAbove ((withoutExtension (normalize path)).length + 1) (parent (withoutExtension (normalize path)))) := rfl
  generalize withoutExtension (normalize path) = leaf at hshortest hchain ⊢
  have hparent := shortest_parent hshortest
  obtain ⟨ds, hclimbs, hlength⟩ := exists_climbs hparent
  have hfuel : ds.length ≤ leaf.length + 1 + 1 := by
    have hle := length_indexIn_parent_le hshortest
    simp only [String.length_toList] at hle hlength
    omega
  have hlast : (ds.map indexIn).getLast? = some indexName := by
    rw [List.getLast?_map, hclimbs.getLast?]
    decide
  have hcons : ds.map indexIn = indexIn (parent leaf) :: ds.tail.map indexIn := by
    exact congrArg (List.map indexIn) hclimbs.eq_cons
  rw [hclimbs.indicesAbove_eq hfuel] at hchain
  refine ⟨ds, hclimbs, fun fuel => hclimbs.indicesAbove_eq, ?_⟩
  rw [hchain]
  by_cases hindex : name leaf = indexName
  · -- the page is the index of its own directory
    have hleaf : indexIn (parent leaf) = leaf := by
      have hjoin := join_parent_name hshortest (by rw [hindex]; decide)
      rw [hindex] at hjoin
      exact hjoin
    rw [if_pos (by simpa using hindex), if_pos hindex, List.nil_append]
    rw [hleaf] at hcons
    rw [← hcons]
    exact ⟨hcons, hlast, hclimbs.nodup hparent⟩
  · rw [if_neg (by simpa using hindex), if_neg hindex, List.singleton_append, ← hcons]
    refine ⟨rfl, ?_, List.nodup_cons.2 ⟨fun hmem => hindex ?_, hclimbs.nodup hparent⟩⟩
    · rw [hcons, List.getLast?_cons_cons, ← hcons, hlast]
    · obtain ⟨d, hd, rfl⟩ := List.mem_map.1 hmem
      exact name_indexIn (hclimbs.of_mem hparent d hd).1

example : ancestorChain "//a/../b.c/d.e" = ["//b.c/d", "//b.c/index", "//index", "index"] := by decide +kernel

end NestedSite.Path
