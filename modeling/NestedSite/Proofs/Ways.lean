import Mathlib.Data.List.Infix
import NestedSite.Proofs.Path

/-!
# Ways from a root

A path in its shortest spelling leads from a root through segments (`Path.IsWay`, `Path.spell`), and the shortest
spelling of any path is the way that following its segments leaves (`Path.reduce_eq_spell`). The name of such a path is
its last segment (`Path.name_spell`), its directory leads through the others (`Path.parent_spell`), and what is joined
to it stands behind its segments (`Path.join_spell`).
-/

namespace NestedSite.Path

/-! ## Names -/

/-- A name that a segment may have: it is not empty, leads somewhere, and has no separators. -/
structure IsName (s : String) : Prop where
  ne_empty : s ≠ ""
  ne_here : s ≠ "."
  ne_up : s ≠ ".."
  slash : '/' ∉ s.toList
  backslash : '\\' ∉ s.toList

instance : DecidablePred IsName := fun s =>
  decidable_of_iff (s ≠ "" ∧ s ≠ "." ∧ s ≠ ".." ∧ '/' ∉ s.toList ∧ '\\' ∉ s.toList)
    ⟨fun ⟨h, h', h'', h₁, h₂⟩ => ⟨h, h', h'', h₁, h₂⟩, fun h => ⟨h.ne_empty, h.ne_here, h.ne_up, h.slash, h.backslash⟩⟩

/-- A name that the last segment of a path may have. -/
structure IsLast (s : String) : Prop where
  ne_empty : s ≠ ""
  ne_here : s ≠ "."
  ne_up : s ≠ ".."
  slash : '/' ∉ s.toList

namespace IsLast

variable {s : String}

theorem toList_ne_nil (h : IsLast s) : s.toList ≠ [] := by simpa using h.ne_empty

theorem isStill (h : IsLast s) : isStill s.toList = false := by
  have hhere : s.toList ≠ ['.'] := fun heq => h.ne_here (by rw [← String.ofList_toList (s := s), heq])
  simp [Path.isStill, h.ne_empty, hhere]

theorem isUp (h : IsLast s) : isUp s.toList = false := by
  have hup : s.toList ≠ ['.', '.'] := fun heq => h.ne_up (by rw [← String.ofList_toList (s := s), heq])
  simp [Path.isUp, hup]

end IsLast

theorem IsName.isLast {s : String} (h : IsName s) : IsLast s := ⟨h.ne_empty, h.ne_here, h.ne_up, h.slash⟩

theorem isName_indexName : IsName indexName := by decide

theorem isLast_indexName : IsLast indexName := isName_indexName.isLast

/-! ## Following segments in two parts -/

section Follow

variable {rooted : Bool} {t : List Char}

/-- Where the first segments have led, the others lead on. -/
theorem follow_parts (rooted : Bool) (ss ts : List (List Char)) (stack : List (List Char)) :
    follow rooted stack (ss ++ ts) = follow rooted (follow rooted stack ss).reverse ts := by
  induction ss generalizing stack with
  | nil => simp [follow]
  | cons s ss ih =>
    rw [List.cons_append]
    simp only [follow]
    split
    · exact ih stack
    · split
      · split <;> exact ih _
      · exact ih _

/-- A segment that leads somewhere is followed to the end. -/
theorem follow_concat (hstill : isStill t = false) (hup : isUp t = false) (ss stack : List (List Char)) :
    follow rooted stack (ss ++ [t]) = follow rooted stack ss ++ [t] := by
  rw [follow_parts]
  simp [follow, hstill, hup]

/-- A segment that leads nowhere may be left out at the end. -/
theorem follow_still (h : isStill t = true) (ss stack : List (List Char)) :
    follow rooted stack (ss ++ [t]) = follow rooted stack ss := by
  rw [follow_parts]
  simp [follow, h]

end Follow

/-! ## The end of a path -/

theorem unsegments_concat_ne_nil (init : List (List Char)) {last : List Char} (h : last ≠ []) :
    unsegments (init ++ [last]) ≠ [] := by
  rw [unsegments_append]
  exact List.append_ne_nil_of_right_ne_nil _ h

theorem dropEndSlashes_append {cs last : List Char} (hne : last ≠ []) (h : '/' ∉ last) :
    dropEndSlashes (cs ++ last) = cs ++ last := by
  obtain ⟨c, rest, hreverse⟩ := List.exists_cons_of_ne_nil (mt List.reverse_eq_nil_iff.1 hne)
  have hc : c ≠ '/' := fun heq => h (List.mem_reverse.1 (hreverse ▸ heq ▸ List.mem_cons_self))
  unfold dropEndSlashes
  rw [List.reverse_append, hreverse, List.cons_append, List.dropWhile_cons_of_neg (by simpa using hc),
    ← List.cons_append, ← hreverse, ← List.reverse_append, List.reverse_reverse]

theorem dropEndSlashes_concat_slash (cs : List Char) : dropEndSlashes (cs ++ ['/']) = dropEndSlashes cs := by
  simp [dropEndSlashes]

/-- What is appended to a path that ends in a segment stands behind a slash. -/
theorem appendChars_behind {cs last : List Char} (h : '/' ∉ last) (hne : cs ≠ []) (hend : cs.getLast? ≠ some '/') :
    appendChars cs last = cs ++ '/' :: last := by
  have hhead : last.head? ≠ some '/' := fun heq => h (List.mem_of_head? heq)
  have hfull : cs.isEmpty = false := by simpa using hne
  rw [appendChars, if_neg (by simpa using hhead), if_neg (by simp [hfull, hend])]

/-- What is appended to a path stands at its end, behind a slash or alone. -/
theorem appendChars_eq (cs : List Char) {last : List Char} (h : '/' ∉ last) :
    ∃ head, appendChars cs last = head ++ last ∧ ∀ c ∈ head.getLast?, c = '/' := by
  have hhead : last.head? ≠ some '/' := fun heq => h (List.mem_of_head? heq)
  by_cases hend : cs = [] ∨ cs.getLast? = some '/'
  · refine ⟨cs, ?_, ?_⟩
    · rw [appendChars, if_neg (by simpa using hhead), if_pos (by simpa using hend)]
    · rcases hend with rfl | hend <;> simp_all
  · obtain ⟨hne, hlast⟩ := not_or.1 hend
    exact ⟨cs ++ ['/'], by simp [appendChars_behind h hne hlast], by simp⟩

/-! ## Paths that end in a name -/

theorem takeWhile_append_eq {α : Type} (f : α → Bool) {cs ds : List α} (h : cs.all f = true → ds.takeWhile f = []) :
    (cs ++ ds).takeWhile f = cs.takeWhile f := by
  induction cs with
  | nil => exact h rfl
  | cons c cs ih =>
    rw [List.cons_append, List.takeWhile_cons, List.takeWhile_cons]
    split
    · rename_i hc
      rw [ih fun hall => h (by rw [List.all_cons, hc, hall]; rfl)]
    · rfl

/-- What a path comes to that ends in a name: following what stands before leaves the name at the end. -/
theorem reduceChars_append {head last : List Char} (hhead : ∀ c ∈ head.getLast?, c = '/') (hne : last ≠ [])
    (hslash : '/' ∉ last) (hstill : isStill last = false) (hup : isUp last = false) :
    reduceChars (head ++ last) =
      rootSlashes head ++ unsegments (follow (!(rootSlashes head).isEmpty) [] (segments head) ++ [last]) := by
  have hnone : last.takeWhile (· == '/') = [] := by
    obtain ⟨c, cs, rfl⟩ := List.exists_cons_of_ne_nil hne
    refine List.takeWhile_cons_of_neg fun hc => hslash ?_
    rw [beq_iff_eq.1 hc]
    exact List.mem_cons_self
  have hroot : rootSlashes (head ++ last) = rootSlashes head := by
    unfold rootSlashes
    rw [takeWhile_append_eq _ fun _ => hnone]
  have hfollow (rooted : Bool) :
      follow rooted [] (segments (head ++ last)) = follow rooted [] (segments head) ++ [last] := by
    rcases List.eq_nil_or_concat head with rfl | ⟨cs, c, rfl⟩
    · rw [List.nil_append, segments_of_not_mem hslash]
      exact follow_concat hstill hup [] []
    · rw [List.concat_eq_append] at *
      obtain rfl : c = '/' := hhead c (by simp)
      rw [List.append_assoc, List.singleton_append, segments_append, segments_append, segments_of_not_mem hslash,
        follow_concat hstill hup]
      exact congrArg (· ++ [last]) (follow_still rfl _ _).symm
  simp only [reduceChars, hroot, hfollow]
  split
  · rename_i hnil
    exact absurd hnil (List.append_ne_nil_of_right_ne_nil _ (unsegments_concat_ne_nil _ hne))
  · rfl

/-! ## A root and segments -/

/-- Segments through which a path in its shortest spelling may lead from a root. -/
structure IsWay (root : List Char) (ss : List (List Char)) : Prop where
  isRoot : IsRoot root
  settled : Settled (!root.isEmpty) ss.reverse
  plain : ∀ s ∈ ss, '/' ∉ s

/-- The path that leads from a root through segments. -/
def spell (root : List Char) (ss : List (List Char)) : String :=
  match root ++ unsegments ss with
  | [] => "."
  | path => .ofList path

namespace IsWay

variable {root : List Char} {ss init : List (List Char)} {last : List Char}

theorem dropLast (h : IsWay root (init ++ [last])) : IsWay root init where
  isRoot := h.isRoot
  settled := by
    have hsettled := h.settled
    rw [List.reverse_append] at hsettled
    exact hsettled.2.2
  plain s hs := h.plain s (List.mem_append_left _ hs)

theorem last_plain (h : IsWay root (init ++ [last])) : '/' ∉ last := h.plain last (by simp)

theorem last_ne_nil (h : IsWay root (init ++ [last])) : last ≠ [] := h.settled.head_ne last (by simp)

/-- A segment that leads somewhere may follow every way. -/
theorem concat (h : IsWay root ss) (hstill : isStill last = false) (hup : isUp last = false) (hslash : '/' ∉ last) :
    IsWay root (ss ++ [last]) where
  isRoot := h.isRoot
  settled := by
    rw [List.reverse_append]
    exact ⟨hstill, fun h => absurd h (by simp [hup]), h.settled⟩
  plain := List.forall_mem_append.2 ⟨h.plain, List.forall_mem_singleton.2 hslash⟩

theorem snoc (h : IsWay root ss) {name : String} (hname : IsLast name) : IsWay root (ss ++ [name.toList]) :=
  h.concat hname.isStill hname.isUp hname.slash

theorem path_ne_nil (h : IsWay root (init ++ [last])) : root ++ unsegments (init ++ [last]) ≠ [] :=
  List.append_ne_nil_of_right_ne_nil _ (unsegments_concat_ne_nil _ h.last_ne_nil)

theorem toList_spell (h : IsWay root (init ++ [last])) :
    (spell root (init ++ [last])).toList = root ++ unsegments (init ++ [last]) := by
  have hne := h.path_ne_nil
  unfold spell
  split
  · exact absurd ‹_› hne
  · exact String.toList_ofList

theorem shortest_spell (h : IsWay root ss) : Shortest (spell root ss).toList := by
  unfold spell
  split
  · exact .here
  · rename_i hne
    rw [String.toList_ofList]
    exact .path h.isRoot h.settled h.plain hne

theorem shortest (h : IsWay root (init ++ [last])) : Shortest (root ++ unsegments (init ++ [last])) :=
  h.toList_spell ▸ h.shortest_spell

theorem dropEndSlashes_eq (h : IsWay root (init ++ [last])) :
    dropEndSlashes (root ++ unsegments (init ++ [last])) = root ++ unsegments (init ++ [last]) := by
  rw [unsegments_append, ← List.append_assoc]
  exact dropEndSlashes_append h.last_ne_nil h.last_plain

end IsWay

/-- What following the segments of a path leaves is a way from the slashes at its front. -/
theorem isWay_follow {root : List Char} (h : IsRoot root) (cs : List Char) :
    IsWay root (follow (!root.isEmpty) [] (segments cs)) where
  isRoot := h
  settled := follow_settled trivial
  plain s hs := (mem_follow hs).elim (fun hnil => absurd hnil List.not_mem_nil) fun hs => (mem_segments s hs).1

theorem ofList_reduceChars (cs : List Char) : String.ofList (reduceChars cs) =
    spell (rootSlashes cs) (follow (!(rootSlashes cs).isEmpty) [] (segments cs)) := by
  unfold reduceChars spell
  dsimp only
  cases rootSlashes cs ++ unsegments (follow (!(rootSlashes cs).isEmpty) [] (segments cs)) <;> rfl

theorem reduce_eq_spell (path : String) : reduce path = spell (rootSlashes path.toList)
    (follow (!(rootSlashes path.toList).isEmpty) [] (segments path.toList)) := ofList_reduceChars path.toList

/-- A path in its shortest spelling is a root, or leads through segments. -/
theorem Shortest.cases {path : String} (h : Shortest path.toList) : path = "." ∨ path = "/" ∨ path = "//" ∨
    ∃ root init last, IsWay root (init ++ [last]) ∧ path = spell root (init ++ [last]) := by
  have hpath : path = reduce path := by rw [reduce, h.reduceChars_eq, String.ofList_toList]
  have hway := isWay_follow (rootSlashes_isRoot path.toList) path.toList
  rw [reduce_eq_spell] at hpath
  generalize follow _ [] (segments path.toList) = ss at hway hpath
  rcases List.eq_nil_or_concat ss with rfl | ⟨init, last, rfl⟩
  · rcases hway.isRoot with hroot | hroot | hroot <;> rw [hroot] at hpath
    · exact .inl hpath
    · exact .inr (.inl hpath)
    · exact .inr (.inr (.inl hpath))
  · rw [List.concat_eq_append] at *
    exact .inr (.inr (.inr ⟨_, init, last, hway, hpath⟩))

/-! ## Directories and names -/

section Ways

variable {root : List Char} {init : List (List Char)} {last : List Char} {s : String}

theorem name_spell (h : IsWay root (init ++ [last])) : name (spell root (init ++ [last])) = .ofList last := by
  rw [name, h.toList_spell, h.dropEndSlashes_eq, splitLast_path h.isRoot init h.last_plain]

/-- What stands before the last segment, without the slash between. -/
theorem parentChars_path (h : IsWay root (init ++ [last])) :
    parentChars (root ++ unsegments (init ++ [last])) = root ++ unsegments init := by
  unfold parentChars
  rw [splitLast_path h.isRoot init h.last_plain]
  rcases List.eq_nil_or_concat init with rfl | ⟨above, s, rfl⟩
  · rcases h.isRoot with rfl | rfl | rfl <;> rfl
  · rw [List.concat_eq_append] at *
    obtain ⟨c, hc⟩ := List.exists_mem_of_ne_nil _ h.dropLast.last_ne_nil
    have hnot : ¬(root ++ (above ++ [s]).flatMap (· ++ ['/'])).all (· == '/') = true := by
      intro hall
      have hslash := beq_iff_eq.1 (List.all_eq_true.1 hall c (by simp [hc]))
      exact h.dropLast.last_plain (hslash ▸ hc)
    have hends : root ++ (above ++ [s]).flatMap (· ++ ['/']) = root ++ unsegments (above ++ [s]) ++ ['/'] := by
      rw [unsegments_append]
      simp
    dsimp only
    rw [if_neg hnot, hends, dropEndSlashes_concat_slash, h.dropLast.dropEndSlashes_eq]

/-- The directory of a path leads through all its segments but the last. -/
theorem parent_spell (h : IsWay root (init ++ [last])) : parent (spell root (init ++ [last])) = spell root init := by
  rw [parent, h.toList_spell, h.dropEndSlashes_eq, parentChars_path h]
  rfl

/-- A step that leads nowhere may be left out at the beginning. -/
theorem reduceChars_here {cs : List Char} (h : cs.head? ≠ some '/') :
    reduceChars ('.' :: '/' :: cs) = reduceChars cs := by
  have hroot : rootSlashes cs = [] := rootSlashes_append (.inl rfl : IsRoot []) h
  have hsegments : segments ('.' :: '/' :: cs) = ['.'] :: segments cs := segments_append ['.'] cs
  unfold reduceChars
  rw [hroot, hsegments, show rootSlashes ('.' :: '/' :: cs) = [] from rfl]
  rfl

/-- What is joined to a directory stands behind its segments. -/
theorem join_spell (h : IsWay root (init ++ [s.toList])) :
    join (spell root init) [s] = spell root (init ++ [s.toList]) := by
  have hhead : s.toList.head? ≠ some '/' := fun heq => h.last_plain (List.mem_of_head? heq)
  have happend : reduceChars (appendChars (spell root init).toList s.toList) =
      root ++ unsegments (init ++ [s.toList]) := by
    rcases List.eq_nil_or_concat init with rfl | ⟨above, t, rfl⟩
    · have hshortest := h.shortest.reduceChars_eq
      have hlast : unsegments [s.toList] = s.toList := by simp [unsegments]
      rw [List.nil_append, hlast] at hshortest ⊢
      rw [appendChars, if_neg (by simpa using hhead)]
      rcases h.isRoot with rfl | rfl | rfl
      · exact (reduceChars_here hhead).trans hshortest
      · exact hshortest
      · exact hshortest
    · rw [List.concat_eq_append] at *
      have hends : (root ++ unsegments (above ++ [t])).getLast? ≠ some '/' := by
        rw [unsegments_append, ← List.append_assoc, List.getLast?_append_of_ne_nil _ h.dropLast.last_ne_nil]
        exact fun hlast => h.dropLast.last_plain (List.mem_of_getLast? hlast)
      have hbehind : appendChars (root ++ unsegments (above ++ [t])) s.toList =
          root ++ unsegments (above ++ [t] ++ [s.toList]) := by
        rw [appendChars_behind h.last_plain h.dropLast.path_ne_nil hends, unsegments_append (above ++ [t]) s.toList,
          unsegments_append above t]
        simp
      rw [h.dropLast.toList_spell, hbehind, h.shortest.reduceChars_eq]
  have hjoin : (join (spell root init) [s]).toList = (spell root (init ++ [s.toList])).toList := by
    rw [h.toList_spell, ← happend]
    simp [join, append, reduce]
  exact String.toList_inj.1 hjoin

end Ways

/-- The directory of a path in its shortest spelling is in its shortest spelling. -/
theorem shortest_parent {path : String} (h : Shortest path.toList) : Shortest (parent path).toList := by
  rcases h.cases with rfl | rfl | rfl | ⟨root, init, last, hway, rfl⟩
  · exact .here
  · exact .here
  · exact .here
  · rw [parent_spell hway]
    exact hway.dropLast.shortest_spell

/-- A path is its last segment in its directory. -/
theorem join_parent_name {path : String} (h : Shortest path.toList) (hname : name path ≠ "") :
    join (parent path) [name path] = path := by
  rcases h.cases with rfl | rfl | rfl | ⟨root, init, last, hway, rfl⟩
  · decide
  · exact absurd (by decide) hname
  · exact absurd (by decide) hname
  · have hlast : (String.ofList last).toList = last := String.toList_ofList
    rw [parent_spell hway, name_spell hway, join_spell (by rwa [hlast]), hlast]

end NestedSite.Path
