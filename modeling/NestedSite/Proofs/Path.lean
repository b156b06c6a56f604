import NestedSite.Path

/-!
# Paths in their shortest spelling

`follow` leaves segments as they are that are settled (`Settled`), and what it gives is settled. So a path has one
shortest spelling: `normalize` keeps the paths that it gives (`IsNormal.normalize_eq`). Taking the extension off leaves
a path in its shortest spelling (`isNormal_withoutExtension`), and leaves the path as it is just if there is no
extension (`withoutExtension_eq_self_iff`).
-/

namespace NestedSite.Path

/-! ## Segments -/

theorem segments_ne_nil (cs : List Char) : segments cs ≠ [] := by
  cases cs with
  | nil => simp [segments]
  | cons c cs =>
    unfold segments
    split
    · simp
    · split <;> simp

/-- A slash parts the segments before it from those behind it. -/
theorem segments_append (cs ds : List Char) : segments (cs ++ '/' :: ds) = segments cs ++ segments ds := by
  induction cs with
  | nil => simp [segments]
  | cons c cs ih =>
    rw [List.cons_append, segments, segments, ih]
    split
    · rfl
    · cases hcs : segments cs with
      | nil => exact absurd hcs (segments_ne_nil cs)
      | cons s ss => rfl

theorem segments_of_not_mem : ∀ {s : List Char}, '/' ∉ s → segments s = [s]
  | [], _ => rfl
  | c :: s, h => by
    obtain ⟨hc, hs⟩ := not_or.1 (mt List.mem_cons.2 h)
    rw [segments, if_neg (by simpa using Ne.symm hc), segments_of_not_mem hs]

theorem segments_unsegments : ∀ {ss : List (List Char)}, ss ≠ [] → (∀ s ∈ ss, '/' ∉ s) →
    segments (unsegments ss) = ss
  | [], h, _ => absurd rfl h
  | [s], _, h => by
    rw [show unsegments [s] = s by simp [unsegments]]
    exact segments_of_not_mem (h s List.mem_cons_self)
  | s :: t :: ss, _, h => by
    obtain ⟨hs, hrest⟩ := List.forall_mem_cons.1 h
    have hcons : unsegments (s :: t :: ss) = s ++ '/' :: unsegments (t :: ss) := by simp [unsegments]
    rw [hcons, segments_append, segments_of_not_mem hs, segments_unsegments (by simp) hrest, List.singleton_append]

theorem mem_segments : ∀ {cs : List Char}, ∀ s ∈ segments cs, '/' ∉ s ∧ ∀ c ∈ s, c ∈ cs
  | [], s, h => by simp_all [segments]
  | c :: cs, s, h => by
    have ih : ∀ s ∈ segments cs, '/' ∉ s ∧ ∀ d ∈ s, d ∈ cs := mem_segments
    unfold segments at h
    split at h
    · rcases List.mem_cons.1 h with rfl | h
      · simp
      · exact ⟨(ih s h).1, fun d hd => List.mem_cons_of_mem _ ((ih s h).2 d hd)⟩
    · rename_i hc
      split at h
      · rename_i hnil
        cases List.mem_singleton.1 h
        simpa using Ne.symm (by simpa using hc)
      · rename_i t ts hcons
        rw [hcons] at ih
        obtain ⟨ht, hts⟩ := List.forall_mem_cons.1 ih
        rcases List.mem_cons.1 h with rfl | h
        · refine ⟨mt List.mem_cons.1 (not_or.2 ⟨Ne.symm (by simpa using hc), ht.1⟩), fun d hd => ?_⟩
          rcases List.mem_cons.1 hd with rfl | hd
          · exact List.mem_cons_self
          · exact List.mem_cons_of_mem _ (ht.2 d hd)
        · exact ⟨(hts s h).1, fun d hd => List.mem_cons_of_mem _ ((hts s h).2 d hd)⟩

/-- The characters of a path come from its segments, or are slashes. -/
theorem mem_unsegments {c : Char} : ∀ {ss : List (List Char)}, c ∈ unsegments ss → c = '/' ∨ ∃ s ∈ ss, c ∈ s
  | [], h => by simp [unsegments] at h
  | [s], h => .inr ⟨s, List.mem_cons_self, by simpa [unsegments] using h⟩
  | s :: t :: ss, h => by
    have hcons : unsegments (s :: t :: ss) = s ++ '/' :: unsegments (t :: ss) := by simp [unsegments]
    rw [hcons, List.mem_append, List.mem_cons] at h
    rcases h with h | h | h
    · exact .inr ⟨s, List.mem_cons_self, h⟩
    · exact .inl h
    · exact (mem_unsegments h).imp_right fun ⟨u, hu, hc⟩ => ⟨u, List.mem_cons_of_mem _ hu, hc⟩

/-! ## Settled segments -/

/-- Segments (last first) that lead somewhere, with steps up at the beginning only, and not from a root. -/
def Settled (rooted : Bool) : List (List Char) → Prop
  | [] => True
  | s :: below =>
    isStill s = false ∧ (isUp s = true → rooted = false ∧ ∀ t ∈ below, isUp t = true) ∧ Settled rooted below

theorem Settled.of_append {rooted : Bool} : ∀ {above below : List (List Char)},
    Settled rooted (above ++ below) → Settled rooted below
  | [], _, h => h
  | _ :: above, below, h => Settled.of_append (show Settled rooted (above ++ below) from h.2.2)

theorem follow_settled {rooted : Bool} : ∀ {ss stack : List (List Char)}, Settled rooted stack →
    Settled rooted (follow rooted stack ss).reverse
  | [], stack, h => by simpa [follow] using h
  | s :: ss, stack, h => by
    unfold follow
    split
    · exact follow_settled h
    · rename_i hstill
      split
      · rename_i hup
        split
        · refine follow_settled ?_
          split
          · trivial
          · rename_i hrooted
            exact ⟨by simpa using hstill, fun _ => ⟨by simpa using hrooted, by simp⟩, trivial⟩
        · rename_i t rest
          refine follow_settled ?_
          split
          · rename_i ht
            obtain ⟨hrooted, hrest⟩ := h.2.1 ht
            exact ⟨by simpa using hstill, fun _ => ⟨hrooted, List.forall_mem_cons.2 ⟨ht, hrest⟩⟩, h⟩
          · exact h.2.2
      · rename_i hup
        exact follow_settled ⟨by simpa using hstill, fun hs => absurd hs hup, h⟩

theorem follow_eq {rooted : Bool} : ∀ {ss stack : List (List Char)}, Settled rooted (ss.reverse ++ stack) →
    follow rooted stack ss = stack.reverse ++ ss
  | [], stack, _ => by simp [follow]
  | s :: ss, stack, h => by
    rw [List.reverse_cons, List.append_assoc, List.singleton_append] at h
    obtain ⟨hstill, hup, -⟩ := h.of_append
    have hpush : follow rooted stack (s :: ss) = follow rooted (s :: stack) ss := by
      cases hs : isUp s with
      | false => simp [follow, hstill, hs]
      | true =>
        obtain ⟨rfl, hstack⟩ := hup hs
        cases stack with
        | nil => simp [follow, hstill, hs]
        | cons t rest => simp [follow, hstill, hs, hstack t List.mem_cons_self]
    rw [hpush, follow_eq h, List.reverse_cons, List.append_assoc, List.singleton_append]

theorem mem_follow {rooted : Bool} {u : List Char} : ∀ {ss stack : List (List Char)},
    u ∈ follow rooted stack ss → u ∈ stack ∨ u ∈ ss
  | [], stack, h => .inl (by simpa [follow] using h)
  | s :: ss, stack, h => by
    unfold follow at h
    split at h
    · exact (mem_follow h).imp_right (List.mem_cons_of_mem _)
    · split at h
      · split at h
        · rcases mem_follow h with h | h
          · split at h
            · exact absurd h List.not_mem_nil
            · exact .inr (List.mem_singleton.1 h ▸ List.mem_cons_self)
          · exact .inr (List.mem_cons_of_mem _ h)
        · rcases mem_follow h with h | h
          · split at h
            · exact (List.mem_cons.1 h).elim (fun h => .inr (h ▸ List.mem_cons_self)) .inl
            · exact .inl (List.mem_cons_of_mem _ h)
          · exact .inr (List.mem_cons_of_mem _ h)
      · rcases mem_follow h with h | h
        · exact (List.mem_cons.1 h).elim (fun h => .inr (h ▸ List.mem_cons_self)) .inl
        · exact .inr (List.mem_cons_of_mem _ h)

/-! ## Shortest spellings -/

/-- What may stand at the front of a path: nothing, one slash, or two. -/
def IsRoot (root : List Char) : Prop := root = [] ∨ root = ['/'] ∨ root = ['/', '/']

theorem rootSlashes_isRoot (cs : List Char) : IsRoot (rootSlashes cs) := by
  unfold rootSlashes
  split
  · exact .inl rfl
  · exact .inr (.inr rfl)
  · exact .inr (.inl rfl)

/-- The characters of a path that `reduce` leaves as it is. -/
inductive Shortest : List Char → Prop where
  | here : Shortest ['.']
  | path {root : List Char} {ss : List (List Char)} (hroot : IsRoot root)
      (hsettled : Settled (!root.isEmpty) ss.reverse) (hplain : ∀ s ∈ ss, '/' ∉ s)
      (hne : root ++ unsegments ss ≠ []) : Shortest (root ++ unsegments ss)

theorem shortest_reduceChars (cs : List Char) : Shortest (reduceChars cs) := by
  unfold reduceChars
  extract_lets root
  split
  · exact .here
  · rename_i hne
    refine .path (rootSlashes_isRoot cs) (follow_settled trivial) (fun s hs => ?_) hne
    exact (mem_follow hs).elim (fun h => absurd h List.not_mem_nil) fun h => (mem_segments s h).1

/-- Settled segments are not empty. -/
theorem Settled.head_ne {rooted : Bool} {ss : List (List Char)} (h : Settled rooted ss) : ∀ s ∈ ss, s ≠ [] := by
  induction ss with
  | nil => simp
  | cons s ss ih =>
    refine List.forall_mem_cons.2 ⟨?_, ih h.2.2⟩
    rintro rfl
    exact absurd h.1 (by decide)

theorem head?_unsegments {ss : List (List Char)} (hne : ∀ s ∈ ss, s ≠ []) (hplain : ∀ s ∈ ss, '/' ∉ s) :
    (unsegments ss).head? ≠ some '/' := by
  match ss with
  | [] => simp [unsegments]
  | s :: ss =>
    cases s with
    | nil => exact absurd rfl (hne [] List.mem_cons_self)
    | cons c cs =>
      have hc : c ≠ '/' := fun hc => hplain _ List.mem_cons_self (hc ▸ List.mem_cons_self)
      cases ss <;> simpa [unsegments] using hc

theorem rootSlashes_append {root cs : List Char} (hroot : IsRoot root) (hcs : cs.head? ≠ some '/') :
    rootSlashes (root ++ cs) = root := by
  have htake : cs.takeWhile (· == '/') = [] := by
    cases cs with
    | nil => rfl
    | cons c cs => exact List.takeWhile_cons_of_neg (by simpa using hcs)
  rcases hroot with rfl | rfl | rfl <;> simp [rootSlashes, htake]

theorem follow_segments {root : List Char} (hroot : IsRoot root) {ss : List (List Char)} (hplain : ∀ s ∈ ss, '/' ∉ s)
    (rooted : Bool) : follow rooted [] (segments (root ++ unsegments ss)) = follow rooted [] ss := by
  have hsegments : follow rooted [] (segments (unsegments ss)) = follow rooted [] ss := by
    cases ss with
    | nil => simp [unsegments, segments, follow, isStill]
    | cons s ss => rw [segments_unsegments (by simp) hplain]
  rcases hroot with rfl | rfl | rfl
  · exact hsegments
  · simpa [segments, follow, isStill] using hsegments
  · simpa [segments, follow, isStill] using hsegments

theorem Shortest.reduceChars_eq {cs : List Char} (h : Shortest cs) : reduceChars cs = cs := by
  cases h with
  | here => decide
  | @path root ss hroot hsettled hplain hne =>
    have hhead := head?_unsegments (fun s hs => hsettled.head_ne s (List.mem_reverse.2 hs)) hplain
    have hfollow : follow (!root.isEmpty) [] ss = [].reverse ++ ss := follow_eq (by simpa using hsettled)
    rw [List.reverse_nil, List.nil_append] at hfollow
    unfold reduceChars
    simp only [rootSlashes_append hroot hhead, follow_segments hroot hplain, hfollow]

theorem mem_reduceChars {c : Char} {cs : List Char} (h : c ∈ reduceChars cs) : c ∈ cs ∨ c = '/' ∨ c = '.' := by
  unfold reduceChars at h
  extract_lets root at h
  split at h
  · exact .inr (.inr (List.mem_singleton.1 h))
  · rcases List.mem_append.1 h with h | h
    · rcases rootSlashes_isRoot cs with hr | hr | hr <;> simp [root, hr] at h
      · exact .inr (.inl h)
      · exact .inr (.inl h)
    · rcases mem_unsegments h with h | ⟨s, hs, hc⟩
      · exact .inr (.inl h)
      · exact .inl ((mem_follow hs).elim (fun h => absurd h List.not_mem_nil) fun hs => (mem_segments s hs).2 c hc)

/-- A path in its shortest spelling, which has no backslashes. -/
structure IsNormal (path : String) : Prop where
  shortest : Shortest path.toList
  slashes : '\\' ∉ path.toList

theorem isNormal_normalize (path : String) : IsNormal (normalize path) where
  shortest := by
    rw [normalize, reduce, String.toList_ofList]
    exact shortest_reduceChars _
  slashes h := by
    rw [normalize, reduce, String.toList_ofList] at h
    rcases mem_reduceChars h with h | h | h
    · rw [unify, String.toList_ofList, List.mem_map] at h
      obtain ⟨c, -, hc⟩ := h
      split at hc
      · exact absurd hc (by decide)
      · simp_all
    · exact absurd h (by decide)
    · exact absurd h (by decide)

theorem unify_eq {path : String} (h : '\\' ∉ path.toList) : unify path = path := by
  have hmap : path.toList.map (fun c => if c == '\\' then '/' else c) = path.toList.map id := by
    refine List.map_congr_left fun c hc => if_neg ?_
    rintro hslash
    exact h (beq_iff_eq.1 hslash ▸ hc)
  rw [unify, hmap, List.map_id, String.ofList_toList]

theorem IsNormal.normalize_eq {path : String} (h : IsNormal path) : normalize path = path := by
  rw [normalize, unify_eq h.slashes, reduce, h.shortest.reduceChars_eq, String.ofList_toList]

theorem Shortest.ne_nil {cs : List Char} (h : Shortest cs) : cs ≠ [] := by
  cases h with
  | here => simp
  | path _ _ _ hne => exact hne

theorem IsNormal.ne_empty {path : String} (h : IsNormal path) : path ≠ "" := by
  rintro rfl
  exact h.shortest.ne_nil rfl

/-! ## Extensions -/

/-- The last segment of a path, after what ends in a slash. -/
theorem splitLast_append {head name : List Char} (hname : '/' ∉ name) (hhead : ∀ c ∈ head.getLast?, c = '/') :
    splitLast (head ++ name) = (head, name) := by
  have htake : ((head ++ name).reverse.takeWhile (· != '/')).reverse = name := by
    rw [List.reverse_append, List.takeWhile_append_of_pos]
    · have hnone : head.reverse.takeWhile (· != '/') = [] := by
        cases hr : head.reverse with
        | nil => rfl
        | cons c cs =>
          have hc : c = '/' := hhead c (by rw [← List.head?_reverse, hr]; rfl)
          exact List.takeWhile_cons_of_neg (by simp [hc])
      simp [hnone]
    · intro c hc
      simpa using fun h : c = '/' => hname (h ▸ List.mem_reverse.1 hc)
  simp only [splitLast, htake]
  simp

theorem unsegments_append (init : List (List Char)) (last : List Char) :
    unsegments (init ++ [last]) = init.flatMap (· ++ ['/']) ++ last := by
  induction init with
  | nil => simp [unsegments]
  | cons s init ih =>
    cases init with
    | nil => simp [unsegments]
    | cons t init =>
      have hcons : unsegments (s :: t :: init ++ [last]) = s ++ '/' :: unsegments (t :: init ++ [last]) := by
        simp [unsegments]
      rw [hcons, ih]
      simp

theorem getLast?_flatMap_slash (init : List (List Char)) : ∀ c ∈ (init.flatMap (· ++ ['/'])).getLast?, c = '/' := by
  rcases List.eq_nil_or_concat init with rfl | ⟨init, s, rfl⟩
  · simp
  · simp

/-- What stands before the last segment of a path. -/
theorem splitLast_path {root : List Char} (hroot : IsRoot root) (init : List (List Char)) {last : List Char}
    (hlast : '/' ∉ last) :
    splitLast (root ++ unsegments (init ++ [last])) = (root ++ init.flatMap (· ++ ['/']), last) := by
  rw [unsegments_append, ← List.append_assoc]
  refine splitLast_append hlast fun c hc => ?_
  rw [List.getLast?_append] at hc
  cases hinit : (init.flatMap (· ++ ['/'])).getLast? with
  | some d =>
    rw [hinit, Option.some_or] at hc
    exact getLast?_flatMap_slash init c (hinit ▸ hc)
  | none =>
    rw [hinit, Option.none_or] at hc
    rcases hroot with rfl | rfl | rfl
    · simp at hc
    · simpa using hc.symm
    · simpa using hc.symm

/-- The part of the last segment that stands before the extension. -/
def stem (name : List Char) : List Char :=
  name.take (name.length - (name.reverse.takeWhile (· != '.')).length - 1)

theorem splitExtension_cases (path : String) :
    (withoutExtension path = path ∧ extension path = "") ∨
      (withoutExtension path = .ofList ((splitLast path.toList).1 ++ stem (splitLast path.toList).2) ∧
        extension path ≠ "" ∧ (stem (splitLast path.toList).2).any (· != '.') = true ∧
        (stem (splitLast path.toList).2).length < (splitLast path.toList).2.length) := by
  unfold withoutExtension extension splitExtension
  obtain ⟨head, name⟩ := splitLast path.toList
  simp only [stem, List.length_reverse]
  split
  · rename_i h
    simp only [Bool.and_eq_true, decide_eq_true_eq] at h
    refine .inr ⟨rfl, fun h => ?_, h.2, ?_⟩
    · simpa using congrArg String.toList h
    · rw [List.length_take]
      omega
  · exact .inl ⟨rfl, rfl⟩

theorem withoutExtension_length (path : String) (h : extension path ≠ "") :
    (withoutExtension path).toList.length < path.toList.length := by
  rcases splitExtension_cases path with ⟨_, he⟩ | ⟨hw, -, -, hlt⟩
  · exact absurd he h
  · rw [hw, String.toList_ofList, List.length_append]
    simp only [splitLast, List.length_take, List.length_reverse] at hlt ⊢
    have hle := (List.takeWhile_sublist (· != '/') (l := path.toList.reverse)).length_le
    rw [List.length_reverse] at hle
    omega

/-- A path stays as it is just if it has no extension. -/
theorem withoutExtension_eq_self_iff (path : String) : withoutExtension path = path ↔ extension path = "" := by
  constructor
  · intro h
    rcases splitExtension_cases path with ⟨_, he⟩ | ⟨_, he, -, -⟩
    · exact he
    · exact absurd (withoutExtension_length path he) (by rw [h]; exact Nat.lt_irrefl _)
  · intro h
    rcases splitExtension_cases path with ⟨hw, _⟩ | ⟨_, he, -, -⟩
    · exact hw
    · exact absurd h he

/-- Two extensions are taken off only if there is a first one. -/
theorem withoutExtension_twice_iff (path : String) :
    withoutExtension (withoutExtension path) = path ↔ extension path = "" := by
  constructor
  · intro h
    by_cases he : extension path = ""
    · exact he
    · have hfirst := withoutExtension_length path he
      by_cases he' : extension (withoutExtension path) = ""
      · rw [(withoutExtension_eq_self_iff _).2 he'] at h
        exact absurd hfirst (by rw [h]; exact Nat.lt_irrefl _)
      · have hsecond := withoutExtension_length _ he'
        rw [h] at hsecond
        omega
  · intro h
    rw [(withoutExtension_eq_self_iff path).2 h, (withoutExtension_eq_self_iff path).2 h]

/-- A segment before an extension leads somewhere. -/
theorem isStill_eq_false {s : List Char} (h : s.any (· != '.') = true) : isStill s = false ∧ isUp s = false := by
  obtain ⟨c, hc, hdot⟩ := List.any_eq_true.1 h
  have hne : ∀ t : List Char, (∀ d ∈ t, d = '.') → s ≠ t := by
    rintro t ht rfl
    exact absurd (ht c hc) (by simpa using hdot)
  constructor
  · simp [isStill, hne [] (by simp), hne ['.'] (by simp)]
  · simp [isUp, hne ['.', '.'] (by simp)]

theorem stem_subset (name : List Char) : ∀ c ∈ stem name, c ∈ name := fun _ hc => List.mem_of_mem_take hc

theorem Shortest.dropExtension {cs : List Char} (h : Shortest cs)
    (hstem : (stem (splitLast cs).2).any (· != '.') = true) :
    Shortest ((splitLast cs).1 ++ stem (splitLast cs).2) := by
  cases h with
  | here => exact absurd hstem (by decide)
  | @path root ss hroot hsettled hplain hne =>
    rcases List.eq_nil_or_concat ss with rfl | ⟨init, last, rfl⟩
    · rcases hroot with rfl | rfl | rfl
      · exact absurd rfl hne
      · exact absurd hstem (by decide)
      · exact absurd hstem (by decide)
    · simp only [List.concat_eq_append] at *
      have hlast := hplain last (by simp)
      rw [splitLast_path hroot init hlast] at hstem ⊢
      obtain ⟨hstill, hup⟩ := isStill_eq_false hstem
      rw [List.reverse_append] at hsettled
      rw [List.append_assoc, ← unsegments_append]
      refine .path hroot ?_ (fun s hs => ?_) ?_
      · rw [List.reverse_append]
        exact ⟨hstill, fun h => absurd h (by simp [hup]), hsettled.2.2⟩
      · rcases List.mem_append.1 hs with hs | hs
        · exact hplain s (List.mem_append_left _ hs)
        · rw [List.mem_singleton.1 hs]
          exact fun h => hlast (stem_subset last _ h)
      · rw [unsegments_append]
        intro h
        simp only [List.append_eq_nil_iff] at h
        simp [h.2.2] at hstem

theorem isNormal_withoutExtension {path : String} (h : IsNormal path) : IsNormal (withoutExtension path) := by
  rcases splitExtension_cases path with ⟨hw, -⟩ | ⟨hw, -, hstem, -⟩
  · rw [hw]
    exact h
  · rw [hw]
    refine ⟨by simpa using h.shortest.dropExtension hstem, fun hc => h.slashes ?_⟩
    rw [String.toList_ofList] at hc
    rcases List.mem_append.1 hc with hc | hc
    · exact List.mem_of_mem_take hc
    · have hname := stem_subset _ _ hc
      simp only [splitLast, List.mem_reverse] at hname
      exact List.mem_reverse.1 ((List.takeWhile_sublist _).subset hname)

end NestedSite.Path
