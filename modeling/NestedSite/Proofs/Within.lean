import NestedSite.Method.Call
import NestedSite.Proofs.Relative
import NestedSite.Proofs.Site.OutputPath
import NestedSite.Proofs.Store.Entries

/-!
# Paths within a directory

The segments of a relative path are kept from left to right, as those of an output path are, but between slashes only
(`Path.steps`). From the working directory an inner path, one that never climbs above its start, leads on through what
is kept (`Path.fromRoot_of_isInner`). So the way from one inner path to another climbs just if the first does not begin
the second (`Path.isWithin_iff`): being within a directory is the prefix relation of lists, whatever the working
directory (`Path.isWithin_steps`), and a link is marked as active just if its target begins the path of the page.
-/

namespace NestedSite

namespace Path

/-- What is kept of the segments of a path, between slashes. -/
def steps (path : String) : List (List Char) := (segments path.toList).foldl keep []

theorem steps_eq_follow (path : String) : steps path = follow false [] (segments path.toList) := by
  rw [steps, follow_eq_foldl, List.reverse_nil]

/-- A relative path that does not climb above its start. -/
structure IsInner (path : String) : Prop where
  relative : isAbsolute path = false
  inner : ['.', '.'] ∉ steps path

instance : DecidablePred IsInner := fun path =>
  decidable_of_iff (isAbsolute path = false ∧ ['.', '.'] ∉ steps path) ⟨fun ⟨h, h'⟩ => ⟨h, h'⟩, fun h => ⟨h.1, h.2⟩⟩

/-! ## Following inner segments -/

/-- A step up that is kept is never taken back. -/
theorem up_mem_follow {rooted : Bool} {u : List Char} (hu : isUp u = true) {ss stack : List (List Char)}
    (h : u ∈ stack) : u ∈ follow rooted stack ss := by
  induction ss generalizing stack with
  | nil => simpa [follow] using h
  | cons s ss ih =>
    unfold follow
    split
    · exact ih h
    · split
      · split
        · exact absurd h List.not_mem_nil
        · rename_i t rest
          apply ih
          by_cases ht : isUp t = true
          · rw [if_pos ht]
            exact List.mem_cons_of_mem _ h
          · rw [if_neg ht]
            rcases List.mem_cons.1 h with rfl | h
            · exact absurd hu ht
            · exact h
      · exact ih (List.mem_cons_of_mem _ h)

/-- Segments that do not climb above their start lead on from every place in the same way. -/
theorem follow_inner {ss stack : List (List Char)} (below : List (List Char)) (hstack : ∀ t ∈ stack, isUp t = false)
    (h : ['.', '.'] ∉ follow false stack ss) :
    follow true (stack ++ below) ss = below.reverse ++ follow false stack ss := by
  induction ss generalizing stack with
  | nil => simp [follow]
  | cons s ss ih =>
    unfold follow at h ⊢
    by_cases hstill : isStill s = true
    · rw [if_pos hstill] at h ⊢
      rw [if_pos hstill]
      exact ih hstack h
    rw [if_neg hstill] at h ⊢
    rw [if_neg hstill]
    by_cases hup : isUp s = true
    · rw [if_pos hup] at h ⊢
      rw [if_pos hup]
      cases stack with
      | nil =>
        -- a step up from the start would be kept
        have hs : s = ['.', '.'] := beq_iff_eq.1 hup
        exact absurd (up_mem_follow rfl (List.mem_singleton.2 hs.symm)) h
      | cons t rest =>
        obtain ⟨ht, hrest⟩ := List.forall_mem_cons.1 hstack
        simp only [List.cons_append, ht, Bool.false_eq_true, if_false] at h ⊢
        exact ih hrest h
    · rw [if_neg hup] at h ⊢
      rw [if_neg hup]
      have hpushed : ∀ t ∈ s :: stack, isUp t = false :=
        List.forall_mem_cons.2 ⟨Bool.eq_false_iff.2 hup, hstack⟩
      exact ih hpushed h

/-! ## From the working directory -/

variable {cwd : String}

/-- The segments of a relative path stand behind those of the working directory. -/
theorem follow_segments_append (hcwd : isAbsolute cwd = true) {path : String} (h : isAbsolute path = false) :
    follow true [] (segments (appendChars cwd.toList path.toList)) =
      follow true (follow true [] (segments cwd.toList)).reverse (segments path.toList) := by
  have hpath : (path.toList.head? == some '/') = false := h
  unfold appendChars
  rw [if_neg (by simpa using hpath)]
  rcases List.eq_nil_or_concat cwd.toList with hnil | ⟨cs, c, hcs⟩
  · simp [isAbsolute, hnil] at hcwd
  rw [List.concat_eq_append] at hcs
  by_cases hslash : c = '/'
  · subst hslash
    rw [if_pos (by simp [hcs]), hcs, List.append_assoc, List.singleton_append, segments_append, segments_append,
      follow_parts, show segments [] = [[]] from rfl, follow_still rfl]
  · rw [if_neg (by simp [hcs, hslash]), segments_append, follow_parts]

theorem fromRoot_of_isInner (hcwd : isAbsolute cwd = true) {path : String} (h : IsInner path) :
    fromRoot cwd path = fromRoot cwd cwd ++ steps path := by
  have hhead : (appendChars cwd.toList path.toList).head? = some '/' := by
    have hslash := head?_of_isAbsolute hcwd
    have hpath : (path.toList.head? == some '/') = false := h.relative
    obtain ⟨cs, hcs⟩ := List.head?_eq_some_iff.1 hslash
    unfold appendChars
    rw [if_neg (by simpa using hpath), hcs]
    split <;> rfl
  have hinner := h.inner
  rw [steps_eq_follow] at hinner ⊢
  rw [fromRoot, filter_segments_reduceChars hhead, follow_segments_append hcwd h.relative,
    fromRoot_of_isAbsolute cwd hcwd]
  simpa using follow_inner (follow true [] (segments cwd.toList)).reverse (by simp) hinner

/-! ## The way from one path to another -/

theorem dropCommon_append_append {α : Type} [BEq α] [ReflBEq α] (zs xs ys : List α) :
    dropCommon (zs ++ xs) (zs ++ ys) = dropCommon xs ys := by
  induction zs with
  | nil => rfl
  | cons z zs ih => rw [List.cons_append, List.cons_append, dropCommon, if_pos (beq_self_eq_true z), ih]

/-- Nothing of a list is left just if it is a prefix; of the other list something of its end is left. -/
theorem dropCommon_cases {α : Type} [BEq α] [LawfulBEq α] (xs ys : List α) :
    ((dropCommon xs ys).1 = [] ↔ xs <+: ys) ∧ (dropCommon xs ys).2 <:+ ys := by
  induction xs generalizing ys with
  | nil =>
    cases ys <;> simp [dropCommon]
  | cons x xs ih =>
    cases ys with
    | nil => simp [dropCommon]
    | cons y ys =>
      by_cases hxy : x = y
      · subst hxy
        obtain ⟨hfirst, hsecond⟩ := ih ys
        rw [dropCommon, if_pos (beq_self_eq_true x), hfirst, List.cons_prefix_cons]
        exact ⟨⟨fun h => ⟨rfl, h⟩, fun h => h.2⟩, hsecond.trans (List.suffix_cons x ys)⟩
      · rw [dropCommon, if_neg (by simpa using hxy), List.cons_prefix_cons]
        exact ⟨⟨fun h => absurd h (List.cons_ne_nil _ _), fun h => absurd h.1 hxy⟩, List.suffix_refl _⟩

theorem plain_steps (path : String) : ∀ s ∈ steps path, '/' ∉ s := by
  rw [steps_eq_follow]
  exact fun s hs => (mem_follow hs).elim (fun h => absurd h List.not_mem_nil) fun h => (mem_segments s h).1

/-- A path is within a directory just if the steps of the directory begin those of the path. -/
theorem isWithin_iff (hcwd : isAbsolute cwd = true) {directory path : String} (hd : IsInner directory)
    (hp : IsInner path) : isWithin cwd directory path = true ↔ steps directory <+: steps path := by
  obtain ⟨hbegins, hsuffix⟩ := dropCommon_cases (steps directory) (steps path)
  unfold isWithin relative
  rw [fromRoot_of_isInner hcwd hd, fromRoot_of_isInner hcwd hp, dropCommon_append_append]
  generalize dropCommon (steps directory) (steps path) = left at hbegins hsuffix
  obtain ⟨up, down⟩ := left
  dsimp only at hbegins hsuffix ⊢
  rw [← hbegins]
  have hplain : ∀ s ∈ up.map (fun _ => ['.', '.']) ++ down, '/' ∉ s := by
    intro s hs
    rcases List.mem_append.1 hs with hs | hs
    · obtain ⟨-, -, rfl⟩ := List.mem_map.1 hs
      decide
    · exact plain_steps path s (hsuffix.subset hs)
  have hhead : (up.map (fun _ => ['.', '.']) ++ down).head? = some ['.', '.'] ↔ up ≠ [] := by
    cases up with
    | nil =>
      refine iff_of_false (fun h => hp.inner ?_) (by simp)
      exact hsuffix.subset (List.mem_of_mem_head? h)
    | cons u up => simp
  generalize up.map (fun _ => ['.', '.']) ++ down = ss at hplain hhead
  cases ss with
  | nil =>
    have hup : up = [] := by simpa using hhead
    exact iff_of_true (by decide) hup
  | cons s ss =>
    have hclimbs := isPrefixOf_unsegments (List.cons_ne_nil s ss) hplain
    rw [hhead] at hclimbs
    have hchars : String.ofList (unsegments (s :: ss)) = ".." ↔ unsegments (s :: ss) = ['.', '.'] := by
      rw [← String.toList_inj, String.toList_ofList]
      rfl
    have htext : (String.ofList (unsegments (s :: ss)) == ".." ||
        "../".isPrefixOf (String.ofList (unsegments (s :: ss)))) = true ↔ up ≠ [] := by
      rw [Bool.or_eq_true, beq_iff_eq, hchars, String.isPrefixOf, String.startsWith_string_iff,
        String.toList_ofList (l := unsegments (s :: ss))]
      exact hclimbs
    rw [Bool.not_eq_true', ← Bool.not_eq_true, htext, not_not]

/-- Relative paths that keep the same steps have one spelling. -/
theorem reduce_eq_of_steps {a b : String} (ha : isAbsolute a = false) (hb : isAbsolute b = false)
    (h : steps a = steps b) : reduce a = reduce b := by
  have hrelative {path : String} (hpath : isAbsolute path = false) : path.toList.head? ≠ some '/' := by
    simpa [isAbsolute] using hpath
  rw [reduce, reduce, reduceChars_of_relative (hrelative ha), reduceChars_of_relative (hrelative hb),
    ← steps_eq_follow, ← steps_eq_follow, h]

/-! ## Links -/

theorem isActive_run (cwd directory : String) {path : String} {p : Nat} {w : World}
    (hpath : w.binding? p pathKey = some (.text path)) (hne : path ≠ "") :
    (Run.isActive cwd (.text directory) (.dict p)).run.run w = (.ok (isWithin cwd directory path), w) := by
  have hfind : (w.store.dict p).find? (.text pathKey) = some (.text path) := hpath
  unfold Run.isActive
  rw [Run.run_bind, Run.dict_run]
  dsimp only
  rw [hfind]
  dsimp only
  rw [if_neg (by simpa using hne)]
  rfl

/-- What marks a link to a directory on a page. -/
theorem active_outcome (host : Host) (directory : String) {path : String} {p : Nat} {w : World}
    (hpath : w.binding? p pathKey = some (.text path)) (hne : path ≠ "") :
    (Run.call host (.helper .active) ⟨[.text directory, .dict p], []⟩).outcome w =
      .ok (.text (if isWithin host.cwd directory path then "active" else "")) := by
  let called : World := { w with deeds := .call (.helper .active) [.text directory, .dict p] [] :: w.deeds }
  have hcall : (Run.call host (.helper .active) ⟨[.text directory, .dict p], []⟩).outcome w =
      (do return Value.text (if ← Run.isActive host.cwd (.text directory) (.dict p) then "active" else "") :
        Run Value).outcome called := rfl
  rw [hcall, Run.outcome, Run.run_bind, isActive_run host.cwd directory (w := called) hpath hne]
  rfl

/-! ## The relation -/

/-- Between inner paths, being within a directory is being led through its steps first. So it is an order up to the
spelling, it does not depend on the working directory, and it holds for nothing that leads through another name beside
that of the directory, however the name begins. A link is active just on the pages within its target. -/
theorem isWithin_steps {cwd directory path : String} (hcwd : isAbsolute cwd = true) (hd : IsInner directory)
    (hp : IsInner path) (hne : path ≠ "") :
    (isWithin cwd directory path = true ↔ steps directory <+: steps path) ∧
    (∀ host : Host, host.cwd = cwd → ∀ (p : Nat) (w : World), w.binding? p pathKey = some (.text path) →
      (Run.call host (.helper .active) ⟨[.text directory, .dict p], []⟩).outcome w =
        .ok (.text (if steps directory <+: steps path then "active" else ""))) ∧
    isWithin cwd path path = true ∧
    (∀ further, IsInner further → isWithin cwd directory path = true → isWithin cwd path further = true →
      isWithin cwd directory further = true) ∧
    (isWithin cwd directory path = true → isWithin cwd path directory = true →
      reduce directory = reduce path ∧
        ('\\' ∉ directory.toList → '\\' ∉ path.toList → normalize directory = normalize path)) ∧
    (∀ cwd', isAbsolute cwd' = true → isWithin cwd' directory path = isWithin cwd directory path) ∧
    ∀ above name beside below, steps directory = above ++ [name] → steps path = above ++ beside :: below →
      beside ≠ name → isWithin cwd directory path = false := by
  have hiff := isWithin_iff hcwd hd hp
  refine ⟨hiff, ?_, ?_, ?_, ?_, ?_, ?_⟩
  · rintro host rfl p w hpath
    rw [active_outcome host directory hpath hne]
    simp only [hiff]
  · exact (isWithin_iff hcwd hp hp).2 (List.prefix_refl _)
  · intro further hf hfirst hsecond
    have hthrough := (hiff.1 hfirst).trans ((isWithin_iff hcwd hp hf).1 hsecond)
    exact (isWithin_iff hcwd hd hf).2 hthrough
  · intro hfirst hsecond
    have hback := (isWithin_iff hcwd hp hd).1 hsecond
    have hsteps : steps directory = steps path := (hiff.1 hfirst).eq_of_length_le hback.length_le
    have hreduce := reduce_eq_of_steps hd.relative hp.relative hsteps
    refine ⟨hreduce, fun hd' hp' => ?_⟩
    rw [normalize, normalize, unify_eq hd', unify_eq hp', hreduce]
  · intro cwd' hcwd'
    exact Bool.eq_iff_iff.2 ((isWithin_iff hcwd' hd hp).trans hiff.symm)
  · intro above name beside below hname hbeside hother
    rw [← Bool.not_eq_true, hiff, hname, hbeside, List.prefix_append_right_inj, List.cons_prefix_cons]
    exact fun h => hother h.1.symm

/-- A page whose name begins with dots is within its directory, and one whose name goes on after that of the directory
is beside it. -/
theorem isWithin_steps_dots :
    (isAbsolute "/srv" = true ∧ IsInner "docs/" ∧ IsInner "x/../docs/..a" ∧ IsInner "./docs.old/a") ∧
      isWithin "/srv" "docs/" "x/../docs/..a" = true ∧ isWithin "/srv" "docs/" "./docs.old/a" = false := by
  have hcwd : isAbsolute "/srv" = true := by decide +kernel
  have hdirectory : IsInner "docs/" := by decide +kernel
  have hbelow : IsInner "x/../docs/..a" := by decide +kernel
  have hbeside : IsInner "./docs.old/a" := by decide +kernel
  obtain ⟨hwithin, -⟩ := isWithin_steps hcwd hdirectory hbelow (by decide)
  obtain ⟨-, -, -, -, -, -, hapart⟩ := isWithin_steps hcwd hdirectory hbeside (by decide)
  exact ⟨⟨hcwd, hdirectory, hbelow, hbeside⟩, hwithin.2 (by decide +kernel),
    hapart [] "docs".toList "docs.old".toList ["a".toList] (by decide +kernel) (by decide +kernel) (by decide)⟩

end Path

end NestedSite
