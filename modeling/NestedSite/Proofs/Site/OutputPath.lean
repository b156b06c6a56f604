import NestedSite.Proofs.Disk.Following
import NestedSite.Proofs.Path
import NestedSite.Site.Argument

/-!
# Valid output paths

The segments of a path are kept from left to right, and `..` takes back the last name that was kept (`Path.keep`). A path
that neither begins at a root nor names a drive is valid if something is kept of it and nothing that is kept steps up;
it is then spelled by what is kept (`outputPath_kept`). So a valid output path is spelled by names, none of which stays
or climbs (`names_of_outputPath`), and the names tell the path (`outputPath_inj`). The check for roots and drives reads
the path as it is written: a drive that stands behind a step that leads nowhere gets through, and nothing else does
(`outputPath_again`).
-/

namespace NestedSite

open Path (segments unsegments isStill isUp Settled follow)

namespace Path

/-! ## Segments -/

/-- Without a step up at the beginning there is none. -/
theorem Settled.not_up {rooted : Bool} : ∀ {ss : List (List Char)}, Settled rooted ss →
    (∀ s ∈ ss.getLast?, isUp s = false) → ∀ s ∈ ss, isUp s = false
  | [], _, _ => by simp
  | [s], _, hlast => by simpa using hlast
  | s :: t :: below, h, hlast => by
    have hbelow := Settled.not_up h.2.2 (by simpa using hlast)
    refine List.forall_mem_cons.2 ⟨?_, hbelow⟩
    cases hup : isUp s with
    | false => rfl
    | true => exact ((h.2.1 hup).2 t List.mem_cons_self).symm.trans (hbelow t List.mem_cons_self)

theorem Settled.not_still {rooted : Bool} : ∀ {ss : List (List Char)}, Settled rooted ss → ∀ s ∈ ss, isStill s = false
  | [], _ => by simp
  | _ :: _, h => List.forall_mem_cons.2 ⟨h.1, Settled.not_still h.2.2⟩

/-- The shortest spelling of a path that begins at no root. -/
theorem reduceChars_of_relative {cs : List Char} (h : cs.head? ≠ some '/') :
    reduceChars cs = match unsegments (follow false [] (segments cs)) with
      | [] => ['.']
      | path => path := by
  have hroot : rootSlashes cs = [] := rootSlashes_append (.inl rfl) h
  unfold reduceChars
  rw [hroot]
  rfl

/-! ## What is kept of a path -/

/-- What is kept, the last segment at the end, when one more segment is read. -/
def keep (kept : List (List Char)) (s : List Char) : List (List Char) :=
  if isStill s then kept
  else if isUp s && kept.getLast?.any (!isUp ·) then kept.dropLast
  else kept ++ [s]

/-- What is kept of all segments of a path, between slashes of either kind. -/
@[irreducible]
def kept (path : String) : List (List Char) := (segments (unify path).toList).foldl keep []

theorem follow_cons (stack : List (List Char)) (s : List Char) (ss : List (List Char)) :
    follow false stack (s :: ss) = follow false (keep stack.reverse s).reverse ss := by
  cases hstill : isStill s with
  | true => simp [follow, keep, hstill]
  | false =>
    cases hup : isUp s with
    | false => simp [follow, keep, hstill, hup]
    | true =>
      cases stack with
      | nil => simp [follow, keep, hstill, hup]
      | cons t rest => cases ht : isUp t <;> simp [follow, keep, hstill, hup, ht]

/-- Following segments with a stack keeps the same as reading them from left to right. -/
theorem follow_eq_foldl (ss : List (List Char)) : ∀ stack, follow false stack ss = ss.foldl keep stack.reverse := by
  induction ss with
  | nil => intro stack; rfl
  | cons s ss ih => intro stack; rw [follow_cons, ih, List.reverse_reverse, List.foldl_cons]

theorem kept_eq_follow (path : String) : kept path = follow false [] (segments (unify path).toList) := by
  rw [kept, follow_eq_foldl, List.reverse_nil]

theorem settled_kept (path : String) : Settled false (kept path).reverse := by
  rw [kept_eq_follow]
  generalize segments (unify path).toList = ss
  exact follow_settled trivial

theorem plain_kept (path : String) : ∀ s ∈ kept path, '/' ∉ s := by
  rw [kept_eq_follow]
  exact fun s hs => (mem_follow hs).elim (fun h => absurd h List.not_mem_nil) fun h => (mem_segments s h).1

/-- What is kept steps up just if it begins so. -/
theorem up_mem_kept (path : String) : ['.', '.'] ∈ kept path ↔ (kept path).head? = some ['.', '.'] := by
  refine ⟨fun h => ?_, List.mem_of_mem_head?⟩
  by_cases hhead : (kept path).head? = some ['.', '.']
  · exact hhead
  have hlast : ∀ s ∈ (kept path).reverse.getLast?, isUp s = false := by
    rw [List.getLast?_reverse]
    intro s hs
    cases hup : isUp s with
    | false => rfl
    | true => exact absurd (beq_iff_eq.1 hup ▸ hs) hhead
  cases (settled_kept path).not_up hlast _ (List.mem_reverse.2 h)

/-- What segments spell begins with a step up just if they do. -/
theorem isPrefixOf_unsegments {ss : List (List Char)} (hne : ss ≠ []) (hplain : ∀ s ∈ ss, '/' ∉ s) :
    unsegments ss = ['.', '.'] ∨ ['.', '.', '/'] <+: unsegments ss ↔ ss.head? = some ['.', '.'] := by
  constructor
  · rintro (h | ⟨rest, h⟩)
    · rw [← segments_unsegments hne hplain, h]
      rfl
    · rw [← segments_unsegments hne hplain, ← h]
      rfl
  · intro h
    obtain ⟨rest, rfl⟩ := List.head?_eq_some_iff.1 h
    cases rest with
    | nil => exact .inl rfl
    | cons t rest => exact .inr (by simp [unsegments])

/-- What is kept has the characters of the path, whose backslashes are slashes. -/
theorem backslash_kept (path : String) : ∀ s ∈ kept path, '\\' ∉ s := by
  intro s hs hmem
  rw [kept_eq_follow] at hs
  have hsegment : s ∈ segments (unify path).toList := (mem_follow hs).elim (fun h => absurd h List.not_mem_nil) id
  have hpath := (mem_segments s hsegment).2 _ hmem
  rw [unify, String.toList_ofList, List.mem_map] at hpath
  obtain ⟨c, -, hc⟩ := hpath
  split at hc
  · exact absurd hc (by decide)
  · simp_all

theorem backslash_unsegments (path : String) : '\\' ∉ (String.ofList (unsegments (kept path))).toList := by
  rw [String.toList_ofList]
  intro hmem
  rcases mem_unsegments hmem with h | ⟨s, hs, h⟩
  · exact absurd h (by decide)
  · exact backslash_kept path s hs h

/-- All that is kept of a path is kept when it is spelled so. -/
theorem kept_unsegments {path : String} (hne : kept path ≠ []) :
    kept (.ofList (unsegments (kept path))) = kept path := by
  rw [kept_eq_follow (.ofList _), unify_eq (backslash_unsegments path), String.toList_ofList,
    segments_unsegments hne (plain_kept path)]
  exact follow_eq (by simpa using settled_kept path)

/-- A relative path is spelled by what is kept of it, or leads nowhere. -/
theorem reduceChars_kept {path : String} (h : (unify path).toList.head? ≠ some '/') :
    reduceChars (unify path).toList = if kept path = [] then ['.'] else unsegments (kept path) := by
  rw [reduceChars_of_relative h, ← kept_eq_follow]
  have hne := (settled_kept path).head_ne
  generalize kept path = ss at hne
  split
  · rename_i hnil
    cases ss with
    | nil => rfl
    | cons s ss =>
      have hs : s = [] := by cases ss <;> simp_all [unsegments]
      exact absurd hs (hne s (by simp))
  · rename_i hpath
    rw [if_neg fun hnil => hpath (by simp [hnil, unsegments])]

end Path

/-! ## Which paths are valid -/

/-- Whether a path, as it is written, begins at a root or names a drive. -/
def IsRooted (path : String) : Prop :=
  path.toList.head? = some '/' ∨ path.toList.head? = some '\\' ∨ path.toList[1]? = some ':'

instance (path : String) : Decidable (IsRooted path) :=
  inferInstanceAs (Decidable (_ ∨ _ ∨ _))

theorem isRooted_cons (c : Char) (cs : List Char) : isRooted (c :: cs) = true ↔ c = '/' ∨ cs.head? = some ':' := by
  unfold isRooted
  split
  · simp_all
  · simp_all
  · rename_i hslash hcolon
    rw [List.head?_eq_some_iff]
    simp_all

theorem isRooted_unify (path : String) : isRooted (Path.unify path).toList = true ↔ IsRooted path := by
  have hslash (c : Char) : (if c == '\\' then '/' else c) = '/' ↔ c = '/' ∨ c = '\\' := by split <;> simp_all
  have hcolon (c : Char) : (if c == '\\' then '/' else c) = ':' ↔ c = ':' := by split <;> simp_all
  rw [Path.unify, String.toList_ofList, IsRooted]
  cases path.toList with
  | nil => simp [isRooted]
  | cons c cs =>
    rw [List.map_cons, isRooted_cons, hslash]
    cases cs with
    | nil => simp
    | cons d cs => rw [List.map_cons, List.head?_cons, Option.some_inj, hcolon]; simp [or_assoc]

/-- The spelling of a relative path leads out of where it begins, or nowhere, just if nothing is kept of it or what is
kept steps up. -/
theorem leaves_reduce {path : String} (h : (Path.unify path).toList.head? ≠ some '/') :
    (Path.reduce (Path.unify path) == "." || Path.reduce (Path.unify path) == ".." ||
        "../".isPrefixOf (Path.reduce (Path.unify path))) = true ↔
      Path.kept path = [] ∨ ['.', '.'] ∈ Path.kept path := by
  have hchars (s : String) : Path.reduce (Path.unify path) = s ↔ Path.reduceChars (Path.unify path).toList = s.toList := by
    rw [Path.reduce, ← String.toList_inj, String.toList_ofList]
  simp only [Bool.or_eq_true, beq_iff_eq, String.isPrefixOf, String.startsWith_string_iff, hchars, or_assoc]
  rw [Path.reduce, String.toList_ofList, Path.reduceChars_kept h]
  by_cases hnil : Path.kept path = []
  · simp [hnil]
  rw [if_neg hnil, Path.up_mem_kept, ← Path.isPrefixOf_unsegments hnil (Path.plain_kept path)]
  have hhere : unsegments (Path.kept path) ≠ ['.'] := by
    intro hdot
    have hmem : ['.'] ∈ Path.kept path := by
      rw [← Path.segments_unsegments hnil (Path.plain_kept path), hdot]
      exact List.mem_singleton.2 rfl
    cases (Path.settled_kept path).not_still _ (List.mem_reverse.2 hmem)
  simp [hnil, hhere]

/-- The validity of a path, read off what is kept of it. -/
theorem outputPath_eq (path : String) :
    outputPath path =
      if path = "" then .error .empty
      else if IsRooted path then .error (.absolute path)
      else if Path.kept path = [] ∨ ['.', '.'] ∈ Path.kept path then .error (.traversal path)
      else .ok (.ofList (unsegments (Path.kept path))) := by
  unfold outputPath
  by_cases hempty : path = ""
  · simp [hempty, throw, throwThe, MonadExceptOf.throw]
  rw [if_neg (by simpa using hempty), if_neg hempty]
  dsimp only
  by_cases hrooted : IsRooted path
  · rw [if_pos ((isRooted_unify path).2 hrooted), if_pos hrooted]
    rfl
  rw [if_neg (mt (isRooted_unify path).1 hrooted), if_neg hrooted]
  have hhead : (Path.unify path).toList.head? ≠ some '/' := by
    intro hhead
    obtain ⟨rest, hrest⟩ := List.head?_eq_some_iff.1 hhead
    refine mt (isRooted_unify path).1 hrooted ?_
    rw [hrest]
    rfl
  by_cases hleaves : Path.kept path = [] ∨ ['.', '.'] ∈ Path.kept path
  · rw [if_pos ((leaves_reduce hhead).2 hleaves), if_pos hleaves]
    rfl
  · rw [if_neg (mt (leaves_reduce hhead).1 hleaves), if_neg hleaves, Path.reduce, Path.reduceChars_kept hhead,
      if_neg (not_or.1 hleaves).1]
    rfl

theorem outputPath_eq_ok_iff {path out : String} :
    outputPath path = .ok out ↔ path ≠ "" ∧ ¬IsRooted path ∧ Path.kept path ≠ [] ∧ ['.', '.'] ∉ Path.kept path ∧
      out = .ofList (unsegments (Path.kept path)) := by
  rw [outputPath_eq]
  constructor
  · intro h
    split at h
    · cases h
    rename_i hempty
    split at h
    · cases h
    rename_i hrooted
    split at h
    · cases h
    rename_i hkept
    exact ⟨hempty, hrooted, (not_or.1 hkept).1, (not_or.1 hkept).2, (Except.ok.inj h).symm⟩
  · rintro ⟨hempty, hrooted, hne, hup, rfl⟩
    rw [if_neg hempty, if_neg hrooted, if_neg (not_or.2 ⟨hne, hup⟩)]

/-- A valid output path goes down by names. -/
theorem segments_of_outputPath {path out : String} (h : outputPath path = .ok out) :
    ∃ ss, ss ≠ [] ∧ (∀ s ∈ ss, '/' ∉ s ∧ isStill s = false ∧ isUp s = false) ∧ out = .ofList (unsegments ss) := by
  obtain ⟨-, -, hne, hup, rfl⟩ := outputPath_eq_ok_iff.1 h
  refine ⟨Path.kept path, hne, fun s hs => ⟨Path.plain_kept path s hs, ?_, ?_⟩, rfl⟩
  · exact (Path.settled_kept path).not_still s (List.mem_reverse.2 hs)
  · exact beq_eq_false_iff_ne.2 fun hs' => hup (hs' ▸ hs)

/-- The names that segments are. -/
theorem ofPath_unsegments {ss : List (List Char)} (hne : ss ≠ []) (hplain : ∀ s ∈ ss, '/' ∉ s)
    (hstill : ∀ s ∈ ss, isStill s = false) : Place.ofPath (.ofList (unsegments ss)) = ss.map String.ofList := by
  have hfilter : ss.filter (!·.isEmpty) = ss := List.filter_eq_self.2 fun s hs => by
    cases s with
    | nil => cases hstill [] hs
    | cons c cs => rfl
  rw [Place.ofPath, String.toList_ofList, Path.segments_unsegments hne hplain, hfilter]

/-- The steps of a valid output path are names, and there is one at least. -/
theorem names_of_outputPath {path out : String} (h : outputPath path = .ok out) :
    Place.ofPath out ≠ [] ∧ ∀ s ∈ Place.ofPath out, Disk.IsName s := by
  obtain ⟨ss, hne, hss, rfl⟩ := segments_of_outputPath h
  rw [ofPath_unsegments hne (fun s hs => (hss s hs).1) fun s hs => (hss s hs).2.1]
  refine ⟨by simpa using hne, fun s hs => ?_⟩
  obtain ⟨cs, hcs, rfl⟩ := List.mem_map.1 hs
  obtain ⟨-, hstill, hup⟩ := hss cs hcs
  refine ⟨fun hdot => ?_, fun hdots => ?_⟩
  · rw [String.ofList_injective (hdot : String.ofList cs = .ofList ['.'])] at hstill
    cases hstill
  · rw [String.ofList_injective (hdots : String.ofList cs = .ofList ['.', '.'])] at hup
    cases hup

/-- Different output paths lead to different places. -/
theorem outputPath_inj {path path' out out' : String} (h : outputPath path = .ok out) (h' : outputPath path' = .ok out')
    (heq : Place.ofPath out = Place.ofPath out') : out = out' := by
  obtain ⟨ss, hne, hss, rfl⟩ := segments_of_outputPath h
  obtain ⟨ss', hne', hss', rfl⟩ := segments_of_outputPath h'
  rw [ofPath_unsegments hne (fun s hs => (hss s hs).1) fun s hs => (hss s hs).2.1,
    ofPath_unsegments hne' (fun s hs => (hss' s hs).1) fun s hs => (hss' s hs).2.1] at heq
  rw [(List.map_inj_right fun _ _ => String.ofList_injective).1 heq]

/-! ## Plain spellings -/

/-- A path that leads to a place below where it begins, spelled by the names on the way. -/
structure IsPlain (path : String) : Prop where
  nonempty : path ≠ ""
  relative : Path.isAbsolute path = false
  slashes : '\\' ∉ path.toList
  names : ∀ s ∈ segments path.toList, s ≠ [] ∧ s ≠ ['.'] ∧ s ≠ ['.', '.']

theorem isPlain_of_outputPath {path out : String} (h : outputPath path = .ok out) : IsPlain out := by
  obtain ⟨-, -, hne, hup, rfl⟩ := outputPath_eq_ok_iff.1 h
  have hnames : ∀ s ∈ Path.kept path, s ≠ [] ∧ s ≠ ['.'] ∧ s ≠ ['.', '.'] := by
    intro s hs
    have hstill := (Path.settled_kept path).not_still s (List.mem_reverse.2 hs)
    refine ⟨?_, ?_, ?_⟩ <;> rintro rfl
    · cases hstill
    · cases hstill
    · exact hup hs
  have hhead := Path.head?_unsegments (fun s hs => (hnames s hs).1) (Path.plain_kept path)
  refine ⟨?_, ?_, Path.backslash_unsegments path, ?_⟩
  · intro hempty
    have hsegments := Path.segments_unsegments hne (Path.plain_kept path)
    rw [show unsegments (Path.kept path) = [] from String.ofList_injective hempty] at hsegments
    exact (hnames [] (hsegments ▸ List.mem_singleton.2 rfl)).1 rfl
  · simpa [Path.isAbsolute] using hhead
  · rw [String.toList_ofList, Path.segments_unsegments hne (Path.plain_kept path)]
    exact hnames

/-- A path is valid if it begins at no root, names no drive, and what is kept of it is something and steps up nowhere.
It is then spelled by what is kept. -/
theorem outputPath_kept (path : String) :
    outputPath path =
        (if path = "" then .error .empty
        else if IsRooted path then .error (.absolute path)
        else if Path.kept path = [] ∨ ['.', '.'] ∈ Path.kept path then .error (.traversal path)
        else .ok (.ofList (unsegments (Path.kept path)))) ∧
      ∀ out, outputPath path = .ok out → IsPlain out :=
  ⟨outputPath_eq path, fun _ => isPlain_of_outputPath⟩

theorem outputPath_kept_backslashes :
    outputPath "docs\\.\\..\\..a//b/c/.." = .ok "..a/b" ∧ IsPlain "..a/b" := by
  have hout : outputPath "docs\\.\\..\\..a//b/c/.." = .ok "..a/b" := outputPath_eq_ok_iff.2 (by decide +kernel)
  exact ⟨hout, (outputPath_kept _).2 _ hout⟩

/-! ## Validity of the spelling -/

/-- If the spelling of a valid path is valid itself, it is its own spelling. -/
theorem outputPath_fixed {path out out' : String} (h : outputPath path = .ok out) (h' : outputPath out = .ok out') :
    out' = out := by
  obtain ⟨-, -, hne, -, rfl⟩ := outputPath_eq_ok_iff.1 h
  obtain ⟨-, -, -, -, rfl⟩ := outputPath_eq_ok_iff.1 h'
  rw [Path.kept_unsegments hne]

/-- A step in front that leads nowhere hides what a path begins with. -/
theorem outputPath_here {path : String} (hne : Path.kept path ≠ []) (hup : ['.', '.'] ∉ Path.kept path) :
    outputPath ("./" ++ path) = .ok (.ofList (unsegments (Path.kept path))) := by
  have hkept : Path.kept ("./" ++ path) = Path.kept path := by
    simp [Path.kept, Path.unify, segments, Path.keep, isStill]
  have hrooted : ¬IsRooted ("./" ++ path) := by simp [IsRooted]
  rw [outputPath_eq_ok_iff, hkept]
  exact ⟨by simp [← String.toList_inj], hrooted, hne, hup, rfl⟩

/-- A valid path in its spelling is valid once more, and stays as it is, unless its spelling names a drive: that is
refused, though it is valid behind a step that leads nowhere. -/
theorem outputPath_again {path out : String} (h : outputPath path = .ok out) :
    outputPath out = (if out.toList[1]? = some ':' then .error (.absolute out) else .ok out) ∧
      outputPath ("./" ++ out) = .ok out := by
  obtain ⟨-, -, hne, hup, rfl⟩ := outputPath_eq_ok_iff.1 h
  have hplain := isPlain_of_outputPath h
  have hkept := Path.kept_unsegments hne
  refine ⟨?_, ?_⟩
  · rw [outputPath_eq, if_neg hplain.nonempty, hkept, if_neg (not_or.2 ⟨hne, hup⟩)]
    have hrooted : IsRooted (.ofList (unsegments (Path.kept path))) ↔
        (String.ofList (unsegments (Path.kept path))).toList[1]? = some ':' := by
      refine ⟨fun h => ?_, fun h => .inr (.inr h)⟩
      rcases h with h | h | h
      · exact absurd h (by simpa [Path.isAbsolute] using hplain.relative)
      · exact absurd (List.mem_of_mem_head? h) hplain.slashes
      · exact h
    simp only [hrooted]
  · rw [← hkept] at hne hup
    rw [outputPath_here hne hup, hkept]

theorem outputPath_again_drive : outputPath "./C:/x" = .ok "C:/x" ∧ outputPath "C:/x" = .error (.absolute "C:/x") := by
  have hout : outputPath "./C:/x" = .ok "C:/x" := outputPath_eq_ok_iff.2 (by decide +kernel)
  have hagain := (outputPath_again hout).1
  rw [if_pos (by decide +kernel)] at hagain
  exact ⟨hout, hagain⟩

end NestedSite
