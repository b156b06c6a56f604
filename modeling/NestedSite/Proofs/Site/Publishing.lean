import NestedSite.Proofs.Disk.Making
import NestedSite.Proofs.Site.OutputPath
import NestedSite.Proofs.Site.Writing

/-!
# Publishing texts

Texts with valid paths are written to a directory in which nothing is. After each of them the directory holds what is
written so far, and the directories above it (`Writer.Holds`); the next one finds room if its path neither leads through
one of the others nor is led through by one. So a run succeeds just if no path is the directory of another one, and then
the directory holds the texts and nothing else (`Writer.writeAll_texts`).
-/

namespace NestedSite

namespace Writer

open Documents (goesTo)

variable {d d' : Disk} {directory root p q : Place} {done : List (String × String)} {o : String × String}

/-! ## What a directory holds -/

/-- A text as it is told of. -/
def record (o : String × String) : Written := ⟨o.1, Digest.Sha256.hex (Text.utf8Bytes o.2.toList)⟩

/-- What comes to a place when texts are written, each where its path leads to. -/
def entryOf (done : List (String × String)) (p : Place) : Option DiskEntry :=
  match done.find? fun o => Place.ofPath o.1 == p with
  | some o => some (.file (Text.utf8Bytes o.2.toList))
  | none => if done.any fun o => p.isPrefixOf (Place.ofPath o.1) then some .directory else none

/-- Neither path leads through the other one. -/
def Apart (a b : String × String) : Prop :=
  ¬Place.ofPath a.1 <+: Place.ofPath b.1 ∧ ¬Place.ofPath b.1 <+: Place.ofPath a.1

/-- Below the root is what comes of the texts that are written, and elsewhere is what was there before. -/
structure Holds (d d' : Disk) (root : Place) (done : List (String × String)) : Prop where
  change : d.Change (fun _ => True) d'
  others : ∀ q, ¬root <+: q → d'.lookup? q = d.lookup? q
  below : ∀ p, p ≠ [] → d'.lookup? (root ++ p) = entryOf done p

theorem entryOf_of_apart (h : ∀ a ∈ done, ¬Place.ofPath a.1 <+: q) (hp : p <+: q) :
    entryOf done p = if done.any fun a => p.isPrefixOf (Place.ofPath a.1) then some .directory else none := by
  have hnone : (done.find? fun a => Place.ofPath a.1 == p) = none :=
    List.find?_eq_none.2 fun a ha hplace => h a ha (beq_iff_eq.1 hplace ▸ hp)
  rw [entryOf, hnone]

/-- A text that is written comes to its own place, with the directories above it. -/
theorem entryOf_cons {above : List String} {name : String} (ho : Place.ofPath o.1 = above ++ [name])
    (h : ∀ a ∈ done, Apart a o) (p : Place) : entryOf (o :: done) p =
      if p = above ++ [name] then some (.file (Text.utf8Bytes o.2.toList))
      else if p <+: above then some .directory else entryOf done p := by
  by_cases hp : p = above ++ [name]
  · rw [if_pos hp, entryOf, List.find?_cons_of_pos (by simp [ho, hp])]
  rw [if_neg hp]
  split
  · rename_i habove
    rw [entryOf_of_apart (q := above) ?_ habove, if_pos ?_]
    · refine List.any_eq_true.2 ⟨o, List.mem_cons_self, List.isPrefixOf_iff_prefix.2 ?_⟩
      exact ho ▸ habove.trans (List.prefix_append _ _)
    · refine List.forall_mem_cons.2 ⟨fun hle => ?_, fun a ha hle => ?_⟩
      · have hlength := (ho ▸ hle).length_le
        simp only [List.length_append, List.length_cons, List.length_nil] at hlength
        omega
      · exact (h a ha).1 (ho ▸ hle.trans (List.prefix_append _ _))
  · rename_i habove
    have hnot : p.isPrefixOf (Place.ofPath o.1) = false := by
      cases hle : p.isPrefixOf (Place.ofPath o.1) with
      | false => rfl
      | true =>
        rcases List.prefix_concat_iff.1 (ho ▸ List.isPrefixOf_iff_prefix.1 hle) with hle | hle
        · exact absurd hle hp
        · exact absurd hle habove
    rw [entryOf, entryOf, List.find?_cons_of_neg (by simpa [ho] using Ne.symm hp), List.any_cons, hnot,
      Bool.false_or]

namespace Holds

/-- There is room for a path that leads through none of the others. -/
theorem room (h : Holds d d' root done) (hroot : d.find? root = .ok (root, .directory)) {steps : List String}
    (hnames : ∀ s ∈ steps, Disk.IsName s ∧ s.utf8ByteSize ≤ Disk.nameLimit)
    (hapart : ∀ a ∈ done, ¬Place.ofPath a.1 <+: steps) : d'.Room root steps where
  reached := h.change.find?_directory hroot
  names := hnames
  entries r hr := by
    by_cases hne : r = []
    · rw [hne, List.append_nil]
      exact .inl (Disk.find?_eq_ok_iff.1 (h.change.find?_directory hroot)).2
    · rw [h.below r hne, entryOf_of_apart hapart hr]
      split
      · exact .inl rfl
      · exact .inr rfl

/-- Below a directory, a path is resolved to its own steps. -/
theorem target (h : Holds d d' root done) (hroot : d.find? directory = .ok (root, .directory)) {path : String}
    (hroom : d'.Room root (Place.ofPath path)) (hplain : path.contains '\x00' = false) :
    d'.target directory path = .ok (root ++ Place.ofPath path) := by
  have hdirectory := Disk.straighten_of_find? (h.change.find?_directory hroot)
  have hplace : d'.straighten [] [] (directory ++ Place.ofPath path) = .ok (root ++ Place.ofPath path) := by
    rw [Disk.straighten_append, hdirectory]
    exact hroom.clear.straighten
  unfold Disk.target
  rw [hplain, Disk.resolve_of_straighten hplace, Disk.resolve_of_straighten hdirectory]
  exact (if_neg Bool.false_ne_true).trans (if_pos (List.isPrefixOf_iff_prefix.2 (List.prefix_append _ _)))

/-- One more text is written. -/
theorem writeNamed (h : Holds d d' root done) (hroot : d.find? directory = .ok (root, .directory))
    (hnames : ∀ s ∈ Place.ofPath o.1, Disk.IsName s ∧ s.utf8ByteSize ≤ Disk.nameLimit) (hne : Place.ofPath o.1 ≠ [])
    (hplain : o.1.contains '\x00' = false) (hapart : ∀ a ∈ done, Apart a o) {docs : Documents}
    (hdoc : docs.find? (goesTo o.1) = some (o.1, .text o.2)) (ws : List Written) :
    ∃ written, (writeNamed directory docs o.1).run.run ⟨d', ws⟩ = (.ok (), ⟨written, ws ++ [record o]⟩) ∧
      Holds d written root (o :: done) := by
  have hroom := h.room (Disk.find?_of_find? hroot) hnames fun a ha => (hapart a ha).1
  have htarget := h.target hroot hroom hplain
  have hfree : d'.lookup? (root ++ Place.ofPath o.1) = none := by
    rw [h.below _ hne, entryOf_of_apart (fun a ha => (hapart a ha).1) (List.prefix_refl _), if_neg]
    rintro hany
    obtain ⟨a, ha, hle⟩ := List.any_eq_true.1 hany
    exact (hapart a ha).2 (List.isPrefixOf_iff_prefix.1 hle)
  obtain ⟨above, name, hsteps⟩ : ∃ above name, Place.ofPath o.1 = above ++ [name] := by
    rcases List.eq_nil_or_concat (Place.ofPath o.1) with hnil | ⟨above, name, hsteps⟩
    · exact absurd hnil hne
    · exact ⟨above, name, hsteps.trans List.concat_eq_append⟩
  rw [hsteps] at hroom htarget hfree
  obtain ⟨made, written, hmade, hwritten, hlookup⟩ := hroom.makeAndWrite hfree (Text.utf8Bytes o.2.toList)
  have hdrop : (root ++ (above ++ [name])).dropLast = root ++ above := by
    rw [← List.append_assoc, List.dropLast_concat]
  obtain ⟨q, -, hfile, -⟩ := Disk.writeFile_change hwritten
  have hchange := (h.change.trans ((Disk.makeDirectories_change hmade).mono fun _ _ => trivial)).trans
    (hfile.mono fun _ _ => trivial)
  refine ⟨written, writeNamed_text hdoc htarget (hdrop ▸ hmade) hwritten, hchange, fun q hq => ?_, fun p hp => ?_⟩
  · have hplace : q ≠ root ++ (above ++ [name]) := by
      rintro rfl
      exact hq (List.prefix_append _ _)
    rw [hlookup, if_neg hplace, if_neg fun hbetween => hq hbetween.1, h.others q hq]
  · rw [hlookup, entryOf_cons hsteps hapart, h.below p hp]
    simp only [List.append_cancel_left_eq, List.prefix_append, List.prefix_append_right_inj, true_and]

end Holds

/-! ## Many texts -/

/-- Texts whose paths lead through none of the others are written one after the other. -/
theorem forM_texts (hroot : d.find? directory = .ok (root, .directory)) {docs : Documents}
    {todo : List (String × String)} :
    ∀ {d' : Disk} {done : List (String × String)}, Holds d d' root done →
      (∀ o ∈ todo, docs.find? (goesTo o.1) = some (o.1, .text o.2) ∧ Place.ofPath o.1 ≠ [] ∧
        o.1.contains '\x00' = false ∧ ∀ s ∈ Place.ofPath o.1, Disk.IsName s ∧ s.utf8ByteSize ≤ Disk.nameLimit) →
      todo.Pairwise Apart → (∀ o ∈ todo, ∀ a ∈ done, Apart a o) → ∀ ws : List Written,
      ∃ written, ((todo.map Prod.fst).forM (writeNamed directory docs)).run.run ⟨d', ws⟩ =
          (.ok (), ⟨written, ws ++ todo.map record⟩) ∧ Holds d written root (todo.reverse ++ done) := by
  induction todo with
  | nil => exact fun h _ _ _ ws => ⟨_, by rw [List.map_nil, List.map_nil, List.append_nil]; rfl, h⟩
  | cons o todo ih =>
    intro d' done h hdocs hpairs hapart ws
    obtain ⟨⟨hdoc, hne, hplain, hnames⟩, hdocs⟩ := List.forall_mem_cons.1 hdocs
    obtain ⟨ho, hpairs⟩ := List.pairwise_cons.1 hpairs
    obtain ⟨hdone, hapart⟩ := List.forall_mem_cons.1 hapart
    obtain ⟨first, hfirst, hholds⟩ := h.writeNamed hroot hnames hne hplain hdone hdoc ws
    obtain ⟨written, hrest, hall⟩ := ih hholds hdocs hpairs
      (fun b hb => List.forall_mem_cons.2 ⟨ho b hb, hapart b hb⟩) (ws ++ [record o])
    refine ⟨written, ?_, ?_⟩
    · rw [List.map_cons, List.forM, run_bind, hfirst]
      dsimp only
      rw [hrest, List.append_assoc]
      rfl
    · rwa [List.reverse_cons, List.append_assoc]

/-! ## Runs on texts -/

/-- Texts as documents. -/
def ofTexts (texts : List (String × String)) : Documents := texts.map fun t => (t.1, .text t.2)

theorem paths_ofTexts (texts : List (String × String)) : (ofTexts texts).paths = texts.map Prod.fst := by
  rw [Documents.paths, ofTexts, List.map_map]
  rfl

/-- The texts of `valid` are those of `texts`, under the valid paths that theirs stand for. -/
def Stands (texts valid : List (String × String)) : Prop :=
  List.Forall₂ (fun t o => outputPath t.1 = .ok o.1 ∧ o.2 = t.2) texts valid

theorem Stands.exists_path {texts valid : List (String × String)} (h : Stands texts valid) :
    ∀ o ∈ valid, ∃ path, outputPath path = .ok o.1 := by
  induction h with
  | nil => simp
  | cons ho _ ih => exact List.forall_mem_cons.2 ⟨⟨_, ho.1⟩, ih⟩

theorem Stands.validated {texts valid : List (String × String)} (h : Stands texts valid)
    (hnodup : (valid.map Prod.fst).Nodup) : (ofTexts texts).validated = .ok (ofTexts valid) := by
  have hchecked : (ofTexts texts).mapM Documents.checked = .ok (ofTexts valid) := by
    clear hnodup
    induction h with
    | nil => rfl
    | @cons t o texts valid ho _ ih =>
      rw [ofTexts, List.map_cons, List.mapM_cons, Documents.checked, ho.1,
        show (texts.map fun t => (t.1, Value.text t.2)).mapM Documents.checked = _ from ih, ← ho.2]
      rfl
  rw [Documents.validated_eq, hchecked]
  exact congrArg _ (Documents.gather_of_nodup (paths_ofTexts valid ▸ hnodup))

/-- No path is the directory of another one. -/
def Unnested (valid : List (String × String)) : Prop :=
  ∀ a ∈ valid, ∀ b ∈ valid, Place.ofPath a.1 <+: Place.ofPath b.1 → a.1 = b.1

theorem apart_of_unnested {valid : List (String × String)} (h : Unnested valid) (hnodup : (valid.map Prod.fst).Nodup) :
    valid.Pairwise Apart := by
  have hne : valid.Pairwise fun a b => a.1 ≠ b.1 := List.pairwise_map.1 hnodup
  exact hne.imp_of_mem fun ha hb hab => ⟨fun hle => hab (h _ ha _ hb hle), fun hle => hab (h _ hb _ ha hle).symm⟩

/-- The file at a place is the text whose path leads there. -/
theorem entryOf_eq_file_iff {valid : List (String × String)} (h : Unnested valid)
    (hnodup : (valid.map Prod.fst).Nodup) {p : Place} {c : List UInt8} : entryOf valid p = some (.file c) ↔
      ∃ o ∈ valid, Place.ofPath o.1 = p ∧ c = Text.utf8Bytes o.2.toList := by
  unfold entryOf
  cases hfound : valid.find? fun o => Place.ofPath o.1 == p with
  | none =>
    have hnot := List.find?_eq_none.1 hfound
    constructor
    · intro hentry
      dsimp only at hentry
      split at hentry <;> cases hentry
    · rintro ⟨o, ho, hplace, -⟩
      exact absurd (beq_iff_eq.2 hplace) (hnot o ho)
  | some o =>
    have ho := List.mem_of_find?_eq_some hfound
    have hplace : Place.ofPath o.1 = p := by simpa using List.find?_some hfound
    constructor
    · rintro ⟨⟩
      exact ⟨o, ho, hplace, rfl⟩
    · rintro ⟨a, ha, hsame, rfl⟩
      have hpath : a.1 = o.1 := h a ha o ho (hsame.trans hplace.symm ▸ List.prefix_refl _)
      rw [List.inj_on_of_nodup_map hnodup ha ho hpath]

/-- The texts in the order of their paths. -/
def sortedByPath (valid : List (String × String)) : List (String × String) := valid.mergeSort fun a b => a.1 ≤ b.1

theorem sortedTexts_eq (valid : List (String × String)) :
    sortedTexts (valid.map Prod.fst) = (sortedByPath valid).map Prod.fst := by
  rw [sortedTexts, sortedByPath, List.map_mergeSort]
  exact fun _ _ _ _ => rfl

theorem sortedByPath_perm (valid : List (String × String)) : (sortedByPath valid).Perm valid := List.mergeSort_perm _ _

theorem sortedTexts_pairwise {texts : List String} (h : texts.Nodup) : (sortedTexts texts).Pairwise (· < ·) := by
  have hle : (sortedTexts texts).Pairwise (· ≤ ·) :=
    (List.pairwise_mergeSort
      (fun a b c hab hbc => by simpa using String.le_trans (by simpa using hab) (by simpa using hbc))
      (fun a b => by simpa using String.le_total a b) texts).imp fun h => by simpa using h
  have hne : (sortedTexts texts).Pairwise (· ≠ ·) := (List.mergeSort_perm _ _).nodup_iff.2 h
  exact (hle.and hne).imp fun h => String.not_le.1 fun hba => h.2 (String.le_antisymm h.1 hba)

theorem sortedByPath_pairwise {valid : List (String × String)} (hnodup : (valid.map Prod.fst).Nodup) :
    (sortedByPath valid).Pairwise fun a b => a.1 < b.1 :=
  List.pairwise_map.1 (sortedTexts_eq valid ▸ sortedTexts_pairwise hnodup)

section

variable {texts valid : List (String × String)} {w : Writing}

/-- Texts with valid paths are written in the order of these, if the directory is there. -/
theorem writeAll_run_texts (hstands : Stands texts valid) (hnodup : (valid.map Prod.fst).Nodup)
    (hroot : w.disk.find? directory = .ok (root, .directory)) :
    (writeAll directory (ofTexts texts)).run.run w =
      (((sortedByPath valid).map Prod.fst).forM (writeNamed directory (ofTexts valid))).run.run w := by
  rw [writeAll_run_of_valid (hstands.validated hnodup) (Disk.makeDirectories_of_find? hroot), paths_ofTexts,
    sortedTexts_eq]

/-- Nothing is written yet to a directory in which nothing is. -/
theorem holds_nil (hempty : ∀ p, p ≠ [] → d.lookup? (root ++ p) = none) : Holds d d root [] where
  change := .refl _ _
  others _ _ := rfl
  below p hp := (hempty p hp).trans rfl

/-- The steps of valid paths that a host can name. -/
theorem names_of_stands (hstands : Stands texts valid)
    (hsizes : ∀ o ∈ valid, ∀ s ∈ Place.ofPath o.1, s.utf8ByteSize ≤ Disk.nameLimit) : ∀ o ∈ valid,
    Place.ofPath o.1 ≠ [] ∧ ∀ s ∈ Place.ofPath o.1, Disk.IsName s ∧ s.utf8ByteSize ≤ Disk.nameLimit := by
  intro o ho
  obtain ⟨path, hpath⟩ := hstands.exists_path o ho
  obtain ⟨hne, hnames⟩ := names_of_outputPath hpath
  exact ⟨hne, fun s hs => ⟨hnames s hs, hsizes o ho s hs⟩⟩

/-- If all texts are written, none of the paths leads through a file. -/
theorem unnested_of_wroteAll {docs : Documents} {w' : Writing}
    (hroot : w.disk.find? directory = .ok (root, .directory))
    (hempty : ∀ p, p ≠ [] → w.disk.lookup? (root ++ p) = none)
    (hnames : ∀ o ∈ valid, ∀ s ∈ Place.ofPath o.1, Disk.IsName s ∧ s.utf8ByteSize ≤ Disk.nameLimit)
    (hinj : ∀ a ∈ valid, ∀ b ∈ valid, Place.ofPath a.1 = Place.ofPath b.1 → a.1 = b.1) {paths : List String}
    (hpaths : ∀ o ∈ valid, o.1 ∈ paths) (h : WroteAll directory docs paths w w') : Unnested valid := by
  have hself := Disk.find?_of_find? hroot
  have hplace : ∀ o ∈ valid,
      w'.disk.straighten [] [] (directory ++ Place.ofPath o.1) = .ok (root ++ Place.ofPath o.1) := by
    intro o ho
    have hroom := (holds_nil hempty).room hself (hnames o ho) fun a ha => absurd ha List.not_mem_nil
    rw [h.change.straighten, Disk.straighten_append, Disk.straighten_of_find? hroot]
    exact hroom.clear.straighten
  have hfile : ∀ o ∈ valid,
      w'.disk.follow Disk.linkLimit [] (root ++ Place.ofPath o.1) = .ok (root ++ Place.ofPath o.1) ∧
      (w'.disk.file? (root ++ Place.ofPath o.1)).isSome := by
    intro o ho
    obtain ⟨q, htarget, hfile⟩ := h.exists_file o.1 (hpaths o ho)
    have hleads := htarget.leads
    rw [Disk.straight_of_straighten (hplace o ho), htarget.eq (hplace o ho)] at hleads
    exact ⟨hleads, htarget.eq (hplace o ho) ▸ hfile⟩
  intro a ha b hb ⟨more, hmore⟩
  cases more with
  | nil => exact hinj a ha b hb (by rw [← hmore, List.append_nil])
  | cons name more =>
    -- the other path would lead through a file
    have hleads := (hfile b hb).1
    rw [← hmore, ← List.append_assoc] at hleads
    have hclear := Disk.clear_of_straighten (hplace a ha) (.nil _)
    have hnone := Disk.file?_of_directory (Disk.directory_of_follow_append hleads hclear)
    cases hnone ▸ (hfile a ha).2

/-- Texts with such paths are all written. -/
theorem writeAll_run_of_unnested (hstands : Stands texts valid) (hnodup : (valid.map Prod.fst).Nodup)
    (hplain : ∀ o ∈ valid, o.1.contains '\x00' = false)
    (hsizes : ∀ o ∈ valid, ∀ s ∈ Place.ofPath o.1, s.utf8ByteSize ≤ Disk.nameLimit)
    (hroot : w.disk.find? directory = .ok (root, .directory))
    (hempty : ∀ p, p ≠ [] → w.disk.lookup? (root ++ p) = none) (h : Unnested valid) :
    ∃ written, (writeAll directory (ofTexts texts)).run.run w =
        (.ok (), ⟨written, w.written ++ (sortedByPath valid).map record⟩) ∧
      Holds w.disk written root (sortedByPath valid).reverse := by
  have hperm := sortedByPath_perm valid
  have hsorted : Unnested (sortedByPath valid) := fun a ha b hb => h a (hperm.mem_iff.1 ha) b (hperm.mem_iff.1 hb)
  have hpairs := apart_of_unnested hsorted ((hperm.map Prod.fst).nodup_iff.2 hnodup)
  have hdocs : ∀ o ∈ sortedByPath valid, (ofTexts valid).find? (goesTo o.1) = some (o.1, .text o.2) ∧
      Place.ofPath o.1 ≠ [] ∧ o.1.contains '\x00' = false ∧
      ∀ s ∈ Place.ofPath o.1, Disk.IsName s ∧ s.utf8ByteSize ≤ Disk.nameLimit := by
    intro o ho
    obtain ⟨hne, hnames⟩ := names_of_stands hstands hsizes o (hperm.mem_iff.1 ho)
    refine ⟨Documents.find?_of_mem (paths_ofTexts valid ▸ hnodup) ?_, hne, hplain o (hperm.mem_iff.1 ho), hnames⟩
    exact List.mem_map_of_mem (f := fun t => (t.1, Value.text t.2)) (hperm.mem_iff.1 ho)
  obtain ⟨written, hrun, hholds⟩ := forM_texts hroot (holds_nil hempty) hdocs hpairs
    (fun _ _ _ ha => absurd ha List.not_mem_nil) w.written
  rw [List.append_nil] at hholds
  exact ⟨written, (writeAll_run_texts hstands hnodup hroot).trans hrun, hholds⟩

theorem unnested_of_writeAll (hstands : Stands texts valid) (hnodup : (valid.map Prod.fst).Nodup)
    (hsizes : ∀ o ∈ valid, ∀ s ∈ Place.ofPath o.1, s.utf8ByteSize ≤ Disk.nameLimit)
    (hroot : w.disk.find? directory = .ok (root, .directory))
    (hempty : ∀ p, p ≠ [] → w.disk.lookup? (root ++ p) = none)
    (h : (writeAll directory (ofTexts texts)).outcome w = .ok ()) : Unnested valid := by
  have hperm := (sortedByPath_perm valid).map Prod.fst
  have hends : EndsAll directory (ofTexts valid) ((sortedByPath valid).map Prod.fst) w _ :=
    forM_run (fun path hpath => by rw [paths_ofTexts]; exact hperm.mem_iff.1 hpath) w
  rw [← writeAll_run_texts hstands hnodup hroot] at hends
  unfold outcome at h
  generalize (writeAll directory (ofTexts texts)).run.run w = ended at h hends
  obtain ⟨result, w'⟩ := ended
  obtain rfl : result = .ok () := h
  refine unnested_of_wroteAll hroot hempty (fun o ho => (names_of_stands hstands hsizes o ho).2)
    (fun a ha b hb heq => ?_) (fun o ho => hperm.mem_iff.2 (List.mem_map_of_mem ho)) hends
  obtain ⟨path, hpath⟩ := hstands.exists_path a ha
  obtain ⟨path', hpath'⟩ := hstands.exists_path b hb
  exact outputPath_inj hpath hpath' heq

/-- Texts whose valid paths are all different are written to a directory in which nothing is just if none of the paths
is the directory of another one. Then the files of the directory are the texts, each at its path, and they are told of
in the order of their paths, with their digests; what is elsewhere stays. -/
theorem writeAll_texts (hstands : Stands texts valid) (hnodup : (valid.map Prod.fst).Nodup)
    (hplain : ∀ o ∈ valid, o.1.contains '\x00' = false)
    (hsizes : ∀ o ∈ valid, ∀ s ∈ Place.ofPath o.1, s.utf8ByteSize ≤ Disk.nameLimit)
    (hroot : w.disk.find? directory = .ok (root, .directory))
    (hempty : ∀ p, p ≠ [] → w.disk.lookup? (root ++ p) = none) :
    ((writeAll directory (ofTexts texts)).outcome w = .ok () ↔ Unnested valid) ∧
      ((writeAll directory (ofTexts texts)).outcome w = .ok () →
        ∃ sorted : List (String × String), sorted.Perm valid ∧ sorted.Pairwise (fun a b => a.1 < b.1) ∧
          ((writeAll directory (ofTexts texts)).after w).written = w.written ++ sorted.map record ∧
          (∀ p c, ((writeAll directory (ofTexts texts)).after w).disk.lookup? (root ++ p) = some (.file c) ↔
            ∃ o ∈ valid, Place.ofPath o.1 = p ∧ c = Text.utf8Bytes o.2.toList) ∧
          ∀ q, ¬root <+: q → ((writeAll directory (ofTexts texts)).after w).disk.lookup? q = w.disk.lookup? q) := by
  have hall := writeAll_run_of_unnested hstands hnodup hplain hsizes hroot hempty
  have hnested := unnested_of_writeAll hstands hnodup hsizes hroot hempty
  refine ⟨⟨hnested, fun h => ?_⟩, fun h => ?_⟩
  · obtain ⟨written, hrun, -⟩ := hall h
    exact congrArg Prod.fst hrun
  · have hunnested := hnested h
    obtain ⟨written, hrun, hholds⟩ := hall hunnested
    have hperm := sortedByPath_perm valid
    have hreverse : (sortedByPath valid).reverse.Perm valid := (List.reverse_perm _).trans hperm
    refine ⟨sortedByPath valid, hperm, sortedByPath_pairwise hnodup, ?_, fun p c => ?_, fun q hq => ?_⟩ <;>
      rw [after, hrun]
    · by_cases hp : p = []
      · have hd := (Disk.find?_eq_ok_iff.1 (hholds.change.find?_directory hroot)).2
        rw [hp, List.append_nil, hd]
        constructor
        · rintro ⟨⟩
        · rintro ⟨o, ho, hnil, -⟩
          exact absurd hnil (names_of_stands hstands hsizes o ho).1
      · rw [hholds.below p hp, entryOf_eq_file_iff
          (fun a ha b hb => hunnested a (hreverse.mem_iff.1 ha) b (hreverse.mem_iff.1 hb))
          ((hreverse.map Prod.fst).nodup_iff.2 hnodup)]
        exact exists_congr fun o => and_congr_left' hreverse.mem_iff
    · exact hholds.others q hq

end

/-- A directory in which nothing is. -/
def vacant : Disk where
  entries := [(["dist"], .directory)]

/-- A page and one below it are not written both; a page beside it is. -/
theorem writeAll_texts_nested :
    (writeAll ["dist"] (ofTexts [("a", "1"), ("a/b", "2")])).outcome ⟨vacant, []⟩ ≠ .ok () ∧
      (writeAll ["dist"] (ofTexts [("c", "1"), ("a/b", "2")])).outcome ⟨vacant, []⟩ = .ok () := by
  have hroot : vacant.find? ["dist"] = .ok (["dist"], .directory) := by cbv
  have hempty : ∀ p, p ≠ [] → vacant.lookup? (["dist"] ++ p) = none := fun p hp => by
    cases p with
    | nil => exact absurd rfl hp
    | cons s p => rfl
  have ha : outputPath "a" = .ok "a" := by cbv
  have hb : outputPath "a/b" = .ok "a/b" := by cbv
  have hc : outputPath "c" = .ok "c" := by cbv
  have hnested := writeAll_texts (w := ⟨vacant, []⟩)
    (show Stands [("a", "1"), ("a/b", "2")] [("a", "1"), ("a/b", "2")] from .cons ⟨ha, rfl⟩ (.cons ⟨hb, rfl⟩ .nil))
    (by decide) (by simp) (by decide +kernel) hroot hempty
  have hbeside := writeAll_texts (w := ⟨vacant, []⟩)
    (show Stands [("c", "1"), ("a/b", "2")] [("c", "1"), ("a/b", "2")] from .cons ⟨hc, rfl⟩ (.cons ⟨hb, rfl⟩ .nil))
    (by decide) (by simp) (by decide +kernel) hroot hempty
  have hplaces : Place.ofPath "a" = ["a"] ∧ Place.ofPath "a/b" = ["a", "b"] ∧ Place.ofPath "c" = ["c"] :=
    ⟨by cbv, by cbv, by cbv⟩
  refine ⟨fun hok => absurd (hnested.1.1 hok ("a", "1") (by simp) ("a/b", "2") (by simp)) ?_, hbeside.1.2 ?_⟩
  · simp [hplaces]
  · simp [Unnested, hplaces]

end Writer

end NestedSite
