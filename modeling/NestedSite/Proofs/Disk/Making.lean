import NestedSite.Proofs.Disk.Change

/-!
# Making directories where there is room

A place that can be gone to is led to by its own names (`Disk.Leads.self`). Below a directory there is room for some
steps if each place on their way is a directory or is missing (`Disk.Room`). Then all directories on the way can be made
(`Disk.Room.makeDirectories`), and a file can be written at the end if nothing is there yet (`Disk.Room.writeFile`).
-/

namespace NestedSite

namespace Disk

variable {d d' : Disk} {p q root : Place} {steps : List String} {name : String}

/-! ## Places that are reached -/

/-- A place that steps lead to is led to by the names on the way to it. -/
theorem Leads.self {here : Place} {n : Nat} (h : d.Leads here steps q n) (hhere : d.Leads [] here here 0) :
    d.Leads [] q q 0 := by
  induction h with
  | done => exact hhere
  | stay _ _ _ ih => exact ih hhere
  | @up here _ _ _ _ _ _ _ ih =>
    have hclear := (clear_of_straighten (straighten_of_follow (follow_eq_ok_iff.2 ⟨0, Nat.le_refl 0, hhere⟩))
      (.nil d)).dropLast
    rcases List.eq_nil_or_concat here with rfl | ⟨above, name, rfl⟩
    · exact ih .done
    · rw [List.concat_eq_append] at hhere hclear ih
      rw [List.dropLast_concat] at hclear ih
      obtain ⟨there, i, j, habove, -, hzero⟩ := hhere.split
      obtain rfl : there = above := hclear.eq_of_leads habove
      obtain rfl : i = 0 := by omega
      exact ih habove
  | name hd hname hsize hlink _ ih => exact ih (hhere.append (.name hd hname hsize hlink .done))
  | @link here _ _ _ target _ _ _ _ _ _ _ _ _ ihtarget ih =>
    refine ih (ihtarget ?_)
    unfold linkStart
    cases Path.isAbsolute target with
    | true => exact .done
    | false => exact hhere

theorem leads_self_of_find? {e : DiskEntry} (h : d.find? p = .ok (q, e)) : d.Leads [] q q 0 := by
  obtain ⟨n, -, hleads⟩ := leads_of_follow (find?_eq_ok_iff.1 h).1
  exact hleads.self .done

/-- What is found is found at its own place. -/
theorem find?_of_find? {e : DiskEntry} (h : d.find? p = .ok (q, e)) : d.find? q = .ok (q, e) :=
  find?_eq_ok_iff.2 ⟨follow_eq_ok_iff.2 ⟨0, Nat.zero_le _, leads_self_of_find? h⟩, (find?_eq_ok_iff.1 h).2⟩

/-- On the way to a place there are directories. -/
theorem directory_of_follow_append {links : Nat} {name : String} (h : d.follow links [] (p ++ name :: steps) = .ok q)
    (hclear : d.Clear p) : d.lookup? p = some .directory := by
  obtain ⟨n, -, hleads⟩ := leads_of_follow h
  obtain ⟨there, i, j, hfirst, hrest, -⟩ := hleads.split
  obtain rfl : there = p := hclear.eq_of_leads hfirst
  exact directory_of_follow (follow_eq_ok_iff.2 ⟨j, Nat.le_refl j, hrest⟩)

/-- Steps from a place that is led to by its own names are taken there. -/
theorem follow_append_of_leads {links : Nat} (h : d.Leads [] p p 0) :
    d.follow links [] (p ++ steps) = d.follow links p steps := h.follow (Nat.zero_le _)

/-! ## Directories that are there -/

theorem ensureDirectory_of_find? (h : d.find? p = .ok (q, .directory)) : d.ensureDirectory p = .ok d := by
  unfold ensureDirectory
  cases hmade : d.makeDirectory p with
  | error f => rw [h]; rfl
  | ok d' =>
    -- what is made was missing
    rcases List.eq_nil_or_concat p with rfl | ⟨above, name, rfl⟩
    · cases hmade
    · rw [List.concat_eq_append] at hmade h
      obtain ⟨there, hfollow, hd, hname, hsize, hfree, -⟩ := makeDirectory_eq_ok_iff.1 hmade
      obtain ⟨n, hn, hleads⟩ := leads_of_follow hfollow
      have hlink : d.link? (there ++ [name]) = none := link?_of_ne fun target htarget => by
        cases hfree.symm.trans htarget
      have hplace := follow_eq_ok_iff.2 ⟨n + 0, hn, hleads.append (.name hd hname hsize hlink .done)⟩
      obtain ⟨hq, hentry⟩ := find?_eq_ok_iff.1 h
      cases hplace.symm.trans hq
      cases hfree.symm.trans hentry

theorem makeDirectories_of_find? (h : d.find? p = .ok (q, .directory)) : d.makeDirectories p = .ok d := by
  unfold makeDirectories
  rw [← List.reverse_reverse p] at h
  generalize p.reverse = back at h
  cases back with
  | nil => rfl
  | cons last above =>
    unfold makeDirectoriesBack
    rw [ensureDirectory_of_find? h]

/-! ## Room for steps -/

/-- Below a directory, each place on the way of some names is a directory or is missing. -/
structure Room (d : Disk) (root : Place) (steps : List String) : Prop where
  reached : d.find? root = .ok (root, .directory)
  names : ∀ s ∈ steps, IsName s ∧ s.utf8ByteSize ≤ nameLimit
  entries : ∀ r, r <+: steps → d.lookup? (root ++ r) = some .directory ∨ d.lookup? (root ++ r) = none

/-- Whether all places from a directory to the end of some steps are directories. -/
def IsWay (d : Disk) (root : Place) (steps : List String) : Prop :=
  ∀ r, r <+: steps → d.lookup? (root ++ r) = some .directory

/-- Names are followed as long as there are directories. -/
theorem follow_names (links : Nat) : ∀ {steps : List String} {here : Place},
    (∀ s ∈ steps, IsName s ∧ s.utf8ByteSize ≤ nameLimit) →
    (∀ r, r <+: steps → d.lookup? (here ++ r) = some .directory ∨ d.lookup? (here ++ r) = none) →
    d.follow links here steps = .ok (here ++ steps) ∧
        (∀ r, r <+: steps → r ≠ steps → d.lookup? (here ++ r) = some .directory) ∨
      d.follow links here steps = .error .notFound ∧ ∃ r, r <+: steps ∧ d.lookup? (here ++ r) = none
  | [], here, _, _ => .inl ⟨by simp, fun r hr hne => absurd (List.prefix_nil.1 hr) hne⟩
  | step :: steps, here, hnames, hentries => by
    rcases hentries [] List.nil_prefix with hd | hnone
    · rw [List.append_nil] at hd
      obtain ⟨⟨hname, hsize⟩, hrest⟩ := List.forall_mem_cons.1 hnames
      have hnext (r : List String) : here ++ step :: r = here ++ [step] ++ r := by simp
      have hlink : d.link? (here ++ [step]) = none := link?_of_ne fun target htarget => by
        rcases hentries [step] (by simp) with h | h <;> cases h.symm.trans htarget
      rw [follow_plain hd hname hsize hlink, hnext steps]
      rcases follow_names links hrest fun r hr =>
        hnext r ▸ hentries (step :: r) (List.cons_prefix_cons.2 ⟨rfl, hr⟩) with
        ⟨hfollow, hall⟩ | ⟨hfollow, r, hr, hnone⟩
      · refine .inl ⟨hfollow, fun r hr hne => ?_⟩
        cases r with
        | nil => rwa [List.append_nil]
        | cons s r =>
          obtain ⟨rfl, hrest⟩ := List.cons_prefix_cons.1 hr
          exact hnext r ▸ hall r hrest fun heq => hne (heq ▸ rfl)
      · exact .inr ⟨hfollow, step :: r, List.cons_prefix_cons.2 ⟨rfl, hr⟩, hnext r ▸ hnone⟩
    · refine .inr ⟨?_, [], List.nil_prefix, hnone⟩
      rw [List.append_nil] at hnone
      rw [follow, hnone]
      rfl

namespace Room

theorem of_prefix {r : List String} (h : d.Room root steps) (hr : r <+: steps) : d.Room root r where
  reached := h.reached
  names s hs := h.names s (hr.subset hs)
  entries t ht := h.entries t (ht.trans hr)

theorem clear (h : d.Room root steps) : d.Clear (root ++ steps) := by
  obtain ⟨hroot, hd⟩ := find?_eq_ok_iff.1 h.reached
  have hclear := clear_of_straighten (straighten_of_follow hroot) (.nil d)
  refine ⟨fun q hq => ?_, fun s hs => ?_⟩
  · rcases List.prefix_or_prefix_of_prefix hq (List.prefix_append root steps) with hq | ⟨r, rfl⟩
    · exact hclear.links q hq
    · have hr := (List.prefix_append_right_inj root).1 hq
      exact link?_of_ne fun target htarget => by rcases h.entries r hr with h | h <;> cases h.symm.trans htarget
  · exact (List.mem_append.1 hs).elim (hclear.names s) fun hs => (h.names s hs).1

/-- All is there, or something is missing on the way. -/
theorem find?_cases (h : d.Room root steps) :
    d.find? (root ++ steps) = .ok (root ++ steps, .directory) ∧ d.IsWay root steps ∨
      d.find? (root ++ steps) = .error .notFound ∧ ¬d.IsWay root steps := by
  have hroot := leads_self_of_find? h.reached
  rw [find?_eq, follow_append_of_leads hroot]
  rcases follow_names linkLimit h.names h.entries with ⟨hfollow, hall⟩ | ⟨hfollow, r, hr, hnone⟩ <;>
    rw [hfollow]
  · rcases h.entries steps (List.prefix_refl _) with hd | hnone
    · refine .inl ⟨by simp [hd], fun r hr => ?_⟩
      by_cases hne : r = steps
      · rwa [hne]
      · exact hall r hr hne
    · exact .inr ⟨by simp [hnone], fun hway => by cases hnone.symm.trans (hway steps (List.prefix_refl _))⟩
  · exact .inr ⟨rfl, fun hway => by cases hnone.symm.trans (hway r hr)⟩

theorem find?_of_isWay (h : d.Room root steps) (hway : d.IsWay root steps) :
    d.find? (root ++ steps) = .ok (root ++ steps, .directory) :=
  h.find?_cases.elim And.left fun hnot => absurd hway hnot.2

/-! ### Making directories -/

/-- A directory is made in one that is there. -/
theorem ensureDirectory (h : d.Room root (steps ++ [name])) (hway : d.IsWay root steps) :
    ∃ d', d.ensureDirectory (root ++ (steps ++ [name])) = .ok d' ∧
      ∀ q, d'.lookup? q = if q = root ++ (steps ++ [name]) then some .directory else d.lookup? q := by
  have habove := (h.of_prefix (List.prefix_append steps [name])).find?_of_isWay hway
  rcases h.entries _ (List.prefix_refl _) with hd | hnone
  · have hall : d.IsWay root (steps ++ [name]) := fun r hr => by
      rcases List.prefix_concat_iff.1 hr with rfl | hr
      · exact hd
      · exact hway r hr
    refine ⟨d, ensureDirectory_of_find? (h.find?_of_isWay hall), fun q => ?_⟩
    split
    · rename_i hq
      rw [hq, hd]
    · rfl
  · obtain ⟨hname, hsize⟩ := h.names name (by simp)
    obtain ⟨hfollow, hd⟩ := find?_eq_ok_iff.1 habove
    rw [← List.append_assoc] at hnone ⊢
    have hmade := makeDirectory_eq_ok_iff.2 ⟨_, hfollow, hd, hname, hsize, hnone, rfl⟩
    refine ⟨_, ?_, lookup?_put d (by simp) .directory⟩
    unfold Disk.ensureDirectory
    rw [hmade]
    rfl

/-- A directory is not made where the one above it is missing. -/
theorem ensureDirectory_of_not_isWay (h : d.Room root (steps ++ [name])) (hway : ¬d.IsWay root steps) :
    d.ensureDirectory (root ++ (steps ++ [name])) = .error .notFound := by
  have habove : d.find? (root ++ steps) = .error .notFound :=
    (h.of_prefix (List.prefix_append steps [name])).find?_cases.elim (fun hall => absurd hall.2 hway) And.left
  have hplace : d.find? (root ++ (steps ++ [name])) = .error .notFound :=
    h.find?_cases.elim (fun hall => absurd (fun r hr => hall.2 r (hr.trans (List.prefix_append _ _))) hway) And.left
  have hmade : d.makeDirectory (root ++ (steps ++ [name])) = .error .notFound := by
    unfold makeDirectory
    rw [← List.append_assoc, List.getLast?_concat, List.dropLast_concat]
    rw [find?_eq] at habove
    cases hfollow : d.follow linkLimit [] (root ++ steps) with
    | error f =>
      rw [hfollow] at habove
      cases habove
      rfl
    | ok q =>
      rw [hfollow] at habove
      cases hq : d.lookup? q with
      | some e => simp [hq] at habove
      | none => simp [bind, Except.bind, hq]; rfl
  unfold Disk.ensureDirectory
  rw [hmade, hplace]
  rfl

/-- Places between a directory and the end of some steps, the last step first. -/
theorem between_iff {last : String} {above : List String} :
    root <+: q ∧ q <+: root ++ (above ++ [last]) ↔
      (root <+: q ∧ q <+: root ++ above) ∨ q = root ++ (above ++ [last]) := by
  rw [← List.append_assoc, List.prefix_concat_iff]
  constructor
  · rintro ⟨hroot, rfl | hq⟩
    · exact .inr rfl
    · exact .inl ⟨hroot, hq⟩
  · rintro (⟨hroot, hq⟩ | rfl)
    · exact ⟨hroot, .inr hq⟩
    · exact ⟨(List.prefix_append root above).trans (List.prefix_append _ _), .inl rfl⟩

theorem lookup?_of_isWay (hway : d.IsWay root steps) (hroot : root <+: q) (hq : q <+: root ++ steps) :
    d.lookup? q = some .directory := by
  obtain ⟨r, rfl⟩ := hroot
  exact hway r ((List.prefix_append_right_inj root).1 hq)

/-- There is still room when directories on the way are made. -/
theorem made {P : Place → Prop} (h : d.Room root (steps ++ [name])) (hchange : d.Change P d')
    (hlookup : ∀ q, d'.lookup? q = if root <+: q ∧ q <+: root ++ steps then some .directory else d.lookup? q) :
    d'.Room root (steps ++ [name]) ∧ d'.IsWay root steps := by
  refine ⟨⟨hchange.find?_directory h.reached, h.names, fun r hr => ?_⟩, fun r hr => ?_⟩
  · rw [hlookup]
    split
    · exact .inl rfl
    · exact h.entries r hr
  · rw [hlookup, if_pos ⟨List.prefix_append _ _, (List.prefix_append_right_inj root).2 hr⟩]

/-- Where there is room, all directories on the way are made, and nothing else changes. -/
theorem makeDirectories (h : d.Room root steps) : ∃ d', d.makeDirectories (root ++ steps) = .ok d' ∧
    ∀ q, d'.lookup? q = if root <+: q ∧ q <+: root ++ steps then some .directory else d.lookup? q := by
  unfold Disk.makeDirectories
  rw [← List.reverse_reverse steps] at h ⊢
  generalize steps.reverse = back at h ⊢
  rw [List.reverse_append, List.reverse_reverse]
  induction back with
  | nil =>
    have hway : d.IsWay root [] := fun r hr => by
      rw [List.prefix_nil.1 hr, List.append_nil]
      exact (find?_eq_ok_iff.1 h.reached).2
    refine ⟨d, makeDirectories_of_find? h.reached, fun q => ?_⟩
    split
    · rename_i hq
      exact lookup?_of_isWay hway hq.1 hq.2
    · rfl
  | cons last above ih =>
    rw [List.reverse_cons] at h
    have hsteps : (last :: (above ++ root.reverse)).reverse = root ++ (above.reverse ++ [last]) := by simp
    simp only [List.reverse_cons, between_iff]
    rw [List.cons_append, makeDirectoriesBack, hsteps]
    by_cases hway : d.IsWay root above.reverse
    · obtain ⟨d', hmade, hlookup⟩ := h.ensureDirectory hway
      rw [hmade]
      refine ⟨d', rfl, fun q => ?_⟩
      rw [hlookup]
      split
      · rename_i hq
        rw [if_pos (.inr hq)]
      · rename_i hq
        split
        · rename_i hbetween
          exact lookup?_of_isWay hway (hbetween.resolve_right hq).1 (hbetween.resolve_right hq).2
        · rfl
    · obtain ⟨d₁, hmade, hlookup⟩ := ih (h.of_prefix (List.prefix_append _ _))
      obtain ⟨hroom, hway₁⟩ := h.made (makeDirectoriesBack_change hmade) hlookup
      obtain ⟨d', hensured, hlookup'⟩ := hroom.ensureDirectory hway₁
      rw [h.ensureDirectory_of_not_isWay hway]
      refine ⟨d', by simp only [hmade, bind, Except.bind, hensured], fun q => ?_⟩
      rw [hlookup', hlookup]
      split
      · rename_i hq
        rw [if_pos (.inr hq)]
      · rename_i hq
        simp only [hq, or_false]

/-! ### Writing files -/

/-- A file is written at the end of a way where nothing is. -/
theorem writeFile (h : d.Room root (steps ++ [name])) (hway : d.IsWay root steps)
    (hfree : d.lookup? (root ++ (steps ++ [name])) = none) (content : List UInt8) :
    d.writeFile (root ++ (steps ++ [name])) content = .ok (d.put (root ++ (steps ++ [name])) (.file content)) := by
  have habove := (h.of_prefix (List.prefix_append steps [name])).find?_of_isWay hway
  obtain ⟨hname, hsize⟩ := h.names name (by simp)
  rw [← List.append_assoc] at hfree ⊢
  have hlink : d.link? (root ++ steps ++ [name]) = none := link?_of_ne fun target htarget => by
    cases hfree.symm.trans htarget
  have hfollow : d.follow linkLimit [] (root ++ steps ++ [name]) = .ok (root ++ steps ++ [name]) := by
    rw [follow_append_of_leads (leads_self_of_find? habove),
      follow_plain (find?_eq_ok_iff.1 habove).2 hname hsize hlink, follow_nil]
  unfold Disk.writeFile
  rw [hfollow]
  simp only [bind, Except.bind, hfree]
  rfl

/-- Where there is room and nothing at the end, a file is written with the directories above it. -/
theorem makeAndWrite (h : d.Room root (steps ++ [name])) (hfree : d.lookup? (root ++ (steps ++ [name])) = none)
    (content : List UInt8) : ∃ made written, d.makeDirectories (root ++ steps) = .ok made ∧
      made.writeFile (root ++ (steps ++ [name])) content = .ok written ∧
      ∀ q, written.lookup? q = if q = root ++ (steps ++ [name]) then some (.file content)
        else if root <+: q ∧ q <+: root ++ steps then some .directory else d.lookup? q := by
  obtain ⟨made, hmade, hlookup⟩ := (h.of_prefix (List.prefix_append steps [name])).makeDirectories
  obtain ⟨hroom, hway⟩ := h.made (makeDirectories_change hmade) hlookup
  have hbeyond : ¬root ++ (steps ++ [name]) <+: root ++ steps := fun hle => by
    have hlength := hle.length_le
    simp only [List.length_append, List.length_cons, List.length_nil] at hlength
    omega
  have hmadeFree : made.lookup? (root ++ (steps ++ [name])) = none := by
    rw [hlookup, if_neg fun hbetween => hbeyond hbetween.2, hfree]
  refine ⟨made, _, hmade, hroom.writeFile hway hmadeFree content, fun q => ?_⟩
  rw [lookup?_put made (by simp), hlookup]

end Room

end Disk

end NestedSite
