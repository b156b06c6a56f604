import NestedSite.Proofs.Disk.Following

/-!
# How a disk changes

Making directories and writing files changes a disk in few ways (`Disk.Change`): links stay, directories and files
stay what they are, and the files that are new or have another content are at known places. Whatever a path led to
before, it leads to afterwards (`Disk.Change.follow`), and paths are straightened as before (`Disk.Change.straight`).
Directories are made without a change of files (`Disk.makeDirectories_change`); a file is written at the place that its
path leads to, and nowhere else (`Disk.writeFile_change`).
-/

namespace NestedSite

namespace Disk

variable {d d' d'' : Disk} {p q : Place} {P Q : Place → Prop}

/-! ## What is at a place -/

theorem lookup?_of_ne (d : Disk) {p : Place} (hp : p ≠ []) :
    d.lookup? p = (d.entries.find? fun e => e.1 == p).map Prod.snd := if_neg (by simpa using hp)

theorem lookup?_put (d : Disk) {p : Place} (hp : p ≠ []) (e : DiskEntry) (q : Place) :
    (d.put p e).lookup? q = if q = p then some e else d.lookup? q := by
  by_cases hq : q = []
  · rw [hq, lookup?_nil, lookup?_nil, if_neg (Ne.symm hp)]
  rw [lookup?_of_ne _ hq, lookup?_of_ne _ hq]
  unfold put
  split
  · rename_i hany
    have hplaces : ((fun f : Place × DiskEntry => f.1 == q) ∘ fun f => if f.1 == p then (p, e) else f) =
        fun f => f.1 == q := by
      funext f
      dsimp only [Function.comp]
      split
      · rename_i hf
        rw [beq_iff_eq.1 hf]
      · rfl
    rw [List.find?_map, hplaces]
    cases hfound : d.entries.find? fun f => f.1 == q with
    | none =>
      obtain ⟨f, hf, hplace⟩ := List.any_eq_true.1 hany
      have hqp : q ≠ p := fun hqp => List.find?_eq_none.1 hfound f hf (hqp ▸ hplace)
      rw [if_neg hqp]
      rfl
    | some f =>
      have hf : f.1 = q := by simpa using List.find?_some hfound
      simp only [Option.map_some, beq_iff_eq, hf]
      split <;> rfl
  · rename_i hany
    have hnone : d.entries.find? (fun f => f.1 == p) = none :=
      List.find?_eq_none.2 fun f hf hplace => hany (List.any_eq_true.2 ⟨f, hf, hplace⟩)
    rw [List.find?_append]
    split
    · rename_i hqp
      simp [hqp, hnone]
    · rename_i hqp
      simp [Ne.symm hqp]

/-- The content of the file at a place. -/
def file? (d : Disk) (p : Place) : Option (List UInt8) :=
  match d.lookup? p with
  | some (.file content) => some content
  | _ => none

theorem file?_eq_some {content : List UInt8} : d.file? p = some content ↔ d.lookup? p = some (.file content) := by
  unfold file?
  split <;> simp_all

theorem file?_of_directory (h : d.lookup? p = some .directory) : d.file? p = none := by rw [file?, h]

theorem file?_congr (h : d'.lookup? p = d.lookup? p) : d'.file? p = d.file? p := by rw [file?, file?, h]

theorem link?_congr (h : d'.lookup? p = d.lookup? p) : d'.link? p = d.link? p := by rw [link?, link?, h]

/-! ## Changes -/

/-- `d'` comes of `d` by making directories and by writing files at places with `P`. -/
structure Change (P : Place → Prop) (d d' : Disk) : Prop where
  link : ∀ p, d'.link? p = d.link? p
  directory : ∀ {p}, d.lookup? p = some .directory → d'.lookup? p = some .directory
  file : ∀ {p}, (d.file? p).isSome → (d'.file? p).isSome
  content : ∀ {p}, ¬P p → d'.file? p = d.file? p

namespace Change

theorem refl (P : Place → Prop) (d : Disk) : d.Change P d where
  link _ := rfl
  directory h := h
  file h := h
  content _ := rfl

theorem trans (h : d.Change P d') (k : d'.Change P d'') : d.Change P d'' where
  link p := (k.link p).trans (h.link p)
  directory hd := k.directory (h.directory hd)
  file hf := k.file (h.file hf)
  content hp := (k.content hp).trans (h.content hp)

theorem mono (h : d.Change P d') (hPQ : ∀ p, P p → Q p) : d.Change Q d' where
  link := h.link
  directory := h.directory
  file := h.file
  content hp := h.content fun hP => hp (hPQ _ hP)

theorem file?_eq_none (h : d.Change P d') (hp : d'.file? p = none) : d.file? p = none :=
  Option.not_isSome_iff_eq_none.1 fun hsome => by simpa [hp] using h.file hsome

/-- A directory comes to a place where nothing is. -/
theorem putDirectory (hp : d.lookup? p = none) : d.Change (fun _ => False) (d.put p .directory) := by
  have hne : p ≠ [] := by
    rintro rfl
    cases hp
  have hlookup := lookup?_put d hne .directory
  have hother (q : Place) (hq : q ≠ p) : (d.put p .directory).lookup? q = d.lookup? q := by rw [hlookup, if_neg hq]
  refine ⟨fun q => ?_, fun {q} hq => ?_, fun {q} hq => ?_, fun {q} _ => ?_⟩
  all_goals by_cases hqp : q = p
  · simp [link?, hlookup, hqp, hp]
  · exact link?_congr (hother q hqp)
  · rw [hlookup, if_pos hqp]
  · rw [hother q hqp, hq]
  · simp [file?, hqp, hp] at hq
  · exact file?_congr (hother q hqp) ▸ hq
  · simp [file?, hlookup, hqp, hp]
  · exact file?_congr (hother q hqp)

/-- A file comes to a place where no directory and no link is. -/
theorem putFile (hd : d.lookup? p ≠ some .directory) (hlink : d.link? p = none) (content : List UInt8) :
    d.Change (· = p) (d.put p (.file content)) := by
  have hne : p ≠ [] := by
    rintro rfl
    exact hd rfl
  have hlookup := lookup?_put d hne (.file content)
  have hother (q : Place) (hq : q ≠ p) : (d.put p (.file content)).lookup? q = d.lookup? q := by
    rw [hlookup, if_neg hq]
  refine ⟨fun q => ?_, fun {q} hq => ?_, fun {q} hq => ?_, fun {q} hqp => file?_congr (hother q hqp)⟩
  all_goals by_cases hqp : q = p
  · rw [hqp, hlink]
    simp [link?, hlookup]
  · exact link?_congr (hother q hqp)
  · exact absurd (hqp ▸ hq) hd
  · rw [hother q hqp, hq]
  · simp [file?, hlookup, hqp]
  · exact file?_congr (hother q hqp) ▸ hq

/-! ### Paths -/

theorem leads (h : d.Change P d') {here : Place} {steps : List String} {n : Nat} (k : d.Leads here steps q n) :
    d'.Leads here steps q n := by
  induction k with
  | done => exact .done
  | stay hd hstep _ ih => exact .stay (h.directory hd) hstep ih
  | up hd hstep _ ih => exact .up (h.directory hd) hstep ih
  | name hd hname hsize hlink _ ih => exact .name (h.directory hd) hname hsize ((h.link _).trans hlink) ih
  | link hd hname hsize hlink _ _ ihtarget ih =>
    exact .link (h.directory hd) hname hsize ((h.link _).trans hlink) ihtarget ih

/-- What a path leads to, it still leads to. -/
theorem follow (h : d.Change P d') {links : Nat} {here : Place} {steps : List String}
    (k : d.follow links here steps = .ok q) : d'.follow links here steps = .ok q := by
  obtain ⟨n, hn, hleads⟩ := leads_of_follow k
  exact follow_eq_ok_iff.2 ⟨n, hn, h.leads hleads⟩

theorem find?_directory (h : d.Change P d') (k : d.find? p = .ok (q, .directory)) :
    d'.find? p = .ok (q, .directory) := by
  obtain ⟨hfollow, hd⟩ := find?_eq_ok_iff.1 k
  exact find?_eq_ok_iff.2 ⟨h.follow hfollow, h.directory hd⟩

theorem straighten (h : d.Change P d') (met : List Place) (here : Place) (steps : List String) :
    d'.straighten met here steps = d.straighten met here steps := by
  induction met, here, steps using straighten.induct (d := d) with
  | case1 => rw [straighten_nil, straighten_nil]
  | case2 met here step rest hstep ih =>
    obtain rfl := beq_iff_eq.1 hstep
    rwa [straighten_here, straighten_here]
  | case3 met here step rest _ hstep ih =>
    obtain rfl := beq_iff_eq.1 hstep
    rwa [straighten_up, straighten_up]
  | case4 met here step rest hstay hup target hlookup hmem =>
    have hname : IsName step := ⟨by simpa using hstay, by simpa using hup⟩
    simp only [straighten_name hname, h.link, link?_eq_some.2 hlookup, hmem, if_true]
  | case5 met here step rest hstay hup target hlookup hmem there htarget ihtarget ih =>
    have hname : IsName step := ⟨by simpa using hstay, by simpa using hup⟩
    simp only [straighten_name hname, h.link, link?_eq_some.2 hlookup, ihtarget, htarget, ih]
  | case6 met here step rest hstay hup target hlookup hmem steps htarget ihtarget =>
    have hname : IsName step := ⟨by simpa using hstay, by simpa using hup⟩
    simp only [straighten_name hname, h.link, link?_eq_some.2 hlookup, ihtarget, htarget]
  | case7 met here step rest hstay hup hlookup ih =>
    have hname : IsName step := ⟨by simpa using hstay, by simpa using hup⟩
    simp only [straighten_name hname, h.link, link?_of_ne hlookup, ih]

theorem straight (h : d.Change P d') (p : Place) : d'.straight p = d.straight p := by
  unfold Disk.straight
  rw [h.straighten]

/-- A path that is followed into a loop of links still is. -/
theorem follow_linkLoop (h : d.Change P d') {links : Nat} {here : Place} {steps : List String}
    (k : d.follow links here steps = .error .linkLoop) : d'.follow links here steps = .error .linkLoop := by
  induction links, here, steps using follow.induct (d := d) with
  | case1 links here =>
    rw [follow_nil] at k
    cases k
  | case2 links here step rest hnone =>
    rw [Disk.follow, hnone] at k
    cases k
  | case3 links here step rest hd hstep ih =>
    obtain rfl := beq_iff_eq.1 hstep
    rw [follow_here (h.directory hd)]
    exact ih (follow_here hd ▸ k)
  | case4 links here step rest hd _ hstep ih =>
    obtain rfl := beq_iff_eq.1 hstep
    rw [follow_up (h.directory hd)]
    exact ih (follow_up hd ▸ k)
  | case5 links here step rest hd hstay hup hsize =>
    have hname : IsName step := ⟨by simpa using hstay, by simpa using hup⟩
    rw [follow_name hd hname, if_pos hsize] at k
    cases k
  | case6 here step rest hd hstay hup hsize target hlookup =>
    have hname : IsName step := ⟨by simpa using hstay, by simpa using hup⟩
    rw [follow_name (h.directory hd) hname, if_neg hsize, h.link, link?_eq_some.2 hlookup]
  | case7 here step rest hd hstay hup hsize target hlookup n ih =>
    have hname : IsName step := ⟨by simpa using hstay, by simpa using hup⟩
    rw [follow_name hd hname, if_neg hsize, link?_eq_some.2 hlookup] at k
    rw [follow_name (h.directory hd) hname, if_neg hsize, h.link, link?_eq_some.2 hlookup]
    exact ih k
  | case8 links here step rest hd hstay hup hsize hlookup ih =>
    have hname : IsName step := ⟨by simpa using hstay, by simpa using hup⟩
    rw [follow_name hd hname, if_neg hsize, link?_of_ne hlookup] at k
    rw [follow_name (h.directory hd) hname, if_neg hsize, h.link, link?_of_ne hlookup]
    exact ih k
  | case9 links here step rest e he hlookup =>
    rw [Disk.follow, hlookup] at k
    cases e with
    | directory => exact (he rfl).elim
    | file | link => cases k

/-- A path is resolved as before, unless it leads into a loop of links now. -/
theorem resolve (h : d.Change P d') (k : d'.resolve p = .ok q) : d.resolve p = .ok q := by
  have hstraight := h.straight p
  unfold Disk.resolve at k ⊢
  split at k
  · cases k
  · rename_i hnot
    rw [hstraight] at hnot k
    split
    · rename_i hloop
      exact absurd (find?_eq_linkLoop_iff.2 (h.follow_linkLoop (find?_eq_linkLoop_iff.1 hloop))) hnot
    · exact k

end Change

/-! ## Making directories -/

/-- What comes first of two computations that may fail, and what follows on it. -/
theorem exists_of_bind {α β : Type} {m : Except FileFault α} {k : α → Except FileFault β} {b : β}
    (h : m >>= k = .ok b) : ∃ a, m = .ok a ∧ k a = .ok b := by
  cases m with
  | error f => cases h
  | ok a => exact ⟨a, rfl, h⟩

/-- A directory is made in one that is there, where nothing is. -/
theorem makeDirectory_eq_ok_iff {above : Place} {name : String} : d.makeDirectory (above ++ [name]) = .ok d' ↔
    ∃ there, d.follow linkLimit [] above = .ok there ∧ d.lookup? there = some .directory ∧ IsName name ∧
      name.utf8ByteSize ≤ nameLimit ∧ d.lookup? (there ++ [name]) = none ∧
      d' = d.put (there ++ [name]) .directory := by
  unfold makeDirectory
  rw [List.getLast?_concat, List.dropLast_concat]
  constructor
  · intro h
    obtain ⟨there, hfollow, h⟩ := exists_of_bind h
    split at h
    · cases h
    · split at h
      · cases h
      · split at h
        · cases h
        · split at h
          · cases h
          · rename_i hname hsize hfree
            cases h
            refine ⟨there, hfollow, ‹_›, by simpa [IsName] using hname, Nat.not_lt.1 hsize, by simpa using hfree, rfl⟩
    · cases h
  · rintro ⟨there, hfollow, hd, hname, hsize, hfree, rfl⟩
    have hsteps : (name == "." || name == "..") = false := by simpa using show _ ∧ _ from hname
    rw [hfollow]
    simp only [bind, Except.bind, hd, hsteps, hfree, Nat.not_lt.2 hsize]
    rfl

theorem makeDirectory_change (h : d.makeDirectory p = .ok d') : d.Change (fun _ => False) d' := by
  rcases List.eq_nil_or_concat p with rfl | ⟨above, name, rfl⟩
  · cases h
  · rw [List.concat_eq_append] at h
    obtain ⟨there, -, -, -, -, hfree, rfl⟩ := makeDirectory_eq_ok_iff.1 h
    exact .putDirectory hfree

/-- A directory that is made is there. -/
theorem makeDirectory_find? (h : d.makeDirectory p = .ok d') : ∃ q, d'.find? p = .ok (q, .directory) := by
  have hchange := makeDirectory_change h
  rcases List.eq_nil_or_concat p with rfl | ⟨above, name, rfl⟩
  · cases h
  · rw [List.concat_eq_append] at h ⊢
    obtain ⟨there, hfollow, hd, hname, hsize, hfree, rfl⟩ := makeDirectory_eq_ok_iff.1 h
    have hplace : (d.put (there ++ [name]) .directory).lookup? (there ++ [name]) = some .directory := by
      rw [lookup?_put d (by simp), if_pos rfl]
    have hlink : (d.put (there ++ [name]) .directory).link? (there ++ [name]) = none :=
      link?_of_ne fun target htarget => by cases hplace.symm.trans htarget
    obtain ⟨n, hn, hleads⟩ := leads_of_follow (hchange.follow hfollow)
    have hstep := Leads.name (hchange.directory hd) hname hsize hlink .done
    exact ⟨there ++ [name], find?_eq_ok_iff.2 ⟨follow_eq_ok_iff.2 ⟨n + 0, hn, hleads.append hstep⟩, hplace⟩⟩

theorem ensureDirectory_change (h : d.ensureDirectory p = .ok d') : d.Change (fun _ => False) d' := by
  unfold ensureDirectory at h
  split at h
  · cases h
    exact makeDirectory_change ‹_›
  · split at h
    · cases h
      exact .refl _ _
    · cases h
    · cases h

theorem ensureDirectory_find? (h : d.ensureDirectory p = .ok d') : ∃ q, d'.find? p = .ok (q, .directory) := by
  unfold ensureDirectory at h
  split at h
  · cases h
    exact makeDirectory_find? ‹_›
  · split at h
    · cases h
      exact ⟨_, ‹_›⟩
    · cases h
    · cases h

theorem makeDirectoriesBack_change {steps : List String} (h : d.makeDirectoriesBack steps = .ok d') :
    d.Change (fun _ => False) d' := by
  induction steps generalizing d' with
  | nil =>
    cases h
    exact .refl _ _
  | cons last above ih =>
    unfold makeDirectoriesBack at h
    split at h
    · obtain ⟨made, hmade, h⟩ := exists_of_bind h
      exact (ih hmade).trans (ensureDirectory_change h)
    · exact ensureDirectory_change h

/-- No file changes when directories are made. -/
theorem makeDirectories_change (h : d.makeDirectories p = .ok d') : d.Change (fun _ => False) d' :=
  makeDirectoriesBack_change h

/-- Directories that are made are there. -/
theorem makeDirectories_find? (h : d.makeDirectories p = .ok d') : ∃ q, d'.find? p = .ok (q, .directory) := by
  unfold makeDirectories at h
  rw [← List.reverse_reverse p]
  generalize p.reverse = steps at h
  cases steps with
  | nil =>
    cases h
    exact ⟨[], find?_eq_ok_iff.2 ⟨follow_nil, lookup?_nil _⟩⟩
  | cons last above =>
    unfold makeDirectoriesBack at h
    split at h
    · obtain ⟨made, -, h⟩ := exists_of_bind h
      exact ensureDirectory_find? h
    · exact ensureDirectory_find? h

/-! ## Writing files -/

/-- A file is written where its path leads to. -/
theorem writeFile_change {content : List UInt8} (h : d.writeFile p content = .ok d') :
    ∃ q, d.follow linkLimit [] p = .ok q ∧ d.Change (· = q) d' ∧ d'.file? q = some content := by
  unfold writeFile at h
  obtain ⟨q, hfollow, h⟩ := exists_of_bind h
  have hclear := clear_of_straighten (straighten_of_follow hfollow) (.nil d)
  split at h
  · cases h
  · rename_i hd
    cases h
    have hne : q ≠ [] := by
      rintro rfl
      exact hd rfl
    refine ⟨q, hfollow, .putFile hd (hclear.links q (List.prefix_refl q)) content, ?_⟩
    rw [file?_eq_some, lookup?_put d hne, if_pos rfl]

end Disk

end NestedSite
