import NestedSite.Site.Disk

/-!
# Following paths

Where a path leads to is a relation between the steps and the place at their end, which says how many links are gone
through (`Disk.Leads`, `Disk.follow_eq_ok_iff`). A place is clear if no link is on the way to it (`Disk.Clear`). What
is followed or straightened ends at a clear place, and at a clear place the names on the way are the steps that lead
there. A path that leads somewhere has no loop of links, as a link on the way to itself would be gone through more
often than it is (`Disk.Leads.straighten`); so a place that can be gone to is the one that its path is resolved to.
-/

namespace NestedSite

namespace Disk

variable {d : Disk}

/-! ## Links -/

@[simp] theorem lookup?_nil (d : Disk) : d.lookup? [] = some .directory := rfl

/-- The path that a link at a place leads to. -/
def link? (d : Disk) (p : Place) : Option String :=
  match d.lookup? p with
  | some (.link target) => some target
  | _ => none

theorem link?_eq_some {p : Place} {target : String} :
    d.link? p = some target ↔ d.lookup? p = some (.link target) := by
  unfold link?
  split <;> simp_all

theorem link?_of_ne {p : Place} (h : ∀ target, d.lookup? p ≠ some (.link target)) : d.link? p = none := by
  unfold link?
  split
  · exact absurd ‹_› (h _)
  · rfl

@[simp] theorem link?_nil (d : Disk) : d.link? [] = none := rfl

/-! ## Single steps -/

/-- A step that leads on. -/
def IsName (name : String) : Prop := name ≠ "." ∧ name ≠ ".."

theorem step_cases (name : String) : name = "." ∨ name = ".." ∨ IsName name := by
  by_cases h : name = "."
  · exact .inl h
  · by_cases hup : name = ".."
    · exact .inr (.inl hup)
    · exact .inr (.inr ⟨h, hup⟩)

section Steps

variable {links : Nat} {met : List Place} {here q : Place} {name target : String} {rest : List String}

@[simp] theorem straighten_nil : d.straighten met here [] = .ok here := by rw [straighten]

@[simp] theorem straighten_here : d.straighten met here ("." :: rest) = d.straighten met here rest := by
  rw [straighten, if_pos (beq_self_eq_true _)]

@[simp] theorem straighten_up : d.straighten met here (".." :: rest) = d.straighten met here.dropLast rest := by
  rw [straighten, if_neg (by decide), if_pos (beq_self_eq_true _)]

theorem straighten_name (h : IsName name) : d.straighten met here (name :: rest) =
    match d.link? (here ++ [name]) with
    | some target =>
      if met.contains (here ++ [name]) then .error (here ++ name :: rest)
      else match d.straighten ((here ++ [name]) :: met) (linkStart here target) (Place.ofPath target) with
        | .ok there => d.straighten met there rest
        | .error steps => .error (steps ++ rest)
    | none => d.straighten met (here ++ [name]) rest := by
  rw [straighten, if_neg (by simpa using h.1), if_neg (by simpa using h.2)]
  split
  · rename_i target hlookup
    rw [link?_eq_some.2 hlookup]
    dsimp only
    split <;> rfl
  · rename_i hlookup
    rw [link?_of_ne hlookup]

@[simp] theorem follow_nil : d.follow links here [] = .ok here := by
  rw [follow]
  rfl

theorem follow_here (hd : d.lookup? here = some .directory) :
    d.follow links here ("." :: rest) = d.follow links here rest := by
  rw [follow, hd]
  exact if_pos (beq_self_eq_true _)

theorem follow_up (hd : d.lookup? here = some .directory) :
    d.follow links here (".." :: rest) = d.follow links here.dropLast rest := by
  rw [follow, hd]
  dsimp only
  rw [if_neg (by decide), if_pos (beq_self_eq_true _)]

theorem follow_name (hd : d.lookup? here = some .directory) (h : IsName name) :
    d.follow links here (name :: rest) =
      if name.utf8ByteSize > nameLimit then .error .nameTooLong
      else match d.link? (here ++ [name]), links with
        | some _, 0 => .error .linkLoop
        | some target, n + 1 => d.follow n (linkStart here target) (Place.ofPath target ++ rest)
        | none, _ => d.follow links (here ++ [name]) rest := by
  rw [follow, hd]
  dsimp only
  rw [if_neg (by simpa using h.1), if_neg (by simpa using h.2)]
  split
  · rfl
  · split
    · rename_i target hlookup
      rw [link?_eq_some.2 hlookup]
      cases links <;> rfl
    · rename_i hlookup
      rw [link?_of_ne hlookup]

/-- A name that is no link is stepped to. -/
theorem follow_plain (hd : d.lookup? here = some .directory) (h : IsName name) (hsize : name.utf8ByteSize ≤ nameLimit)
    (hlink : d.link? (here ++ [name]) = none) :
    d.follow links here (name :: rest) = d.follow links (here ++ [name]) rest := by
  rw [follow_name hd h, if_neg (Nat.not_lt.2 hsize), hlink]

/-- Steps are only taken in directories. -/
theorem directory_of_follow {step : String} (h : d.follow links here (step :: rest) = .ok q) :
    d.lookup? here = some .directory := by
  rw [follow] at h
  split at h
  · cases h
  · assumption
  · cases h

end Steps

/-! ## Where steps lead to -/

/-- From `here`, some steps lead to a place, through as many links as the number says. -/
inductive Leads (d : Disk) : Place → List String → Place → Nat → Prop where
  | done {here : Place} : d.Leads here [] here 0
  | stay {here q : Place} {step : String} {rest : List String} {n : Nat} (hd : d.lookup? here = some .directory)
      (hstep : step = ".") (h : d.Leads here rest q n) : d.Leads here (step :: rest) q n
  | up {here q : Place} {step : String} {rest : List String} {n : Nat} (hd : d.lookup? here = some .directory)
      (hstep : step = "..") (h : d.Leads here.dropLast rest q n) : d.Leads here (step :: rest) q n
  | name {here q : Place} {name : String} {rest : List String} {n : Nat} (hd : d.lookup? here = some .directory)
      (hname : IsName name) (hsize : name.utf8ByteSize ≤ nameLimit) (hlink : d.link? (here ++ [name]) = none)
      (h : d.Leads (here ++ [name]) rest q n) : d.Leads here (name :: rest) q n
  | link {here there q : Place} {name target : String} {rest : List String} {n m : Nat}
      (hd : d.lookup? here = some .directory) (hname : IsName name) (hsize : name.utf8ByteSize ≤ nameLimit)
      (hlink : d.link? (here ++ [name]) = some target)
      (htarget : d.Leads (linkStart here target) (Place.ofPath target) there n) (h : d.Leads there rest q m) :
      d.Leads here (name :: rest) q (n + m + 1)

namespace Leads

variable {here q q' : Place} {steps more : List String} {n m : Nat}

theorem split : ∀ {steps : List String} {here : Place} {n : Nat}, d.Leads here (steps ++ more) q n →
    ∃ there i j, d.Leads here steps there i ∧ d.Leads there more q j ∧ n = i + j
  | [], here, n, h => ⟨here, 0, n, .done, h, (Nat.zero_add n).symm⟩
  | _ :: steps, here, n, h => by
    cases h with
    | stay hd hstep h =>
      obtain ⟨there, i, j, hfirst, hrest, rfl⟩ := split h
      exact ⟨there, i, j, .stay hd hstep hfirst, hrest, rfl⟩
    | up hd hstep h =>
      obtain ⟨there, i, j, hfirst, hrest, rfl⟩ := split h
      exact ⟨there, i, j, .up hd hstep hfirst, hrest, rfl⟩
    | name hd hname hsize hlink h =>
      obtain ⟨there, i, j, hfirst, hrest, rfl⟩ := split h
      exact ⟨there, i, j, .name hd hname hsize hlink hfirst, hrest, rfl⟩
    | @link _ _ _ _ _ _ k _ hd hname hsize hlink htarget h =>
      obtain ⟨there, i, j, hfirst, hrest, rfl⟩ := split h
      exact ⟨there, k + i + 1, j, .link hd hname hsize hlink htarget hfirst, hrest, by omega⟩

theorem append {there : Place} (h : d.Leads here steps there n) (k : d.Leads there more q m) :
    d.Leads here (steps ++ more) q (n + m) := by
  induction h with
  | done => simpa using k
  | stay hd hstep _ ih => exact .stay hd hstep (ih k)
  | up hd hstep _ ih => exact .up hd hstep (ih k)
  | name hd hname hsize hlink _ ih => exact .name hd hname hsize hlink (ih k)
  | @link _ _ _ _ _ _ i j hd hname hsize hlink htarget _ _ ih =>
    have hlinks : i + j + 1 + m = i + (j + m) + 1 := by omega
    exact hlinks ▸ .link hd hname hsize hlink htarget (ih k)

theorem unique (h : d.Leads here steps q n) : ∀ {q' : Place} {m : Nat}, d.Leads here steps q' m → q = q' ∧ n = m := by
  induction h with
  | done =>
    intro q' m k
    cases k
    exact ⟨rfl, rfl⟩
  | stay _ hstep _ ih =>
    intro q' m k
    cases k with
    | stay _ _ k => exact ih k
    | up _ hstep' => exact absurd (hstep.symm.trans hstep') (by decide)
    | name _ hname => exact absurd hstep hname.1
    | link _ hname => exact absurd hstep hname.1
  | up _ hstep _ ih =>
    intro q' m k
    cases k with
    | stay _ hstep' => exact absurd (hstep.symm.trans hstep') (by decide)
    | up _ _ k => exact ih k
    | name _ hname => exact absurd hstep hname.2
    | link _ hname => exact absurd hstep hname.2
  | name _ hname _ hlink _ ih =>
    intro q' m k
    cases k with
    | stay _ hstep => exact absurd hstep hname.1
    | up _ hstep => exact absurd hstep hname.2
    | name _ _ _ _ k => exact ih k
    | link _ _ _ hlink' => cases hlink.symm.trans hlink'
  | link _ hname _ hlink _ _ ihtarget ih =>
    intro q' m k
    cases k with
    | stay _ hstep => exact absurd hstep hname.1
    | up _ hstep => exact absurd hstep hname.2
    | name _ _ _ hlink' => cases hlink.symm.trans hlink'
    | link _ _ _ hlink' htarget k =>
      cases hlink.symm.trans hlink'
      obtain ⟨rfl, rfl⟩ := ihtarget htarget
      obtain ⟨rfl, rfl⟩ := ih k
      exact ⟨rfl, rfl⟩

/-- Steps that lead somewhere through few enough links are followed to there. -/
theorem follow (h : d.Leads here steps q n) : ∀ {links : Nat} {more : List String}, n ≤ links →
    d.follow links here (steps ++ more) = d.follow (links - n) q more := by
  induction h with
  | done => exact fun _ => rfl
  | stay hd hstep _ ih => exact fun hn => hstep ▸ (follow_here hd).trans (ih hn)
  | up hd hstep _ ih => exact fun hn => hstep ▸ (follow_up hd).trans (ih hn)
  | name hd hname hsize hlink _ ih => exact fun hn => (follow_plain hd hname hsize hlink).trans (ih hn)
  | @link _ _ _ _ _ rest i j hd hname hsize hlink _ _ ihtarget ih =>
    intro links more hn
    obtain ⟨links, rfl⟩ : ∃ k, links = k + 1 := ⟨links - 1, by omega⟩
    rw [List.cons_append, follow_name hd hname, if_neg (Nat.not_lt.2 hsize), hlink]
    dsimp only
    rw [ihtarget (by omega), ih (by omega)]
    congr 1
    omega

end Leads

theorem leads_of_follow {links : Nat} {here q : Place} {steps : List String}
    (h : d.follow links here steps = .ok q) : ∃ n ≤ links, d.Leads here steps q n := by
  induction links, here, steps using follow.induct (d := d) with
  | case1 links here =>
    rw [follow_nil] at h
    cases h
    exact ⟨0, Nat.zero_le _, .done⟩
  | case2 links here step rest hnone => cases hnone.symm.trans (directory_of_follow h)
  | case3 links here step rest hd hstep ih =>
    obtain rfl := beq_iff_eq.1 hstep
    obtain ⟨n, hn, hleads⟩ := ih (follow_here hd ▸ h)
    exact ⟨n, hn, .stay hd rfl hleads⟩
  | case4 links here step rest hd _ hstep ih =>
    obtain rfl := beq_iff_eq.1 hstep
    obtain ⟨n, hn, hleads⟩ := ih (follow_up hd ▸ h)
    exact ⟨n, hn, .up hd rfl hleads⟩
  | case5 links here step rest hd hhere hup hsize =>
    rw [follow_name hd ⟨by simpa using hhere, by simpa using hup⟩, if_pos hsize] at h
    cases h
  | case6 here step rest hd hhere hup hsize target hlookup =>
    rw [follow_name hd ⟨by simpa using hhere, by simpa using hup⟩, if_neg hsize, link?_eq_some.2 hlookup] at h
    cases h
  | case7 here step rest hd hhere hup hsize target hlookup n ih =>
    have hname : IsName step := ⟨by simpa using hhere, by simpa using hup⟩
    rw [follow_name hd hname, if_neg hsize, link?_eq_some.2 hlookup] at h
    obtain ⟨m, hm, hleads⟩ := ih h
    obtain ⟨there, i, j, htarget, hrest, rfl⟩ := hleads.split
    exact ⟨i + j + 1, by omega, .link hd hname (Nat.not_lt.1 hsize) (link?_eq_some.2 hlookup) htarget hrest⟩
  | case8 links here step rest hd hhere hup hsize hlookup ih =>
    have hname : IsName step := ⟨by simpa using hhere, by simpa using hup⟩
    rw [follow_name hd hname, if_neg hsize, link?_of_ne hlookup] at h
    obtain ⟨n, hn, hleads⟩ := ih h
    exact ⟨n, hn, .name hd hname (Nat.not_lt.1 hsize) (link?_of_ne hlookup) hleads⟩
  | case9 links here step rest e he hlookup =>
    obtain rfl := Option.some.inj (hlookup.symm.trans (directory_of_follow h))
    exact (he rfl).elim

theorem follow_eq_ok_iff {links : Nat} {here q : Place} {steps : List String} :
    d.follow links here steps = .ok q ↔ ∃ n ≤ links, d.Leads here steps q n := by
  refine ⟨leads_of_follow, fun ⟨n, hn, h⟩ => ?_⟩
  rw [← List.append_nil steps, h.follow hn, follow_nil]

/-! ## Straight spellings -/

/-- Steps are straightened one after the other. -/
theorem straighten_append {met : List Place} {more : List String} : ∀ {steps : List String} {here : Place},
    d.straighten met here (steps ++ more) = match d.straighten met here steps with
      | .ok q => d.straighten met q more
      | .error left => .error (left ++ more)
  | [], here => by rw [straighten_nil, List.nil_append]
  | step :: steps, here => by
    rw [List.cons_append]
    rcases step_cases step with rfl | rfl | hname
    · rw [straighten_here, straighten_here, straighten_append]
    · rw [straighten_up, straighten_up, straighten_append]
    · rw [straighten_name hname, straighten_name hname]
      cases d.link? (here ++ [step]) with
      | none => exact straighten_append
      | some target =>
        dsimp only
        split
        · simp
        · split
          · exact straighten_append
          · simp

/-- A path that leads somewhere is straightened to the place that it leads to. The links in `met` must not be gone
through on the way: each of them leads through at least as many links as the path. -/
theorem Leads.straighten {here q : Place} {steps : List String} {n : Nat} (h : d.Leads here steps q n) :
    ∀ {met : List Place}, (∀ start name target there m, start ++ [name] ∈ met →
      d.link? (start ++ [name]) = some target →
      d.Leads (linkStart start target) (Place.ofPath target) there m → n ≤ m) →
    d.straighten met here steps = .ok q := by
  induction h with
  | done => exact fun _ => straighten_nil
  | stay _ hstep _ ih =>
    intro met hmet
    rw [hstep, straighten_here]
    exact ih hmet
  | up _ hstep _ ih =>
    intro met hmet
    rw [hstep, straighten_up]
    exact ih hmet
  | name _ hname _ hlink _ ih =>
    intro met hmet
    rw [straighten_name hname, hlink]
    exact ih hmet
  | @link here there q name target rest n m _ hname _ hlink htarget _ ihtarget ih =>
    intro met hmet
    have hnew : ¬met.contains (here ++ [name]) := fun hmem => by
      have hle := hmet here name target there n (by simpa using hmem) hlink htarget
      omega
    rw [straighten_name hname, hlink]
    dsimp only
    rw [if_neg hnew, ihtarget]
    · exact ih fun start name target there i hmem hlink htarget => by
        have hle := hmet start name target there i hmem hlink htarget
        omega
    · intro start name' target' there' i hmem hlink' htarget'
      rcases List.mem_cons.1 hmem with heq | hmem
      · -- the link itself leads through as many links as its path
        obtain ⟨rfl, hnames⟩ := List.append_inj' heq rfl
        obtain rfl : name' = name := by simpa using hnames
        cases hlink.symm.trans hlink'
        exact Nat.le_of_eq (htarget.unique htarget').2
      · have hle := hmet start name' target' there' i hmem hlink' htarget'
        omega

theorem straighten_of_follow {links : Nat} {here q : Place} {steps : List String}
    (h : d.follow links here steps = .ok q) : d.straighten [] here steps = .ok q := by
  obtain ⟨n, -, hleads⟩ := leads_of_follow h
  exact hleads.straighten fun _ _ _ _ _ hmem => absurd hmem List.not_mem_nil

/-! ## Clear places -/

/-- The way from the root to a place has names only, and no link is on it. -/
structure Clear (d : Disk) (p : Place) : Prop where
  links : ∀ q, q <+: p → d.link? q = none
  names : ∀ s ∈ p, IsName s

namespace Clear

variable {p q : Place}

theorem nil (d : Disk) : d.Clear [] where
  links q hq := by rw [List.prefix_nil.1 hq, link?_nil]
  names _ hs := absurd hs List.not_mem_nil

theorem of_prefix (h : d.Clear q) (hp : p <+: q) : d.Clear p where
  links r hr := h.links r (hr.trans hp)
  names s hs := h.names s (hp.subset hs)

theorem dropLast (h : d.Clear p) : d.Clear p.dropLast := h.of_prefix (List.dropLast_prefix p)

theorem snoc (h : d.Clear p) {name : String} (hname : IsName name) (hlink : d.link? (p ++ [name]) = none) :
    d.Clear (p ++ [name]) where
  links q hq := by
    rcases List.prefix_concat_iff.1 hq with rfl | hq
    · exact hlink
    · exact h.links q hq
  names s hs := by
    rcases List.mem_append.1 hs with hs | hs
    · exact h.names s hs
    · exact List.mem_singleton.1 hs ▸ hname

theorem linkStart (h : d.Clear p) (target : String) : d.Clear (linkStart p target) := by
  unfold Disk.linkStart
  cases Path.isAbsolute target with
  | true => exact nil d
  | false => exact h

/-- A path without links is straightened to itself. -/
theorem straighten {met : List Place} : ∀ {steps : List String} {here : Place}, d.Clear (here ++ steps) →
    d.straighten met here steps = .ok (here ++ steps)
  | [], here, _ => by rw [straighten_nil, List.append_nil]
  | step :: steps, here, h => by
    have hnext : here ++ step :: steps = here ++ [step] ++ steps := by simp
    rw [straighten_name (h.names step (by simp)), h.links (here ++ [step]) (hnext ▸ List.prefix_append _ _)]
    rw [hnext] at h ⊢
    exact straighten h

/-- A path without links does not lead through any. -/
theorem eq_of_leads : ∀ {steps : List String} {here : Place} {n : Nat}, d.Clear (here ++ steps) →
    d.Leads here steps q n → q = here ++ steps
  | [], here, n, _, k => by
    cases k
    rw [List.append_nil]
  | step :: steps, here, n, h, k => by
    have hname := h.names step (by simp)
    have hnext : here ++ step :: steps = here ++ [step] ++ steps := by simp
    have hlink := h.links (here ++ [step]) (hnext ▸ List.prefix_append _ _)
    rw [hnext] at h ⊢
    cases k with
    | stay _ hstep => exact absurd hstep hname.1
    | up _ hstep => exact absurd hstep hname.2
    | name _ _ _ _ k => exact eq_of_leads h k
    | link _ _ _ hlink' => cases hlink.symm.trans hlink'

theorem follow_eq {links : Nat} (h : d.Clear p) (k : d.follow links [] p = .ok q) : q = p := by
  obtain ⟨_, -, hleads⟩ := leads_of_follow k
  exact h.eq_of_leads hleads

/-- A path without links has no loop of links. -/
theorem follow_ne_linkLoop {links : Nat} {steps : List String} {here : Place} (h : d.Clear (here ++ steps)) :
    d.follow links here steps ≠ .error .linkLoop := by
  induction steps generalizing here with
  | nil => simp
  | cons step steps ih =>
    have hname := h.names step (by simp)
    have hnext : here ++ step :: steps = here ++ [step] ++ steps := by simp
    have hlink := h.links (here ++ [step]) (hnext ▸ List.prefix_append _ _)
    rw [hnext] at h
    by_cases hd : d.lookup? here = some .directory
    · by_cases hsize : step.utf8ByteSize ≤ nameLimit
      · rw [follow_plain hd hname hsize hlink]
        exact ih h
      · rw [follow_name hd hname, if_pos (Nat.lt_of_not_le hsize)]
        simp
    · intro hloop
      rw [follow] at hloop
      split at hloop
      · cases hloop
      · exact hd ‹_›
      · cases hloop

end Clear

/-- What is straightened is clear, unless it runs into a loop. -/
theorem clear_of_straighten {met : List Place} {here q : Place} {steps : List String}
    (h : d.straighten met here steps = .ok q) (hhere : d.Clear here) : d.Clear q := by
  induction met, here, steps using straighten.induct (d := d) generalizing q with
  | case1 met here =>
    cases straighten_nil.symm.trans h
    exact hhere
  | case2 met here step rest hstep ih =>
    obtain rfl := beq_iff_eq.1 hstep
    exact ih (straighten_here.symm.trans h) hhere
  | case3 met here step rest _ hstep ih =>
    obtain rfl := beq_iff_eq.1 hstep
    exact ih (straighten_up.symm.trans h) hhere.dropLast
  | case4 met here step rest hstay hup target hlookup hmem =>
    rw [straighten_name ⟨by simpa using hstay, by simpa using hup⟩, link?_eq_some.2 hlookup] at h
    simp only [hmem, if_true] at h
    cases h
  | case5 met here step rest hstay hup target hlookup hmem there htarget ihtarget ih =>
    rw [straighten_name ⟨by simpa using hstay, by simpa using hup⟩, link?_eq_some.2 hlookup] at h
    simp only [hmem, htarget] at h
    exact ih h (ihtarget htarget (hhere.linkStart target))
  | case6 met here step rest hstay hup target hlookup hmem steps htarget =>
    rw [straighten_name ⟨by simpa using hstay, by simpa using hup⟩, link?_eq_some.2 hlookup] at h
    simp only [hmem, htarget] at h
    cases h
  | case7 met here step rest hstay hup hlookup ih =>
    have hname : IsName step := ⟨by simpa using hstay, by simpa using hup⟩
    rw [straighten_name hname, link?_of_ne hlookup] at h
    exact ih h (hhere.snoc hname (link?_of_ne hlookup))

/-! ## Resolved paths -/

variable {p q : Place}

theorem find?_eq (d : Disk) (p : Place) : d.find? p =
    match d.follow linkLimit [] p with
    | .ok q => match d.lookup? q with
      | some e => .ok (q, e)
      | none => .error .notFound
    | .error f => .error f := by
  unfold find?
  cases d.follow linkLimit [] p <;> rfl

theorem find?_eq_ok_iff {e : DiskEntry} :
    d.find? p = .ok (q, e) ↔ d.follow linkLimit [] p = .ok q ∧ d.lookup? q = some e := by
  rw [find?_eq]
  cases d.follow linkLimit [] p with
  | error f => simp
  | ok there =>
    dsimp only
    constructor
    · intro h
      split at h <;> cases h
      exact ⟨rfl, ‹_›⟩
    · rintro ⟨⟨⟩, h⟩
      rw [h]

theorem find?_eq_linkLoop_iff : d.find? p = .error .linkLoop ↔ d.follow linkLimit [] p = .error .linkLoop := by
  rw [find?_eq]
  cases d.follow linkLimit [] p with
  | error f => simp
  | ok there =>
    dsimp only
    split <;> simp

theorem straight_of_straighten (h : d.straighten [] [] p = .ok q) : d.straight p = q := by rw [straight, h]

theorem resolve_of_straighten (h : d.straighten [] [] p = .ok q) : d.resolve p = .ok q := by
  have hclear := clear_of_straighten h (.nil d)
  unfold resolve
  rw [straight_of_straighten h]
  split
  · rename_i hloop
    exact absurd (find?_eq_linkLoop_iff.1 hloop) hclear.follow_ne_linkLoop
  · rfl

/-- A path is resolved to its straight spelling, or it leads into a loop of links. -/
theorem resolve_cases (d : Disk) (p : Place) : d.resolve p = .ok (d.straight p) ∨ d.resolve p = .error .linkLoop := by
  unfold resolve
  split
  · exact .inr rfl
  · exact .inl rfl

theorem eq_of_resolve (h : d.resolve p = .ok q) : d.straight p = q := by
  rcases resolve_cases d p with hp | hp <;> cases hp.symm.trans h
  rfl

/-- What is found at the end of a path is at the place that the path is resolved to. -/
theorem straighten_of_find? {e : DiskEntry} (h : d.find? p = .ok (q, e)) : d.straighten [] [] p = .ok q :=
  straighten_of_follow (find?_eq_ok_iff.1 h).1

end Disk

end NestedSite
