import NestedSite.Proofs.Store.WellFormed

/-!
# Blocks of places

Nothing of a well-formed store leads to places that are not in use, so that a relocation matters for these alone
(`Store.WellFormed.factors`). So what comes after a mapping that nothing leads to is as if the mapping were not there
(`Store.WellFormed.skip_fits`). What a computation that does not know the places before it leaves stands behind them
(`Store.Stacked`). Of two such computations, either may be the first: behind a well-formed store, the blocks of places
that they leave are exchanged, and what is held at the places is the same (`Store.Stacked.swap_fits`).
-/

namespace NestedSite

variable {α β : Type} {s t u e d l₁ l b₁ b : Store} {v : Value} {roots : List Value} {ρ σ τ : Relocation}

/-! ## What well-formed stores lead to -/

namespace Store

namespace WellFormed

theorem parts_in (hs : s.WellFormed) (hv : v.In s.inUse) : ∀ u ∈ v.parts s, u.In s.inUse := by
  cases v
  case tuple vs => exact Value.in_tuple.1 hv
  case slice a b c =>
    obtain ⟨ha, hb, hc⟩ := hv
    exact List.forall_mem_cons.2 ⟨ha, List.forall_mem_cons.2 ⟨hb, List.forall_mem_singleton.2 hc⟩⟩
  case list p => exact hs.lists p hv
  case dict p =>
    intro u hu
    obtain ⟨f, hf, hu⟩ := List.mem_flatMap.1 hu
    obtain ⟨hkey, hvalue⟩ := (hs.dicts p hv).1 f hf
    rcases List.mem_cons.1 hu with rfl | hu
    · exact hkey
    · exact List.mem_singleton.1 hu ▸ hvalue
  case set p => exact hs.sets p hv
  case cursor p =>
    have hcursor := hs.cursors p hv
    show ∀ u ∈ (s.cursor p).parts, u.In s.inUse
    cases hc : s.cursor p <;> rw [hc] at hcursor
    case items => exact hcursor
    case zip inner strict =>
      intro u hu
      obtain ⟨q, hq, rfl⟩ := List.mem_map.1 hu
      exact hcursor q hq
    case range | done => exact fun _ h => absurd h List.not_mem_nil
    all_goals exact List.forall_mem_singleton.2 hcursor
  case view kind p => exact List.forall_mem_singleton.2 hv
  case legend p =>
    intro u hu
    obtain ⟨f, hf, rfl⟩ := List.mem_map.1 hu
    exact (hs.legends p hv).extras f hf
  case metadata p =>
    refine List.forall_mem_cons.2 ⟨(hs.metadata p hv).files, fun u hu => ?_⟩
    obtain ⟨f, hf, rfl⟩ := List.mem_map.1 hu
    exact (hs.metadata p hv).extras f hf
  case method v name => exact List.forall_mem_singleton.2 hv.1
  all_goals exact fun _ h => absurd h List.not_mem_nil

/-- From values at places in use, only places in use are reached. -/
theorem in_of_reaches (hs : s.WellFormed) (hroots : ∀ u ∈ roots, u.In s.inUse) (h : s.Reaches roots v) :
    v.In s.inUse := by
  induction h with
  | root h => exact hroots _ h
  | part _ hpart ih => exact hs.parts_in ih _ hpart

end WellFormed

end Store

/-- Moving the places in use by `σ` and then by `ρ` is moving them by `τ`. -/
structure Relocation.LeadsAs (s : Store) (σ ρ τ : Relocation) : Prop where
  lists : ∀ p < s.lists.size, ρ.lists (σ.lists p) = τ.lists p
  dicts : ∀ p < s.dicts.size, ρ.dicts (σ.dicts p) = τ.dicts p
  sets : ∀ p < s.sets.size, ρ.sets (σ.sets p) = τ.sets p
  cursors : ∀ p < s.cursors.size, ρ.cursors (σ.cursors p) = τ.cursors p
  legends : ∀ p < s.legends.size, ρ.legends (σ.legends p) = τ.legends p
  metadata : ∀ p < s.metadata.size, ρ.metadata (σ.metadata p) = τ.metadata p

namespace Store.WellFormed

variable (hs : s.WellFormed) (h : Relocation.LeadsAs s σ ρ τ)

include hs h

theorem factors (hroots : ∀ u ∈ roots, u.In s.inUse) : Relocation.Factors s roots σ ρ τ where
  lists p hp := h.lists p (hs.in_of_reaches hroots hp)
  dicts p hp := h.dicts p (hs.in_of_reaches hroots hp)
  sets p hp := h.sets p (hs.in_of_reaches hroots hp)
  cursors p hp := h.cursors p (hs.in_of_reaches hroots hp)
  legends p hp := h.legends p (hs.in_of_reaches hroots hp)
  metadata p hp := h.metadata p (hs.in_of_reaches hroots hp)

theorem moved_value (hv : v.In s.inUse) : (v.moved σ).moved ρ = v.moved τ :=
  (hs.factors h (List.forall_mem_singleton.2 hv)).value v (.root (List.mem_singleton_self v))

theorem moved_fields {fields : List (String × Value)} (hfields : FieldsIn s.inUse fields) :
    movedFields ρ (movedFields σ fields) = movedFields τ fields := by
  unfold movedFields
  rw [List.map_map]
  exact List.map_congr_left fun f hf => congrArg (f.1, ·) (hs.moved_value h (hfields f hf))

theorem moved_entries {es : Entries} (hes : es.In s.inUse) : (es.moved σ).moved ρ = es.moved τ := by
  unfold Entries.moved
  rw [List.map_map]
  exact List.map_congr_left fun e he => Prod.ext (hs.moved_value h (hes e he).1) (hs.moved_value h (hes e he).2)

/-! What is held at a place in use is moved alike. -/

theorem moved_list {p : Nat} (hp : p < s.lists.size) :
    ((s.list p).map (Value.moved σ)).map (Value.moved ρ) = (s.list p).map (Value.moved τ) := by
  rw [List.map_map]
  exact List.map_congr_left fun v hv => hs.moved_value h (hs.lists p hp v hv)

theorem moved_set {p : Nat} (hp : p < s.sets.size) :
    ((s.set p).map (Value.moved σ)).map (Value.moved ρ) = (s.set p).map (Value.moved τ) := by
  rw [List.map_map]
  exact List.map_congr_left fun v hv => hs.moved_value h (hs.sets p hp v hv)

theorem moved_cursor {p : Nat} (hp : p < s.cursors.size) :
    ((s.cursor p).moved σ).moved ρ = (s.cursor p).moved τ := by
  have hplace : (Value.cursor p).In s.inUse := hp
  have hfactors := hs.factors h (List.forall_mem_singleton.2 hplace)
  exact hfactors.cursor fun _ hv => .part (.root (List.mem_singleton_self _)) hv

theorem moved_legend {p : Nat} (hp : p < s.legends.size) :
    ((s.legend p).moved σ).moved ρ = (s.legend p).moved τ := by
  have hplace : (Value.legend p).In s.inUse := hp
  exact (hs.factors h (List.forall_mem_singleton.2 hplace)).legend (.root (List.mem_singleton_self _))

theorem moved_metadata {p : Nat} (hp : p < s.metadata.size) :
    ((s.metadataAt p).moved σ).moved ρ = (s.metadataAt p).moved τ := by
  have hplace : (Value.metadata p).In s.inUse := hp
  exact (hs.factors h (List.forall_mem_singleton.2 hplace)).metadataAt (.root (List.mem_singleton_self _))

end Store.WellFormed

/-! ## Relocations that fit -/

/-- What is found at places in use, and the default at free ones, is found everywhere. -/
theorem Found.everywhere {f : Nat → Nat} {g : α → α} {n n' : Nat} {look look' : Nat → α} (h : Found f g n n' look look')
    (free : ∀ k, f (n + k) = n' + k) (hfree : ∀ k, look' (n' + k) = g (look (n + k))) (p : Nat) :
    look' (f p) = g (look p) := by
  rcases Nat.lt_or_ge p n with hp | hp
  · exact (h p hp).2
  · obtain ⟨k, rfl⟩ := Nat.exists_eq_add_of_le hp
    rw [free, hfree]

/-- A relocation fits if it carries what stands at the places in use, and leads free places to free ones. -/
theorem Relocation.Carries.fits (h : ρ.Carries s t) (freeLists : ∀ n, ρ.lists (s.lists.size + n) = t.lists.size + n)
    (freeDicts : ∀ n, ρ.dicts (s.dicts.size + n) = t.dicts.size + n)
    (freeSets : ∀ n, ρ.sets (s.sets.size + n) = t.sets.size + n)
    (freeCursors : ∀ n, ρ.cursors (s.cursors.size + n) = t.cursors.size + n)
    (freeLegends : ∀ n, ρ.legends (s.legends.size + n) = t.legends.size + n)
    (freeMetadata : ∀ n, ρ.metadata (s.metadata.size + n) = t.metadata.size + n) : ρ.Fits s t where
  list := h.lists.everywhere freeLists fun n => by simp [Store.list]
  dict := h.dicts.everywhere freeDicts fun n => by simp [Store.dict, Entries.moved]
  set := h.sets.everywhere freeSets fun n => by simp [Store.set]
  cursor := h.cursors.everywhere freeCursors fun n => by simp [Store.cursor, Cursor.moved]
  legend := h.legends.everywhere freeLegends fun n => by
    simp only [Store.legend, Array.getElem?_eq_none (Nat.le_add_right _ _), Option.getD_none]
    rfl
  metadata := h.metadata.everywhere freeMetadata fun n => by
    simp only [Store.metadataAt, Array.getElem?_eq_none (Nat.le_add_right _ _), Option.getD_none, Metadata.moved]
    exact congrArg (fun files => ({ files } : Metadata)) (freeLists 0).symm
  freeLists := freeLists
  freeDicts := freeDicts
  freeSets := freeSets
  freeCursors := freeCursors
  freeLegends := freeLegends
  freeMetadata := freeMetadata

/-! ## A mapping that nothing leads to -/

/-- The mapping that comes next is passed over. -/
def Relocation.skip (s : Store) : Relocation where
  __ := Relocation.refl
  dicts p := if p < s.dicts.size then p else p + 1
  dicts_inj := by grind

theorem Relocation.skip_leadsAs (s : Store) : LeadsAs s .refl (skip s) .refl where
  lists _ _ := rfl
  dicts _ hp := if_pos hp
  sets _ _ := rfl
  cursors _ _ := rfl
  legends _ _ := rfl
  metadata _ _ := rfl

namespace Store.WellFormed

variable (hs : s.WellFormed)

include hs

/-- Values of a well-formed store stay where they are when the mapping that comes next is passed over. -/
theorem skip_fields {fields : List (String × Value)} (hfields : FieldsIn s.inUse fields) :
    movedFields (.skip s) fields = fields := by
  simpa using hs.moved_fields (Relocation.skip_leadsAs s) hfields

theorem skip_entries {es : Entries} (hes : es.In s.inUse) : es.moved (.skip s) = es := by
  simpa using hs.moved_entries (Relocation.skip_leadsAs s) hes

theorem skip_fits (es : Entries) : (Relocation.skip s).Fits s { s with dicts := s.dicts.push es } := by
  have hkeeps := Keeps.pushDict s es
  have hleads := Relocation.skip_leadsAs s
  refine Relocation.Carries.fits ⟨?_, ?_, ?_, ?_, ?_, ?_⟩ (fun _ => rfl) (fun n => ?_) (fun _ => rfl) (fun _ => rfl)
    (fun _ => rfl) fun _ => rfl
  · refine fun p hp => ⟨(hkeeps.lists p hp).1, (hkeeps.lists p hp).2.trans ?_⟩
    simpa using (hs.moved_list hleads hp).symm
  · intro p hp
    rw [show (Relocation.skip s).dicts p = p from if_pos hp, hs.skip_entries (hs.dicts p hp).1]
    exact hkeeps.dicts p hp
  · refine fun p hp => ⟨(hkeeps.sets p hp).1, (hkeeps.sets p hp).2.trans ?_⟩
    simpa using (hs.moved_set hleads hp).symm
  · refine fun p hp => ⟨(hkeeps.cursors p hp).1, (hkeeps.cursors p hp).2.trans ?_⟩
    simpa using (hs.moved_cursor hleads hp).symm
  · refine fun p hp => ⟨(hkeeps.legends p hp).1, (hkeeps.legends p hp).2.trans ?_⟩
    simpa using (hs.moved_legend hleads hp).symm
  · refine fun p hp => ⟨(hkeeps.metadata p hp).1, (hkeeps.metadata p hp).2.trans ?_⟩
    simpa using (hs.moved_metadata hleads hp).symm
  · have hfree : (Relocation.skip s).dicts (s.dicts.size + n) = s.dicts.size + n + 1 :=
      if_neg (Nat.not_lt_of_le (Nat.le_add_right _ n))
    rw [hfree, Array.size_push]
    omega

end Store.WellFormed

/-! ## Blocks that are exchanged -/

/-- The third store holds the first one, and the second one behind it. -/
structure Store.Stacked (s u t : Store) : Prop where
  fits : (Relocation.behind s).Fits u t
  keeps : s.Keeps t

/-- What a computation leaves in the empty world stands behind every other. -/
theorem Moves.stacked {f : α → β} {m : Run α} {m' : Run β} {w : World} (h : Moves (.behind w.store) f m m') :
    w.store.Stacked (m.after {}).store (m'.after w).store := by
  obtain ⟨-, hfits, hspares⟩ := h {} w (Relocation.behind_fits w.store)
  exact ⟨hfits, hfits.keeps hspares⟩

/-- The blocks of `m` and of `n` places behind the first `a` are exchanged. -/
def swapBlocks (a m n p : Nat) : Nat :=
  if p < a then p else if p < a + m then p + n else if p < a + m + n then p - m else p

theorem swapBlocks_inj {a m n p q : Nat} : swapBlocks a m n p = swapBlocks a m n q ↔ p = q := by
  grind [swapBlocks]

theorem swapBlocks_first {a m n p : Nat} (h : p < a) : swapBlocks a m n p = p := if_pos h

theorem swapBlocks_second {a m n q : Nat} (h : q < m) : swapBlocks a m n (a + q) = a + n + q := by
  grind [swapBlocks]

theorem swapBlocks_third {a m n q : Nat} (h : q < n) : swapBlocks a m n (a + m + q) = a + q := by
  grind [swapBlocks]

theorem swapBlocks_free (a m n k : Nat) : swapBlocks a m n (a + m + n + k) = a + n + m + k := by
  grind [swapBlocks]

/-- The blocks that are left behind `s` by two computations are exchanged. -/
def Relocation.swap (s e d : Store) : Relocation where
  lists := swapBlocks s.lists.size e.lists.size d.lists.size
  dicts := swapBlocks s.dicts.size e.dicts.size d.dicts.size
  sets := swapBlocks s.sets.size e.sets.size d.sets.size
  cursors := swapBlocks s.cursors.size e.cursors.size d.cursors.size
  legends := swapBlocks s.legends.size e.legends.size d.legends.size
  metadata := swapBlocks s.metadata.size e.metadata.size d.metadata.size
  lists_inj := swapBlocks_inj
  dicts_inj := swapBlocks_inj
  sets_inj := swapBlocks_inj
  cursors_inj := swapBlocks_inj
  legends_inj := swapBlocks_inj
  metadata_inj := swapBlocks_inj

/-- The places in front of the blocks stay where they are. -/
theorem Relocation.swap_leadsAs (s e d : Store) : LeadsAs s .refl (swap s e d) .refl where
  lists _ hp := swapBlocks_first hp
  dicts _ hp := swapBlocks_first hp
  sets _ hp := swapBlocks_first hp
  cursors _ hp := swapBlocks_first hp
  legends _ hp := swapBlocks_first hp
  metadata _ hp := swapBlocks_first hp

/-- Of the places of one kind, `m` stand behind the first `a`. -/
structure Behind (g : α → α) (a m n : Nat) (look part look' : Nat → α) : Prop where
  size : n = a + m
  kept : Found id id a n look look'
  moved : ∀ q, look' (a + q) = g (part q)

theorem Behind.look_first {g : α → α} {a m n p : Nat} {look part look' : Nat → α} (h : Behind g a m n look part look')
    (hp : p < a) : look' p = look p := (h.kept p hp).2

/-- Two blocks stand behind the same places in either order: each place of the one order is found in the other after
the exchange, if what it holds is led from where its block stands there to where it stands here. -/
theorem Behind.swap {a m n a₁ a₂ b₁ b₂ : Nat} {g g₁ g₁' g₂ g₂' : α → α}
    {look look₁ look₂ first one second other : Nat → α} (h₁ : Behind g₁ a m a₁ look look₁ first)
    (h₂ : Behind g₂ a₁ n a₂ first look₂ one) (k₂ : Behind g₂' a n b₁ look look₂ second)
    (k₁ : Behind g₁' b₁ m b₂ second look₁ other) (hg : ∀ p < a, g (look p) = look p)
    (hg₁ : ∀ q < m, g (g₁ (look₁ q)) = g₁' (look₁ q)) (hg₂ : ∀ q < n, g (g₂ (look₂ q)) = g₂' (look₂ q)) :
    Found (swapBlocks a m n) g a₂ b₂ one other := by
  obtain ⟨rfl, rfl, rfl, rfl⟩ := And.intro h₁.size (And.intro h₂.size (And.intro k₂.size k₁.size))
  intro p hp
  rcases Nat.lt_or_ge p a with hfirst | hlater
  · rw [swapBlocks_first hfirst, k₁.look_first (by omega), k₂.look_first hfirst, h₂.look_first (by omega),
      h₁.look_first hfirst, hg p hfirst]
    exact ⟨by omega, rfl⟩
  obtain ⟨q, rfl⟩ := Nat.exists_eq_add_of_le hlater
  rcases Nat.lt_or_ge q m with hq | hq
  · rw [swapBlocks_second hq, k₁.moved, h₂.look_first (by omega), h₁.moved, hg₁ q hq]
    exact ⟨by omega, rfl⟩
  · obtain ⟨r, rfl⟩ := Nat.exists_eq_add_of_le hq
    have hr : r < n := by omega
    rw [← Nat.add_assoc, swapBlocks_third hr, k₁.look_first (by omega), k₂.moved, h₂.moved, hg₂ r hr]
    exact ⟨by omega, rfl⟩

/-- Free places are found at free places after the exchange. -/
theorem Behind.swap_free {a m n a₁ a₂ b₁ b₂ : Nat} {g₁ g₁' g₂ g₂' : α → α}
    {look look₁ look₂ first second one other : Nat → α} (h₁ : Behind g₁ a m a₁ look look₁ first)
    (h₂ : Behind g₂ a₁ n a₂ first look₂ one) (k₂ : Behind g₂' a n b₁ look look₂ second)
    (k₁ : Behind g₁' b₁ m b₂ second look₁ other) (k : Nat) : swapBlocks a m n (a₂ + k) = b₂ + k := by
  rw [h₂.size, h₁.size, k₁.size, k₂.size, swapBlocks_free]

namespace Store.Stacked

/-! Each kind of places stands behind those that there were. -/

section

variable (h : s.Stacked u t)

include h

theorem lists :
    Behind (List.map (Value.moved (.behind s))) s.lists.size u.lists.size t.lists.size s.list u.list t.list :=
  ⟨(h.fits.freeLists 0).symm, h.keeps.lists, h.fits.list⟩

theorem dicts : Behind (Entries.moved (.behind s)) s.dicts.size u.dicts.size t.dicts.size s.dict u.dict t.dict :=
  ⟨(h.fits.freeDicts 0).symm, h.keeps.dicts, h.fits.dict⟩

theorem sets : Behind (List.map (Value.moved (.behind s))) s.sets.size u.sets.size t.sets.size s.set u.set t.set :=
  ⟨(h.fits.freeSets 0).symm, h.keeps.sets, h.fits.set⟩

theorem cursors :
    Behind (Cursor.moved (.behind s)) s.cursors.size u.cursors.size t.cursors.size s.cursor u.cursor t.cursor :=
  ⟨(h.fits.freeCursors 0).symm, h.keeps.cursors, h.fits.cursor⟩

theorem legends :
    Behind (Legend.moved (.behind s)) s.legends.size u.legends.size t.legends.size s.legend u.legend t.legend :=
  ⟨(h.fits.freeLegends 0).symm, h.keeps.legends, h.fits.legend⟩

theorem metadata : Behind (Metadata.moved (.behind s)) s.metadata.size u.metadata.size t.metadata.size s.metadataAt
    u.metadataAt t.metadataAt :=
  ⟨(h.fits.freeMetadata 0).symm, h.keeps.metadata, h.fits.metadata⟩

end

section

variable (h₁ : s.Stacked e l₁) (h₂ : l₁.Stacked d l) (k₂ : s.Stacked d b₁) (k₁ : b₁.Stacked e b)

include k₂ in
/-- The first block comes behind the second one. -/
theorem swap_first : Relocation.LeadsAs e (.behind s) (.swap s e d) (.behind b₁) where
  lists p hp := (swapBlocks_second hp).trans (congrArg (· + p) k₂.lists.size.symm)
  dicts p hp := (swapBlocks_second hp).trans (congrArg (· + p) k₂.dicts.size.symm)
  sets p hp := (swapBlocks_second hp).trans (congrArg (· + p) k₂.sets.size.symm)
  cursors p hp := (swapBlocks_second hp).trans (congrArg (· + p) k₂.cursors.size.symm)
  legends p hp := (swapBlocks_second hp).trans (congrArg (· + p) k₂.legends.size.symm)
  metadata p hp := (swapBlocks_second hp).trans (congrArg (· + p) k₂.metadata.size.symm)

include h₁ in
/-- The second block comes in front of the first one. -/
theorem swap_second : Relocation.LeadsAs d (.behind l₁) (.swap s e d) (.behind s) where
  lists p hp := (congrArg (fun a => swapBlocks _ _ _ (a + p)) h₁.lists.size).trans (swapBlocks_third hp)
  dicts p hp := (congrArg (fun a => swapBlocks _ _ _ (a + p)) h₁.dicts.size).trans (swapBlocks_third hp)
  sets p hp := (congrArg (fun a => swapBlocks _ _ _ (a + p)) h₁.sets.size).trans (swapBlocks_third hp)
  cursors p hp := (congrArg (fun a => swapBlocks _ _ _ (a + p)) h₁.cursors.size).trans (swapBlocks_third hp)
  legends p hp := (congrArg (fun a => swapBlocks _ _ _ (a + p)) h₁.legends.size).trans (swapBlocks_third hp)
  metadata p hp := (congrArg (fun a => swapBlocks _ _ _ (a + p)) h₁.metadata.size).trans (swapBlocks_third hp)

include h₁ h₂ k₂ k₁ in
/-- Either order of two blocks fits the other one. -/
theorem swap_fits (hs : s.WellFormed) (he : e.WellFormed) (hd : d.WellFormed) :
    (Relocation.swap s e d).Fits l b := by
  have base := Relocation.swap_leadsAs s e d
  have first := swap_first (e := e) k₂
  have second := swap_second (d := d) h₁
  refine Relocation.Carries.fits ⟨?_, ?_, ?_, ?_, ?_, ?_⟩ (h₁.lists.swap_free h₂.lists k₂.lists k₁.lists)
    (h₁.dicts.swap_free h₂.dicts k₂.dicts k₁.dicts) (h₁.sets.swap_free h₂.sets k₂.sets k₁.sets)
    (h₁.cursors.swap_free h₂.cursors k₂.cursors k₁.cursors) (h₁.legends.swap_free h₂.legends k₂.legends k₁.legends)
    (h₁.metadata.swap_free h₂.metadata k₂.metadata k₁.metadata)
  · exact h₁.lists.swap h₂.lists k₂.lists k₁.lists (fun p hp => by simpa using hs.moved_list base hp)
      (fun q => he.moved_list first) fun q => hd.moved_list second
  · exact h₁.dicts.swap h₂.dicts k₂.dicts k₁.dicts (fun p hp => by simpa using hs.moved_entries base (hs.dicts p hp).1)
      (fun q hq => he.moved_entries first (he.dicts q hq).1) fun q hq => hd.moved_entries second (hd.dicts q hq).1
  · exact h₁.sets.swap h₂.sets k₂.sets k₁.sets (fun p hp => by simpa using hs.moved_set base hp)
      (fun q => he.moved_set first) fun q => hd.moved_set second
  · exact h₁.cursors.swap h₂.cursors k₂.cursors k₁.cursors (fun p hp => by simpa using hs.moved_cursor base hp)
      (fun q => he.moved_cursor first) fun q => hd.moved_cursor second
  · exact h₁.legends.swap h₂.legends k₂.legends k₁.legends (fun p hp => by simpa using hs.moved_legend base hp)
      (fun q => he.moved_legend first) fun q => hd.moved_legend second
  · exact h₁.metadata.swap h₂.metadata k₂.metadata k₁.metadata (fun p hp => by simpa using hs.moved_metadata base hp)
      (fun q => he.moved_metadata first) fun q => hd.moved_metadata second

end

end Store.Stacked

end NestedSite
