import NestedSite.Proofs.Store.Paths
import NestedSite.Proofs.Yaml.Making
import NestedSite.Site.Layer

/-!
# Layers of configurations

A layer says one of three things of a path of keys: it binds it, it hides it behind a value that is no mapping, or it is
silent. Entries that are merged over others decide every path that they are not silent of, and leave the others as they
were (`Layer.Overlaid`, `Store.Merges.overlaid`); to merge them once more changes nothing (`Store.Merges.alike`). So of
all layers of a configuration the highest one that is not silent decides (`Layer.Decided`).

Merging goes through the mappings that both sides have under the same keys, and fails if these nest too deep
(`Store.Meet`). It makes new mappings and keeps all that there was, so that what it leaves is read from the store in
which it ends, or from any later one (`Run.mergeEntries_ends`).
-/

namespace NestedSite

variable {α β : Type} {s t : Store} {w w' : World} {n : Nat} {base overlay merged : Entries}
  {path : List Value} {found : Option Value}

/-! ## What layers say of a path -/

namespace Layer

/-- The layer leaves the path to the layers below it. -/
def Silent (layer : Layer) (path : List Value) : Prop := layer path = none ∧ ¬layer.Hides path

/-- The path is bound as the layer has it, if that is not silent. -/
structure Decides (layer : Layer) (path : List Value) (found : Option Value) : Prop where
  value : ∀ v, layer path = some v → v.isMapping = false → found = some v
  hidden : layer.Hides path → found = none
  mapping : ∀ q, layer path = some (.dict q) → ∃ r, found = some (.dict r)

/-- The path is bound as the first of the layers has it that is not silent. -/
def Decided : List Layer → List Value → Option Value → Prop
  | [], _, found => found = none
  | layer :: lower, path, found => layer.Decides path found ∧ (layer.Silent path → Decided lower path found)

/-- The path is bound as `overlay` has it, or as `base` has it if `overlay` is silent. -/
def OverlaidAt (base overlay merged : Layer) (path : List Value) : Prop :=
  overlay.Decides path (merged path) ∧ (overlay.Silent path → merged path = base path)

/-- Every path is bound so. -/
def Overlaid (base overlay merged : Layer) : Prop := ∀ path, base.OverlaidAt overlay merged path

variable {layer layer' combined : Layer} {path' : List Value}

theorem decides_congr (h : layer path = layer' path') (hhides : layer.Hides path ↔ layer'.Hides path') :
    layer.Decides path found ↔ layer'.Decides path' found := by
  constructor
  · rintro ⟨value, hidden, mapping⟩
    exact ⟨fun v hv => value v (h.trans hv), fun hh => hidden (hhides.2 hh), fun q hq => mapping q (h.trans hq)⟩
  · rintro ⟨value, hidden, mapping⟩
    exact ⟨fun v hv => value v (h.symm.trans hv), fun hh => hidden (hhides.1 hh),
      fun q hq => mapping q (h.symm.trans hq)⟩

theorem decides_bound? (s : Store) (es : Entries) (path : List Value) :
    (s.bound? es).Decides path (s.bound? es path) := ⟨fun _ h _ => h, Store.bound?_of_hides, fun q h => ⟨q, h⟩⟩

/-- A single layer decides what it binds. -/
theorem decided_single (s : Store) (es : Entries) (path : List Value) :
    Decided [s.bound? es] path (s.bound? es path) := ⟨decides_bound? s es path, fun h => h.1⟩

/-- Over layers that decide, one more layer is the highest one. -/
theorem Overlaid.decided {lower : List Layer} (h : layer.Overlaid layer' combined)
    (hlower : Decided lower path (layer path)) : Decided (layer' :: lower) path (combined path) :=
  ⟨(h path).1, fun hsilent => (h path).2 hsilent ▸ hlower⟩

end Layer

/-! ## Merged entries -/

namespace Store

/-- What a value that is laid over another one becomes: a mapping goes into a mapping as `inner` says, and any other
value stays as it is. -/
def Lays (s : Store) (inner : Entries → Entries → Entries → Prop) : Option Value → Value → Value → Prop
  | some (.dict p), .dict q, u => ∃ r, u = .dict r ∧ inner (s.dict p) (s.dict q) (s.dict r)
  | _, v, u => u = v

/-- What entries are merged to, where `inner` says what the mappings in them are merged to. -/
structure MergesBy (s : Store) (inner : Entries → Entries → Entries → Prop) (base overlay merged : Entries) : Prop where
  keys : merged.keys = base.keys ++ overlay.keys.filter fun k => (base.find? k).isNone
  kept : ∀ k, overlay.find? k = none → merged.find? k = base.find? k
  laid : ∀ k v, overlay.find? k = some v → ∃ u, merged.find? k = some u ∧ s.Lays inner (base.find? k) v u

/-- What entries are merged to, to the depth `n`. -/
def Merges (s : Store) : Nat → Entries → Entries → Entries → Prop
  | 0, _, _, _ => False
  | n + 1, base, overlay, merged => s.MergesBy (s.Merges n) base overlay merged

theorem Lays.cases {inner : Entries → Entries → Entries → Prop} {b : Option Value} {v u : Value}
    (h : s.Lays inner b v u) :
    (∃ p q r, b = some (.dict p) ∧ v = .dict q ∧ u = .dict r ∧ inner (s.dict p) (s.dict q) (s.dict r)) ∨
      u = v ∧ (v.isMapping = true → ∀ x ∈ b, x.isMapping = false) := by
  unfold Lays at h
  split at h
  · obtain ⟨r, rfl, hinner⟩ := h
    exact .inl ⟨_, _, r, rfl, rfl, rfl, hinner⟩
  · rename_i hother
    refine .inr ⟨h, fun hv x hx => ?_⟩
    cases v <;> try cases hv
    cases x <;> try rfl
    exact absurd rfl (hother _ _ hx)

/-! ## What is merged decides -/

variable {k v u : Value}

theorem overlaidAt_kept (hgiven : overlay.find? k = none) (hkept : merged.find? k = base.find? k) :
    (s.bound? base).OverlaidAt (s.bound? overlay) (s.bound? merged) (k :: path) := by
  have hnone : s.bound? overlay (k :: path) = none := bound?_cons_none hgiven
  have hopen : ¬(s.bound? overlay).Hides (k :: path) := by
    rw [hides_cons_iff, hgiven]
    exact fun ⟨_, h, _⟩ => nomatch h
  refine ⟨⟨fun v hv => ?_, fun h => absurd h hopen, fun q hq => ?_⟩, fun _ => by rw [bound?, bound?, hkept]⟩
  · cases hnone.symm.trans hv
  · cases hnone.symm.trans hq

/-- Where a mapping goes into a mapping, the path is bound as what they are merged to has it. -/
theorem overlaidAt_into {p q r : Nat} (hp : base.find? k = some (.dict p)) (hq : overlay.find? k = some (.dict q))
    (hr : merged.find? k = some (.dict r))
    (h : path ≠ [] → (s.bound? (s.dict p)).OverlaidAt (s.bound? (s.dict q)) (s.bound? (s.dict r)) path) :
    (s.bound? base).OverlaidAt (s.bound? overlay) (s.bound? merged) (k :: path) := by
  by_cases hne : path = []
  · subst hne
    have hmapping : s.bound? overlay [k] = some (.dict q) := bound?_cons_some hq
    refine ⟨⟨fun v hv hm => ?_, fun hhides => ?_, fun _ _ => ⟨r, bound?_cons_some hr⟩⟩, fun hsilent => ?_⟩
    · cases hmapping.symm.trans hv
      cases hm
    · cases hmapping.symm.trans (bound?_of_hides hhides)
    · cases hmapping.symm.trans hsilent.1
  · have hhides : (s.bound? overlay).Hides (k :: path) ↔ (s.bound? (s.dict q)).Hides path := by
      simp only [hides_cons_iff, hq, Option.some.injEq, exists_eq_left', hides_dict_iff]
    have hoverlay : s.bound? overlay (k :: path) = s.bound? (s.dict q) path :=
      (bound?_cons_some hq).trans (follow?_dict hne q)
    obtain ⟨hdecides, hsilent⟩ := h hne
    rw [Layer.OverlaidAt, bound?_cons_some hr, bound?_cons_some hp, follow?_dict hne, follow?_dict hne]
    exact ⟨(Layer.decides_congr hoverlay hhides).2 hdecides,
      fun h => hsilent ⟨hoverlay.symm.trans h.1, fun hh => h.2 (hhides.2 hh)⟩⟩

/-- Where a value of the overlay stands by itself, the path is bound as the overlay has it. -/
theorem overlaidAt_alone (hv : overlay.find? k = some v) (hmerged : merged.find? k = some v)
    (halone : v.isMapping = true → ∀ x ∈ base.find? k, x.isMapping = false) :
    (s.bound? base).OverlaidAt (s.bound? overlay) (s.bound? merged) (k :: path) := by
  have hsame : s.bound? merged (k :: path) = s.bound? overlay (k :: path) := by
    rw [bound?_cons_some hmerged, bound?_cons_some hv]
  refine ⟨hsame ▸ Layer.decides_bound? s overlay _, fun hsilent => ?_⟩
  have hne : path ≠ [] := by
    rintro rfl
    cases hsilent.1.symm.trans ((bound?_cons_some hv).trans (s.follow?_nil v))
  have hmapping : v.isMapping = true := by
    by_contra hnot
    exact hsilent.2 (hides_cons_iff.2 ⟨v, hv, hides_of_not_mapping hne (Bool.eq_false_iff.2 hnot)⟩)
  rw [hsame, hsilent.1]
  cases hb : base.find? k with
  | none => rw [bound?_cons_none hb]
  | some x => rw [bound?_cons_some hb, follow?_of_not_mapping hne (halone hmapping x hb)]

/-- What is merged decides every path that it is not silent of, and leaves the others as they were. -/
theorem Merges.overlaid (h : s.Merges n base overlay merged) :
    (s.bound? base).Overlaid (s.bound? overlay) (s.bound? merged) := by
  intro path
  induction path generalizing n base overlay merged with
  | nil => exact ⟨Layer.decides_bound? s overlay [], fun _ => rfl⟩
  | cons k path ih =>
    cases n with
    | zero => exact h.elim
    | succ n =>
      cases hgiven : overlay.find? k with
      | none => exact overlaidAt_kept hgiven (h.kept k hgiven)
      | some v =>
        obtain ⟨u, hu, hlays⟩ := h.laid k v hgiven
        obtain ⟨p, q, r, hp, rfl, rfl, hinner⟩ | ⟨rfl, halone⟩ := hlays.cases
        · exact overlaidAt_into hp hgiven hu fun _ => ih hinner
        · exact overlaidAt_alone hgiven hu halone

/-! ## Merging once more -/

theorem Alike.follow? {p q : Nat} (h : s.Alike (s.dict p) (s.dict q)) (path : List Value) :
    (s.follow? (.dict q) path).map s.sight = (s.follow? (.dict p) path).map s.sight := by
  cases path with
  | nil => exact congrArg (some ∘ Sight.mapping) h.keys
  | cons k path => exact h.bound (k :: path)

/-- Entries that an overlay decides are bound under its keys. -/
theorem isSome_of_decides (h : ∀ path, (s.bound? overlay).Decides path (s.bound? base path))
    (hv : overlay.find? k = some v) :
    ∃ u, base.find? k = some u ∧ (v.isMapping = false → u = v) ∧ (v.isMapping = true → ∃ r, u = .dict r) := by
  have hbound {es : Entries} : s.bound? es [k] = es.find? k := by
    cases hfind : es.find? k with
    | none => exact bound?_cons_none hfind
    | some u => exact (bound?_cons_some hfind).trans (s.follow?_nil u)
  have hdecides := h [k]
  rw [hbound] at hdecides
  cases hmapping : v.isMapping with
  | false => exact ⟨v, hdecides.value v (hbound.trans hv) hmapping, fun _ => rfl, nofun⟩
  | true =>
    obtain ⟨q, rfl⟩ := v.exists_dict hmapping
    obtain ⟨r, hr⟩ := hdecides.mapping q (hbound.trans hv)
    exact ⟨.dict r, hr, nofun, fun _ => ⟨r, rfl⟩⟩

/-- In a mapping, entries are decided by the mapping that is laid over it. -/
theorem decides_into {p q : Nat} (h : ∀ path, (s.bound? overlay).Decides path (s.bound? base path))
    (hp : base.find? k = some (.dict p)) (hq : overlay.find? k = some (.dict q)) (path : List Value) :
    (s.bound? (s.dict q)).Decides path (s.bound? (s.dict p) path) := by
  cases path with
  | nil => exact ⟨nofun, fun _ => rfl, nofun⟩
  | cons l path =>
    have hne : l :: path ≠ [] := List.cons_ne_nil l path
    have hdecides := h (k :: l :: path)
    rw [bound?_cons_some hp, follow?_dict hne] at hdecides
    refine (Layer.decides_congr ((bound?_cons_some hq).trans (follow?_dict hne q)) ?_).1 hdecides
    rw [← hides_dict_iff]
    simp only [hides_cons_iff, hq, Option.some.injEq, exists_eq_left']

/-- Where an overlay has decided already, it changes nothing. -/
theorem Merges.alike (h : s.Merges n base overlay merged)
    (hdecides : ∀ path, (s.bound? overlay).Decides path (s.bound? base path)) : s.Alike base merged := by
  induction n generalizing base overlay merged with
  | zero => exact h.elim
  | succ n ih =>
    refine ⟨?_, fun path => ?_⟩
    · rw [h.keys, List.filter_eq_nil_iff.2, List.append_nil]
      intro k hk hnone
      obtain ⟨v, hv⟩ := Entries.exists_find?_of_mem_keys hk
      obtain ⟨u, hu, -⟩ := isSome_of_decides hdecides hv
      rw [hu] at hnone
      cases hnone
    · cases path with
      | nil => rfl
      | cons k path =>
        cases hgiven : overlay.find? k with
        | none => rw [bound?, bound?, h.kept k hgiven]
        | some v =>
          obtain ⟨x, hx, hvalue, hmapping⟩ := isSome_of_decides hdecides hgiven
          obtain ⟨u, hu, hlays⟩ := h.laid k v hgiven
          rw [bound?_cons_some hu, bound?_cons_some hx]
          obtain ⟨p, q, r, hp, rfl, rfl, hinner⟩ | ⟨rfl, halone⟩ := hlays.cases
          · cases hx.symm.trans hp
            exact (ih hinner (decides_into hdecides hp hgiven)).follow? path
          · cases hv : u.isMapping with
            | false => rw [hvalue hv]
            | true =>
              obtain ⟨r, rfl⟩ := hmapping hv
              cases halone hv (.dict r) hx

/-! ## Mappings under the same keys -/

/-- Mappings are nested `n` deep under the same keys on both sides. -/
def Meet (s : Store) : Nat → Entries → Entries → Prop
  | 0, _, _ => True
  | n + 1, base, overlay => ∃ k p q, base.find? k = some (.dict p) ∧ overlay.find? k = some (.dict q) ∧
    s.Meet n (s.dict p) (s.dict q)

/-- The same of a value that is laid over another one. -/
def MeetAt (s : Store) (n : Nat) (b : Option Value) (v : Value) : Prop :=
  ∃ p q, b = some (.dict p) ∧ v = .dict q ∧ s.Meet n (s.dict p) (s.dict q)

/-- They are if a path of `n` keys leads to a mapping on both sides. -/
theorem meet_succ_iff : s.Meet (n + 1) base overlay ↔ ∃ path, path.length = n + 1 ∧
    (∃ p, s.bound? base path = some (.dict p)) ∧ ∃ q, s.bound? overlay path = some (.dict q) := by
  induction n generalizing base overlay with
  | zero =>
    constructor
    · rintro ⟨k, p, q, hp, hq, -⟩
      exact ⟨[k], rfl, ⟨p, bound?_cons_some hp⟩, q, bound?_cons_some hq⟩
    · rintro ⟨path, hlength, ⟨p, hp⟩, q, hq⟩
      obtain ⟨k, rfl⟩ := List.length_eq_one_iff.1 hlength
      obtain ⟨u, hu, hp⟩ := Option.bind_eq_some_iff.1 hp
      obtain ⟨v, hv, hq⟩ := Option.bind_eq_some_iff.1 hq
      rw [follow?_nil] at hp hq
      exact ⟨k, p, q, hp ▸ hu, hq ▸ hv, trivial⟩
  | succ n ih =>
    constructor
    · rintro ⟨k, p, q, hp, hq, hmeet⟩
      obtain ⟨path, hlength, hbase, hoverlay⟩ := ih.1 hmeet
      have hne : path ≠ [] := by
        rintro rfl
        cases hlength
      refine ⟨k :: path, congrArg Nat.succ hlength, ?_, ?_⟩
      · rwa [bound?_cons_some hp, follow?_dict hne]
      · rwa [bound?_cons_some hq, follow?_dict hne]
    · rintro ⟨path, hlength, ⟨p, hp⟩, q, hq⟩
      obtain ⟨k, path, rfl⟩ := List.exists_cons_of_length_eq_add_one hlength
      have hne : path ≠ [] := by
        rintro rfl
        cases hlength
      obtain ⟨u, hu, hp⟩ := Option.bind_eq_some_iff.1 hp
      obtain ⟨v, hv, hq⟩ := Option.bind_eq_some_iff.1 hq
      obtain ⟨p', rfl⟩ := eq_dict_of_follow? hne hp
      obtain ⟨q', rfl⟩ := eq_dict_of_follow? hne hq
      rw [follow?_dict hne] at hp hq
      exact ⟨k, p', q', hu, hv, ih.2 ⟨path, Nat.succ.inj hlength, ⟨p, hp⟩, q, hq⟩⟩

theorem Keeps.meet_iff (hs : s.WellFormed) (h : s.Keeps t) (hbase : base.In s.inUse) (hoverlay : overlay.In s.inUse) :
    t.Meet n base overlay ↔ s.Meet n base overlay := by
  cases n with
  | zero => exact Iff.rfl
  | succ n => simp only [meet_succ_iff, Keeps.bound? hs h hbase, Keeps.bound? hs h hoverlay]

theorem Keeps.dict_eq {p : Nat} (h : s.Keeps t) (hp : p < s.dicts.size) : t.dict p = s.dict p := (h.dicts p hp).2

theorem Keeps.meetAt_iff (hs : s.WellFormed) (h : s.Keeps t) {b : Option Value} (hb : ∀ x ∈ b, x.In s.inUse)
    (hv : v.In s.inUse) : t.MeetAt n b v ↔ s.MeetAt n b v := by
  refine exists₂_congr fun p q => and_congr_right fun hp => and_congr_right fun hq => ?_
  have hp : p < s.dicts.size := hb _ hp
  have hq : q < s.dicts.size := by rwa [hq] at hv
  rw [h.dict_eq hp, h.dict_eq hq]
  exact h.meet_iff hs (hs.dicts p hp).1 (hs.dicts q hq).1

theorem meet_iff_exists_mem (hoverlay : overlay.Distinct) :
    s.Meet (n + 1) base overlay ↔ ∃ e ∈ overlay, s.MeetAt n (base.find? e.1) e.2 := by
  constructor
  · rintro ⟨k, p, q, hp, hq, hmeet⟩
    obtain ⟨l, hmem, hsame⟩ := Entries.exists_of_find? hq
    exact ⟨(l, .dict q), hmem, p, q, (Entries.find?_congr base hsame).trans hp, rfl, hmeet⟩
  · rintro ⟨⟨k, v⟩, hmem, p, q, hp, rfl, hmeet⟩
    exact ⟨k, p, q, hp, hoverlay.find?_of_mem hmem, hmeet⟩

/-! ## Stores that go on -/

/-- Entries that a well-formed store may hold. -/
structure Admits (s : Store) (es : Entries) : Prop where
  within : es.In s.inUse
  distinct : es.Distinct

/-- The store goes on to a well-formed one that keeps all that there was, and holds more lists, mappings and sets at
most. -/
structure GoesOn (s t : Store) : Prop where
  keeps : s.Keeps t
  wellFormed : t.WellFormed
  records : s.SameRecords t

theorem WellFormed.goesOn (h : s.WellFormed) : s.GoesOn s := ⟨.refl s, h, .refl s⟩

theorem GoesOn.trans {u : Store} (h : s.GoesOn t) (k : t.GoesOn u) : s.GoesOn u :=
  ⟨h.keeps.trans k.keeps, k.wellFormed, h.records.trans k.records⟩

theorem Admits.mono (h : s.Admits base) (hst : s.Keeps t) : t.Admits base := ⟨hst.entries h.within, h.distinct⟩

theorem Admits.filter (h : s.Admits base) (p : Value × Value → Bool) : s.Admits (base.filter p) :=
  ⟨fun e he => h.within e (List.mem_filter.1 he).1, h.distinct.sublist (List.filter_sublist.map Prod.fst)⟩

theorem WellFormed.admits (h : s.WellFormed) {p : Nat} (hp : p < s.dicts.size) : s.Admits (s.dict p) :=
  ⟨(h.dicts p hp).1, (h.dicts p hp).2⟩

theorem WellFormed.goesOn_newDict (h : s.WellFormed) (hes : s.Admits base) :
    s.GoesOn { s with dicts := s.dicts.push base } :=
  ⟨.pushDict s base, h.pushDict hes.within hes.distinct, ⟨rfl, rfl, rfl⟩⟩

end Store

namespace Run

/-- Started in `w`, the computation nests too deep if `C` holds, and ends as `Q` says if not. -/
structure EndsUnless (C : Prop) (m : Run α) (w : World) (Q : α → World → Prop) : Prop where
  fails : C → m.outcome w = .error .tooDeep
  ends : ¬C → ∃ a w', m.run.run w = (.ok a, w') ∧ Q a w'

namespace EndsUnless

variable {C D : Prop} {m : Run α} {f : α → Run β} {Q : α → World → Prop} {P : β → World → Prop}

theorem step {a : α} (hm : m.run.run w = (.ok a, w')) (h : Q a w') : EndsUnless False m w Q :=
  ⟨False.elim, fun _ => ⟨a, w', hm, h⟩⟩

theorem bind (h : EndsUnless C m w Q) (k : ∀ a w', Q a w' → EndsUnless D (f a) w' P) :
    EndsUnless (C ∨ D) (m >>= f) w P := by
  by_cases hc : C
  · refine ⟨fun _ => ?_, fun hnot => absurd (.inl hc) hnot⟩
    have hfails := h.fails hc
    unfold outcome at hfails ⊢
    rw [run_bind]
    rcases hm : m.run.run w with ⟨e | a, w'⟩
    · rw [hm] at hfails
      cases hfails
      rfl
    · rw [hm] at hfails
      cases hfails
  · obtain ⟨a, w', hm, ha⟩ := h.ends hc
    have hbind : (m >>= f).run.run w = (f a).run.run w' := by rw [run_bind, hm]
    refine ⟨fun hcd => ?_, fun hnot => ?_⟩
    · rw [outcome, hbind]
      exact (k a w' ha).fails (hcd.resolve_left hc)
    · rw [hbind]
      exact (k a w' ha).ends fun hd => hnot (.inr hd)

theorem congr (h : EndsUnless C m w Q) (hcd : D ↔ C) : EndsUnless D m w Q :=
  ⟨fun hd => h.fails (hcd.1 hd), fun hnot => h.ends fun hc => hnot (hcd.2 hc)⟩

theorem mono (h : EndsUnless C m w Q) {Q' : α → World → Prop} (hQ : ∀ a w', Q a w' → Q' a w') : EndsUnless C m w Q' :=
  ⟨h.fails, fun hnot => by
    obtain ⟨a, w', hm, ha⟩ := h.ends hnot
    exact ⟨a, w', hm, hQ a w' ha⟩⟩

/-- A step that does not fail goes before. -/
theorem step_bind {a : α} (hm : m.run.run w = (.ok a, w')) (k : EndsUnless C (f a) w' P) : EndsUnless C (m >>= f) w P :=
  ((step (Q := fun b v => b = a ∧ v = w') hm ⟨rfl, rfl⟩).bind fun _ _ ⟨hb, hv⟩ => hb ▸ hv ▸ k).congr
    (false_or C).symm.to_iff

/-- A step that does not fail follows. -/
theorem bind_step (h : EndsUnless C m w Q) (k : ∀ a w', Q a w' → ∃ b u, (f a).run.run w' = (.ok b, u) ∧ P b u) :
    EndsUnless C (m >>= f) w P :=
  (h.bind fun a w' ha => by
    obtain ⟨b, u, hrun, hb⟩ := k a w' ha
    exact step hrun hb).congr (or_false C).symm.to_iff

theorem ensures (h : EndsUnless C m w Q) : m.Ensures w Q := by
  intro a w' hrun
  by_cases hc : C
  · have hfails := h.fails hc
    rw [outcome, hrun] at hfails
    cases hfails
  · obtain ⟨b, u, hm, hb⟩ := h.ends hc
    rw [hrun] at hm
    cases hm
    exact hb

end EndsUnless

/-! ## How entries are merged -/

/-- What a value becomes where it is laid over another one. -/
def laid (n : Nat) (b : Option Value) (v : Value) : Run Value :=
  match v, b with
  | .dict q, some (.dict p) => do newDict (← mergeEntries n (← dict p) (← dict q))
  | v, _ => pure v

/-- One value after the other is laid over what is bound to its key. -/
theorem mergeEntries_foldlM (n : Nat) (base overlay : Entries) : mergeEntries (n + 1) base overlay =
    overlay.foldlM (fun all e => all.insert e.1 <$> laid n (all.find? e.1) e.2) base := by
  rw [mergeEntries]
  congr 1
  funext all ⟨k, v⟩
  dsimp only
  unfold laid
  split
  · rename_i hfind
    simp only [hfind, map_eq_pure_bind, bind_assoc]
  · simp only [map_pure, pure_bind]

theorem mapM_congr_mem {f g : α → Run β} {xs : List α} (h : ∀ x ∈ xs, f x = g x) : xs.mapM f = xs.mapM g := by
  induction xs with
  | nil => rfl
  | cons x xs ih =>
    rw [List.mapM_cons, List.mapM_cons, h x List.mem_cons_self, ih fun y hy => h y (List.mem_cons_of_mem x hy)]

/-- Since the keys of an overlay are distinct, each of its values is laid over what is bound at the beginning. -/
theorem mergeEntries_succ (n : Nat) (base : Entries) (h : overlay.Distinct) : mergeEntries (n + 1) base overlay =
    base.merge <$> overlay.mapM fun e => Prod.mk e.1 <$> laid n (base.find? e.1) e.2 := by
  rw [mergeEntries_foldlM]
  induction overlay generalizing base with
  | nil => rfl
  | cons e rest ih =>
    obtain ⟨hfirst, hrest⟩ := List.pairwise_cons.1 h
    have hlater (v : Value) : (rest.mapM fun f => Prod.mk f.1 <$> laid n ((base.insert e.1 v).find? f.1) f.2) =
        rest.mapM fun f => Prod.mk f.1 <$> laid n (base.find? f.1) f.2 := mapM_congr_mem fun f hf => by
      rw [Entries.find?_insert_key, hfirst f.1 (List.mem_map_of_mem (f := Prod.fst) hf), if_neg Bool.false_ne_true]
    rw [List.foldlM_cons, List.mapM_cons]
    simp only [map_eq_pure_bind, bind_assoc, pure_bind]
    refine bind_congr fun v => (ih (base.insert e.1 v) hrest).trans ?_
    rw [hlater, map_eq_pure_bind]
    rfl

/-- What merging leaves: new entries, which are read alike from every later store. -/
structure Combines (n : Nat) (base overlay : Entries) (w : World) (merged : Entries) (w' : World) : Prop where
  goesOn : w.store.GoesOn w'.store
  admits : w'.store.Admits merged
  merges : ∀ t, w'.store.Keeps t → t.Merges n base overlay merged

/-- What laying a value over another one leaves. -/
structure Replaces (n : Nat) (b : Option Value) (v : Value) (w : World) (u : Value) (w' : World) : Prop where
  goesOn : w.store.GoesOn w'.store
  within : u.In w'.store.inUse
  lays : ∀ t, w'.store.Keeps t → t.Lays (t.Merges n) b v u

section

variable (hmerge : ∀ {w : World} {base overlay : Entries}, w.store.WellFormed → w.store.Admits base →
  w.store.Admits overlay → EndsUnless (w.store.Meet n base overlay) (mergeEntries n base overlay) w
    (Combines n base overlay w))

include hmerge

theorem laid_ends (hw : w.store.WellFormed) {b : Option Value} {v : Value} (hb : ∀ x ∈ b, x.In w.store.inUse)
    (hv : v.In w.store.inUse) : EndsUnless (w.store.MeetAt n b v) (laid n b v) w (Replaces n b v w) := by
  unfold laid
  split
  case h_1 q p =>
    have hp : p < w.store.dicts.size := hb _ rfl
    have hq : q < w.store.dicts.size := hv
    refine .step_bind (dict_run p w) (.step_bind (dict_run q w) ?_)
    refine ((hmerge hw (hw.admits hp) (hw.admits hq)).bind_step fun merged w' h =>
      ⟨_, _, newDict_run merged w', ?_⟩).congr ?_
    · have hpush := h.goesOn.wellFormed.goesOn_newDict h.admits
      refine ⟨h.goesOn.trans hpush, by simp [Store.inUse], fun t ht => ⟨_, rfl, ?_⟩⟩
      rw [((h.goesOn.trans hpush).keeps.trans ht).dict_eq hp,
        ((h.goesOn.trans hpush).keeps.trans ht).dict_eq hq, ht.dict_eq (by simp)]
      rw [Store.dict_push, if_pos rfl]
      exact h.merges t (hpush.keeps.trans ht)
    · refine ⟨?_, fun h => ⟨p, q, rfl, rfl, h⟩⟩
      rintro ⟨_, _, ⟨⟩, ⟨⟩, h⟩
      exact h
  case h_2 hother =>
    have hlays (t : Store) : t.Lays (t.Merges n) b v v := by
      unfold Store.Lays
      split
      · exact (hother _ _ rfl rfl).elim
      · rfl
    refine (EndsUnless.step rfl ⟨hw.goesOn, hv, fun t _ => hlays t⟩).congr ?_
    refine iff_false_intro ?_
    rintro ⟨p, q, hb, hv, -⟩
    exact hother q p hv hb

theorem mapM_laid_ends (hw : w.store.WellFormed) {es : Entries} (hes : es.In w.store.inUse)
    (hbase : base.In w.store.inUse) :
    EndsUnless (∃ e ∈ es, w.store.MeetAt n (base.find? e.1) e.2)
      (es.mapM fun e => Prod.mk e.1 <$> laid n (base.find? e.1) e.2) w fun pairs w' =>
        w.store.GoesOn w'.store ∧ Entries.In w'.store.inUse pairs ∧ ∀ t, w'.store.Keeps t →
          List.Forall₂ (fun e f => f.1 = e.1 ∧ t.Lays (t.Merges n) (base.find? e.1) e.2 f.2) es pairs := by
  induction es generalizing w with
  | nil =>
    refine (EndsUnless.step rfl ⟨hw.goesOn, Entries.in_nil, fun _ _ => .nil⟩).congr ?_
    simp
  | cons e rest ih =>
    obtain ⟨hfirst, hrest⟩ := List.forall_mem_cons.1 hes
    rw [List.mapM_cons]
    refine (EndsUnless.bind (Q := fun f w' => f.1 = e.1 ∧ Replaces n (base.find? e.1) e.2 w f.2 w')
      (C := w.store.MeetAt n (base.find? e.1) e.2)
      (D := ∃ e ∈ rest, w.store.MeetAt n (base.find? e.1) e.2) ?_ fun f u hf => ?_).congr (by simp)
    · rw [map_eq_pure_bind]
      exact (laid_ends hmerge hw (fun x hx => hbase.find? hx) hfirst.2).bind_step fun v u hv => ⟨_, _, rfl, rfl, hv⟩
    · obtain ⟨hkey, hgoes, hin, hlays⟩ := hf
      have hlater := ih hgoes.wellFormed (hgoes.keeps.entries hrest) (hgoes.keeps.entries hbase)
      refine (hlater.bind_step fun pairs u' hpairs => ⟨f :: pairs, u', rfl, ?_⟩).congr ?_
      · obtain ⟨hgoes', hins, hall⟩ := hpairs
        refine ⟨hgoes.trans hgoes', List.forall_mem_cons.2 ⟨?_, hins⟩, fun t ht => .cons ?_ (hall t ht)⟩
        · rw [hkey]
          exact ⟨(hgoes.trans hgoes').keeps.value hfirst.1, hgoes'.keeps.value hin⟩
        · exact ⟨hkey, hlays t (hgoes'.keeps.trans ht)⟩
      · refine exists_congr fun e => and_congr_right fun he => ?_
        exact (Store.Keeps.meetAt_iff hw hgoes.keeps (fun x hx => hbase.find? hx) (hrest e he).2).symm

end

theorem combines_of_pairs {pairs : Entries} (hbase : w.store.Admits base) (hoverlay : w.store.Admits overlay)
    (hgoes : w.store.GoesOn w'.store) (hin : Entries.In w'.store.inUse pairs)
    (h : ∀ t, w'.store.Keeps t →
      List.Forall₂ (fun e f => f.1 = e.1 ∧ t.Lays (t.Merges n) (base.find? e.1) e.2 f.2) overlay pairs) :
    Combines (n + 1) base overlay w (base.merge pairs) w' := by
  have hfind (t : Store) (ht : w'.store.Keeps t) (k v : Value) :=
    Entries.find?_of_forall₂ (R := fun l v u => t.Lays (t.Merges n) (base.find? l) v u) (k := k) (v := v) (h t ht)
  have hkeys : pairs.keys = overlay.keys := (hfind w'.store (.refl _) .none .none).1
  have hpairs : pairs.Distinct := by
    rw [Entries.Distinct, hkeys]
    exact hoverlay.distinct
  refine ⟨hgoes, ⟨(hgoes.keeps.entries hbase.within).merge hin, hbase.distinct.merge pairs⟩, fun t ht => ⟨?_, ?_, ?_⟩⟩
  · rw [Entries.keys_merge hpairs, hkeys]
  · intro k hk
    rw [Entries.find?_merge_key hpairs, (hfind t ht k .none).2.1 hk, Option.none_or]
  · intro k v hv
    obtain ⟨l, u, hsame, hu, hlays⟩ := (hfind t ht k v).2.2 hv
    refine ⟨u, ?_, Entries.find?_congr base hsame ▸ hlays⟩
    rw [Entries.find?_merge_key hpairs, hu, Option.some_or]

/-- Entries are merged unless mappings nest `n` deep under the same keys on both sides. -/
theorem mergeEntries_ends (n : Nat) (hw : w.store.WellFormed) (hbase : w.store.Admits base)
    (hoverlay : w.store.Admits overlay) :
    EndsUnless (w.store.Meet n base overlay) (mergeEntries n base overlay) w (Combines n base overlay w) := by
  induction n generalizing w base overlay with
  | zero => exact ⟨fun _ => rfl, fun h => absurd trivial h⟩
  | succ n ih =>
    rw [mergeEntries_succ n base hoverlay.distinct, map_eq_pure_bind]
    refine ((mapM_laid_ends ih hw hoverlay.within hbase.within).bind_step fun pairs w' h =>
      ⟨_, _, rfl, combines_of_pairs hbase hoverlay h.1 h.2.1 h.2.2⟩).congr ?_
    exact Store.meet_iff_exists_mem hoverlay.distinct

/-! ## Mappings that are merged -/

theorem dict_keeps (p : Nat) : (dict p).Keeps := fun w => .refl w.store

theorem mergeEntries_keeps (n : Nat) (base overlay : Entries) : (mergeEntries n base overlay).Keeps := by
  induction n generalizing base overlay with
  | zero => exact .throw
  | succ n ih =>
    rw [mergeEntries_foldlM]
    refine .foldlM (fun all e => .map ?_) overlay base
    unfold laid
    split
    · exact (dict_keeps _).bind fun _ => (dict_keeps _).bind fun _ => (ih _ _).bind newDict_keeps
    · exact .pure _

/-- Whether it fails or not, merging leaves both mappings as they are at any depth, and all else. -/
theorem mergeDeep_keeps (base overlay : Nat) : (mergeDeep base overlay).Keeps :=
  (dict_keeps base).bind fun _ => (dict_keeps overlay).bind fun _ => (mergeEntries_keeps _ _ _).bind newDict_keeps

/-- A new mapping that holds what two others are merged to. -/
structure CombinesDeep (base overlay : Nat) (w : World) (m : Nat) (w' : World) : Prop where
  goesOn : w.store.GoesOn w'.store
  inUse : m < w'.store.dicts.size
  merges : ∀ t, w'.store.Keeps t → t.Merges depthLimit (w.store.dict base) (w.store.dict overlay) (w'.store.dict m)

theorem mergeDeep_ends (hw : w.store.WellFormed) {base overlay : Nat} (hbase : base < w.store.dicts.size)
    (hoverlay : overlay < w.store.dicts.size) :
    EndsUnless (w.store.Meet depthLimit (w.store.dict base) (w.store.dict overlay)) (mergeDeep base overlay) w
      fun merged w' => ∃ m, merged = .dict m ∧ CombinesDeep base overlay w m w' := by
  refine .step_bind (dict_run base w) (.step_bind (dict_run overlay w) ?_)
  refine (mergeEntries_ends depthLimit hw (hw.admits hbase) (hw.admits hoverlay)).bind_step fun merged w' h => ?_
  have hpush := h.goesOn.wellFormed.goesOn_newDict h.admits
  refine ⟨_, _, newDict_run merged w', _, rfl, h.goesOn.trans hpush, by simp, fun t ht => ?_⟩
  rw [Store.dict_push, if_pos rfl]
  exact h.merges t (hpush.keeps.trans ht)

end Run

/-- A path of `n` keys leads to a mapping in each of the layers. -/
def Layer.Nest (n : Nat) (layers : List Layer) : Prop :=
  ∃ path, path.length = n ∧ ∀ layer ∈ layers, ∃ p, layer path = some (.dict p)

theorem Store.meet_depthLimit_iff :
    s.Meet depthLimit base overlay ↔ Layer.Nest depthLimit [s.bound? base, s.bound? overlay] := by
  refine (meet_succ_iff (n := 999)).trans (exists_congr fun path => and_congr_right fun _ => ?_)
  simp

namespace Run

/-- Merging the same mapping once more leaves what is alike, unless the mapping nests too deep. -/
theorem CombinesDeep.again {base overlay m : Nat} (h : CombinesDeep base overlay w m w')
    (hw : w.store.WellFormed) (hoverlay : overlay < w.store.dicts.size) :
    EndsUnless (Layer.Nest depthLimit [w.store.bound? (w.store.dict overlay)]) (mergeDeep m overlay) w'
      fun again w'' => ∃ a, again = .dict a ∧ w''.store.Alike (w''.store.dict m) (w''.store.dict a) := by
  have hoverlay' : overlay < w'.store.dicts.size := Nat.lt_of_lt_of_le hoverlay h.goesOn.keeps.dicts_le
  have hdict : w'.store.dict overlay = w.store.dict overlay := h.goesOn.keeps.dict_eq hoverlay
  have hbound (path : List Value) := Store.Keeps.bound? hw h.goesOn.keeps (hw.dicts overlay hoverlay).1 path
  have hends := mergeDeep_ends h.goesOn.wellFormed h.inUse hoverlay'
  refine (hends.mono fun again w'' ⟨a, ha, hagain⟩ => ⟨a, ha, ?_⟩).congr ?_
  · rw [Store.meet_depthLimit_iff, hdict]
    refine exists_congr fun path => and_congr_right fun _ => ?_
    have hoverlaid := (h.merges w'.store (.refl _)).overlaid path
    simp only [List.forall_mem_cons, List.not_mem_nil, false_imp_iff, implies_true, and_true, hbound]
    refine ⟨fun ⟨q, hq⟩ => ⟨?_, q, hq⟩, And.right⟩
    exact hoverlaid.1.mapping q ((hbound path).trans hq)
  · have hdecides := (h.merges w''.store hagain.goesOn.keeps).overlaid
    rw [hagain.goesOn.keeps.dict_eq h.inUse]
    refine (hagain.merges w''.store (.refl _)).alike fun path => ?_
    exact hdict ▸ (hdecides path).1

/-! ## Layers that are loaded -/

theorem newList_goesOn (hw : w.store.WellFormed) {vs : List Value} (hvs : ∀ v ∈ vs, v.In w.store.inUse) :
    (newList vs).Ensures w fun v w' => w.store.GoesOn w'.store ∧ v.In w'.store.inUse :=
  .step rfl ⟨⟨.pushList w.store vs, hw.pushList hvs, ⟨rfl, rfl, rfl⟩⟩, by simp [Store.inUse]⟩

theorem newDict_goesOn (hw : w.store.WellFormed) {es : Entries} (hes : w.store.Admits es) :
    (newDict es).Ensures w fun v w' => w.store.GoesOn w'.store ∧ ∃ p < w'.store.dicts.size, v = .dict p ∧
      w'.store.dict p = es :=
  .step (newDict_run es w) ⟨hw.goesOn_newDict hes, _, by simp, rfl, (w.store.dict_push es _).trans (if_pos rfl)⟩

theorem newRecord_goesOn (hw : w.store.WellFormed) {fields : List (String × Value)}
    (hfields : FieldsIn w.store.inUse fields) : (newRecord fields).Ensures w fun v w' => w.store.GoesOn w'.store ∧
      ∃ p < w'.store.dicts.size, v = .dict p := by
  refine (newDict_goesOn hw ⟨Entries.in_nil.merge hfields.entries, Entries.distinct_nil.merge _⟩).mono ?_
  exact fun v w' ⟨hgoes, p, hp, hv, _⟩ => ⟨hgoes, p, hp, hv⟩

/-- The entries of a configuration where nothing is given. -/
def defaults : Run Entries := do
  match ← configRecord {} with
  | .dict p => dict p
  | _ => wrongType

theorem configRecord_goesOn (hw : w.store.WellFormed) : (configRecord {}).Ensures w fun v w' =>
    w.store.GoesOn w'.store ∧ ∃ p < w'.store.dicts.size, v = .dict p := by
  refine (newList_goesOn hw (by simp)).bind fun exclude w₁ ⟨h₁, hexclude⟩ => .step_bind (u := w₁) rfl ?_
  refine (newRecord_goesOn h₁.wellFormed fun _ h => absurd h List.not_mem_nil).bind fun data w₂ ⟨h₂, hdata⟩ =>
    .step_bind (u := w₂) rfl ?_
  obtain ⟨p, hp, rfl⟩ := hdata
  refine (newList_goesOn h₂.wellFormed fun _ h => absurd h List.not_mem_nil).bind fun rename w₃ ⟨h₃, hrename⟩ => ?_
  refine (newRecord_goesOn h₃.wellFormed ?_).mono fun v w' ⟨hgoes, hv⟩ => ⟨h₁.trans (h₂.trans (h₃.trans hgoes)), hv⟩
  have hexclude : exclude.In w₃.store.inUse := (h₂.trans h₃).keeps.value hexclude
  have hdata : (Value.dict p).In w₃.store.inUse := h₃.keeps.value hp
  simp [FieldsIn, hexclude, hdata, hrename]

theorem defaults_goesOn (hw : w.store.WellFormed) :
    defaults.Ensures w fun es w' => w.store.GoesOn w'.store ∧ w'.store.Admits es := by
  refine (configRecord_goesOn hw).bind ?_
  rintro _ w' ⟨hgoes, p, hp, rfl⟩
  exact .step (dict_run p w') ⟨hgoes, hgoes.wellFormed.admits hp⟩

/-- What a computation leads to by way of a handler that only passes faults on. -/
theorem Ensures.tryCatch {m : Run α} {handle : Fault → Run α} {Q : α → World → Prop} (h : m.Ensures w Q)
    (hhandle : ∀ f u, (handle f).Ensures u Q) : (MonadExcept.tryCatch m handle).Ensures w Q := by
  intro a w' hrun
  rw [run_tryCatch] at hrun
  rcases hm : m.run.run w with ⟨f | b, u⟩
  · rw [hm] at hrun
    exact hhandle f u a w' hrun
  · rw [hm] at hrun
    cases hrun
    exact h a w' hm

theorem loadLayer_goesOn (d : Disk) (p : Place) (isOptional : Bool) (hw : w.store.WellFormed) :
    (loadLayer d p isOptional).Ensures w fun es w' => w.store.GoesOn w'.store ∧ w'.store.Admits es := by
  have hnothing {w' : World} (h : w.store.GoesOn w'.store) :
      (pure [] : Run Entries).Ensures w' fun es w' => w.store.GoesOn w'.store ∧ w'.store.Admits es :=
    .pure ⟨h, Entries.in_nil, Entries.distinct_nil⟩
  unfold loadLayer
  cases d.read p with
  | error f =>
    cases f <;> cases isOptional <;> first | exact hnothing hw.goesOn | exact .throw
  | ok content =>
    refine (read_ensures _ w).bind ?_
    rintro text w ⟨rfl, -⟩
    refine ((Yaml.load_wellFormed text hw).tryCatch fun f u => ?_).bind ?_
    · cases f <;> exact .throw
    · rintro v w' ⟨hw', hkeeps, hrecords, hv⟩
      have hgoes : w.store.GoesOn w'.store := ⟨hkeeps, hw', hrecords⟩
      cases v
      case none => exact hnothing hgoes
      case dict q => exact .step_bind (u := { w' with notes := _ }) rfl (.step (dict_run q _) ⟨hgoes, hw'.admits hv⟩)
      all_goals exact .throw

/-! ## The layers of a configuration -/

/-- The values on the spot that are something. -/
def given (overrides : Entries) : Entries := overrides.filter fun (_, v) => match v with
  | .none => false
  | _ => true

/-- The layers of a configuration, merged to one mapping. -/
def layered (d : Disk) (project home : Place) (overrides : Entries) : Run Value := do
  newDict (← mergeEntries depthLimit (← loadLayers d project home) (given overrides))

/-- The configuration that a mapping describes. -/
def configFrom (v : Value) : Run BuildConfig := do
  match ← configOf? v with
  | .ok c => return c
  | .error issues => throw (.config (.invalid issues.length) none)

theorem loadConfig_eq (d : Disk) (project home : Place) (overrides : Entries) :
    loadConfig d project home overrides = layered d project home overrides >>= configFrom := by
  unfold loadConfig layered
  simp only [bind_assoc]
  rfl

theorem loadLayers_eq (d : Disk) (project home : Place) : loadLayers d project home = (do
    let merged ← mergeEntries depthLimit (← defaults) (← loadLayer d (home ++ configSteps) true)
    mergeEntries depthLimit merged (← loadLayer d (project ++ configSteps) true)) := by
  unfold loadLayers defaults
  rw [bind_assoc]
  refine bind_congr fun v => ?_
  cases v
  case dict p => simp only [List.foldlM_cons, List.foldlM_nil, bind_assoc, bind_pure]
  all_goals rfl

/-- Between two worlds, the computation gave the layer. -/
def Gives (m : Run Entries) (w w' : World) (layer : Layer) : Prop :=
  ∃ u es u', w.store.Keeps u.store ∧ m.run.run u = (.ok es, u') ∧ u'.store.Keeps w'.store ∧ layer = u'.store.bound? es

theorem Gives.mono {m : Run Entries} {layer : Layer} {v v' : World} (h : Gives m w w' layer)
    (hbefore : v.store.Keeps w.store) (hafter : w'.store.Keeps v'.store) : Gives m v v' layer := by
  obtain ⟨u, es, u', hu, hrun, hu', rfl⟩ := h
  exact ⟨u, es, u', hbefore.trans hu, hrun, hu'.trans hafter, rfl⟩

/-- Entries that the layers decide. -/
structure DecidedBy (layers : List Layer) (w : World) (es : Entries) (w' : World) : Prop where
  goesOn : w.store.GoesOn w'.store
  admits : w'.store.Admits es
  decided : ∀ t, w'.store.Keeps t → ∀ path, Layer.Decided layers path (t.bound? es path)

theorem decidedBy_of_gives {m : Run Entries}
    (hm : m.Ensures w fun es w' => w.store.GoesOn w'.store ∧ w'.store.Admits es) :
    m.Ensures w fun es w' => ∃ layer, Gives m w w' layer ∧ DecidedBy [layer] w es w' := by
  intro es w' hrun
  obtain ⟨hgoes, hes⟩ := hm es w' hrun
  refine ⟨_, ⟨w, es, w', .refl _, hrun, .refl _, rfl⟩, hgoes, hes, fun t ht path => ?_⟩
  rw [Store.Keeps.bound? hgoes.wellFormed ht hes.within]
  exact Layer.decided_single w'.store es path

/-- One more layer is loaded and goes over the others. -/
theorem DecidedBy.under {layers : List Layer} {v : World} (h : DecidedBy layers v base w) {m : Run Entries}
    (hm : m.Ensures w fun es w' => w.store.GoesOn w'.store ∧ w'.store.Admits es) :
    (do mergeEntries depthLimit base (← m)).Ensures w fun es w' =>
      ∃ layer, Gives m w w' layer ∧ w.store.Keeps w'.store ∧ DecidedBy (layer :: layers) v es w' := by
  refine Ensures.bind (Q := fun es w' => m.run.run w = (.ok es, w') ∧ w.store.GoesOn w'.store ∧ w'.store.Admits es)
    (fun es w' hrun => ⟨hrun, hm es w' hrun⟩) fun es u ⟨hrun, hu, hes⟩ => ?_
  have hmerge := (mergeEntries_ends depthLimit hu.wellFormed (h.admits.mono hu.keeps) hes).ensures
  refine hmerge.mono fun merged w' ⟨hgoes, hmerged, hmerges⟩ => ?_
  refine ⟨_, ⟨w, es, u, .refl _, hrun, hgoes.keeps, rfl⟩, (hu.trans hgoes).keeps, h.goesOn.trans (hu.trans hgoes),
    hmerged,
    fun t ht path => ?_⟩
  have hlayer : t.bound? es = u.store.bound? es :=
    funext (Store.Keeps.bound? hu.wellFormed (hgoes.keeps.trans ht) hes.within)
  have hoverlaid := (hmerges t ht).overlaid
  rw [hlayer] at hoverlaid
  exact hoverlaid.decided (h.decided t ((hu.trans hgoes).keeps.trans ht) path)

/-- The file of the project goes over the file of the user, and that over the defaults. -/
theorem loadLayers_decided (d : Disk) (project home : Place) (hw : w.store.WellFormed) :
    (loadLayers d project home).Ensures w fun es w' => ∃ own user base, Gives defaults w w' base ∧
      Gives (loadLayer d (home ++ configSteps) true) w w' user ∧
      Gives (loadLayer d (project ++ configSteps) true) w w' own ∧ DecidedBy [own, user, base] w es w' := by
  have hstages : loadLayers d project home = (do
      let merged ← defaults
      let merged ← (do mergeEntries depthLimit merged (← loadLayer d (home ++ configSteps) true))
      mergeEntries depthLimit merged (← loadLayer d (project ++ configSteps) true)) := by
    simp only [loadLayers_eq, bind_assoc]
  rw [hstages]
  refine (decidedBy_of_gives (defaults_goesOn hw)).bind fun es₀ w₀ ⟨base, hbase, h₀⟩ => ?_
  refine (h₀.under (loadLayer_goesOn d _ true h₀.goesOn.wellFormed)).bind fun es₁ w₁ ⟨user, huser, h₀₁, h₁⟩ => ?_
  refine (h₁.under (loadLayer_goesOn d _ true h₁.goesOn.wellFormed)).mono fun es₂ w₂ ⟨own, hown, h₁₂, h₂⟩ => ?_
  exact ⟨own, user, base, hbase.mono (.refl _) (h₀₁.trans h₁₂), huser.mono h₀.goesOn.keeps h₁₂,
    hown.mono h₁.goesOn.keeps (.refl _), h₂⟩

/-- Of the layers of a configuration, the highest one that is not silent decides. -/
theorem layered_decided (d : Disk) (project home : Place) (hw : w.store.WellFormed) {overrides : Entries}
    (hoverrides : w.store.Admits overrides) : (layered d project home overrides).Ensures w fun v w' =>
      ∃ m own user base, v = .dict m ∧ w.store.Keeps w'.store ∧ Gives defaults w w' base ∧
        Gives (loadLayer d (home ++ configSteps) true) w w' user ∧
        Gives (loadLayer d (project ++ configSteps) true) w w' own ∧
        ∀ path, Layer.Decided [w.store.bound? (given overrides), own, user, base] path
          (w'.store.bound? (w'.store.dict m) path) := by
  have hgiven : w.store.Admits (given overrides) := hoverrides.filter _
  have hstages : layered d project home overrides = (do
      let merged ← loadLayers d project home
      let merged ← (do mergeEntries depthLimit merged (← (pure (given overrides) : Run Entries)))
      newDict merged) := by
    simp only [layered, pure_bind]
  rw [hstages]
  refine (loadLayers_decided d project home hw).bind fun es₁ w₁ ⟨own, user, base, hbase, huser, hown, h₁⟩ => ?_
  have hpure : (pure (given overrides) : Run Entries).Ensures w₁
      fun es w' => w₁.store.GoesOn w'.store ∧ w'.store.Admits es :=
    .pure ⟨h₁.goesOn.wellFormed.goesOn, hgiven.mono h₁.goesOn.keeps⟩
  refine (h₁.under hpure).bind fun es₂ w₂ ⟨top, ⟨u, es, u', hu, hrun, _, htop⟩, h₁₂, h₂⟩ => ?_
  cases hrun
  obtain rfl : top = w.store.bound? (given overrides) :=
    htop.trans (funext (Store.Keeps.bound? hw (h₁.goesOn.keeps.trans hu) hgiven.within))
  refine (newDict_goesOn h₂.goesOn.wellFormed h₂.admits).mono ?_
  rintro _ w' ⟨h', m, -, rfl, hm⟩
  have hlater : w₁.store.Keeps w'.store := h₁₂.trans h'.keeps
  refine ⟨m, own, user, base, rfl, h₂.goesOn.keeps.trans h'.keeps, hbase.mono (.refl _) hlater,
    huser.mono (.refl _) hlater, hown.mono (.refl _) hlater, fun path => ?_⟩
  exact hm ▸ h₂.decided w'.store h'.keeps path

/-- What is merged binds every path as the overlay has it where that is not silent, and otherwise as the base has it;
to merge the same overlay once more changes nothing, and no mapping that was there is changed by either. Merging only
fails if mappings nest too deep on both sides. Of the layers of a configuration, the values on the spot are the highest
and the defaults the lowest, and the highest layer that is not silent decides; what is merged so is the configuration
that is read. -/
theorem layers_decide (hw : w.store.WellFormed) :
    (∀ base < w.store.dicts.size, ∀ overlay < w.store.dicts.size,
      EndsUnless (Layer.Nest depthLimit [w.store.bound? (w.store.dict base), w.store.bound? (w.store.dict overlay)])
        (mergeDeep base overlay) w fun merged w' => ∃ m, merged = .dict m ∧
          (w.store.bound? (w.store.dict base)).Overlaid (w.store.bound? (w.store.dict overlay))
            (w'.store.bound? (w'.store.dict m)) ∧
          EndsUnless (Layer.Nest depthLimit [w.store.bound? (w.store.dict overlay)]) (mergeDeep m overlay) w'
            fun again w'' => ∃ a, again = .dict a ∧ w''.store.Alike (w''.store.dict m) (w''.store.dict a)) ∧
    (∀ base overlay, (mergeDeep base overlay).Keeps) ∧
    ∀ (d : Disk) (project home : Place) (overrides : Entries), w.store.Admits overrides →
      loadConfig d project home overrides = layered d project home overrides >>= configFrom ∧
      (layered d project home overrides).Ensures w fun v w' => ∃ m own user base, v = .dict m ∧
        w.store.Keeps w'.store ∧ Gives defaults w w' base ∧
        Gives (loadLayer d (home ++ configSteps) true) w w' user ∧
        Gives (loadLayer d (project ++ configSteps) true) w w' own ∧
        ∀ path, Layer.Decided [w.store.bound? (given overrides), own, user, base] path
          (w'.store.bound? (w'.store.dict m) path) := by
  refine ⟨fun base hbase overlay hoverlay => ?_, mergeDeep_keeps, fun d project home overrides h =>
    ⟨loadConfig_eq d project home overrides, layered_decided d project home hw h⟩⟩
  refine ((mergeDeep_ends hw hbase hoverlay).mono ?_).congr Store.meet_depthLimit_iff.symm
  rintro merged w' ⟨m, rfl, h⟩
  refine ⟨m, rfl, ?_, h.again hw hoverlay⟩
  have hoverlaid := (h.merges w'.store (.refl _)).overlaid
  rwa [funext (Store.Keeps.bound? hw h.goesOn.keeps (hw.dicts base hbase).1),
    funext (Store.Keeps.bound? hw h.goesOn.keeps (hw.dicts overlay hoverlay).1)] at hoverlaid

/-- Two mappings with a mapping each under one key. -/
def nestedWorld : World where
  store := { dicts := #[[(.text "a", .dict 1)], [(.text "b", .int 1)], [(.text "a", .dict 3)], [(.text "c", .int 2)]] }

theorem nestedWorld_wellFormed : nestedWorld.store.WellFormed where
  lists p hp := absurd hp (Nat.not_lt_zero p)
  dicts p hp := by
    have hp : p < 4 := hp
    interval_cases p <;>
      exact ⟨List.forall_mem_singleton.2 ⟨trivial, by simp [nestedWorld, Store.inUse]⟩, List.pairwise_singleton _ _⟩
  sets p hp := absurd hp (Nat.not_lt_zero p)
  cursors p hp := absurd hp (Nat.not_lt_zero p)
  legends p hp := absurd hp (Nat.not_lt_zero p)
  metadata p hp := absurd hp (Nat.not_lt_zero p)

/-- No mappings nest deeper in it. -/
theorem nestedWorld_shallow {p : Nat} {rest : List Value} (k l : Value) :
    nestedWorld.store.bound? (nestedWorld.store.dict 0) (k :: l :: rest) ≠ some (.dict p) := by
  intro h
  obtain ⟨u, hu, h⟩ := Option.bind_eq_some_iff.1 h
  obtain rfl : Value.dict 1 = u := by
    rw [show nestedWorld.store.dict 0 = [(.text "a", .dict 1)] from rfl, Entries.find?_cons] at hu
    split at hu <;> cases hu
    rfl
  obtain ⟨v, hv, h⟩ := Option.bind_eq_some_iff.1 h
  obtain rfl : Value.int 1 = v := by
    rw [show nestedWorld.store.dict 1 = [(.text "b", .int 1)] from rfl, Entries.find?_cons] at hv
    split at hv <;> cases hv
    rfl
  cases rest <;> cases h

theorem layers_decide_nested : nestedWorld.store.WellFormed ∧ nestedWorld.store.Admits [] ∧
    (∃ m w', (mergeDeep 0 2).run.run nestedWorld = (.ok (.dict m), w') ∧
      w'.store.bound? (w'.store.dict m) [.text "a", .text "b"] = some (.int 1) ∧
      w'.store.bound? (w'.store.dict m) [.text "a", .text "c"] = some (.int 2)) ∧
    (layered ⟨[]⟩ [] [] []).Ensures nestedWorld fun v _ => ∃ m, v = .dict m := by
  have hlayers := layers_decide nestedWorld_wellFormed
  have hnothing : nestedWorld.store.Admits [] := ⟨Entries.in_nil, Entries.distinct_nil⟩
  refine ⟨nestedWorld_wellFormed, hnothing, ?_, ?_⟩
  · obtain ⟨merged, w', hrun, m, rfl, hoverlaid, -⟩ := (hlayers.1 0 (by decide) 2 (by decide)).ends (by
      rintro ⟨_ | ⟨k, _ | ⟨l, rest⟩⟩, hlength, hall⟩
      · cases hlength
      · cases hlength
      · obtain ⟨p, hp⟩ := hall _ List.mem_cons_self
        exact nestedWorld_shallow k l hp)
    refine ⟨m, w', hrun, ?_, ?_⟩
    · refine (hoverlaid [.text "a", .text "b"]).2 ⟨rfl, fun hhides => ?_⟩
      obtain ⟨v, hv, hhides⟩ := Store.hides_cons_iff.1 hhides
      cases hv
      obtain ⟨v, hv, -⟩ := Store.hides_cons_iff.1 ((Store.hides_dict_iff 3).1 hhides)
      cases hv
    · exact (hoverlaid [.text "a", .text "c"]).1.value _ rfl rfl
  · refine (hlayers.2.2 ⟨[]⟩ [] [] [] hnothing).2.mono ?_
    rintro _ _ ⟨m, _, _, _, rfl, _⟩
    exact ⟨m, rfl⟩

end Run

end NestedSite
