import NestedSite.Value.Equality

/-!
# Sameness is an equivalence

A value is identical to itself, and identical values are identical to the same values (`Value.identical_congr`). The
same holds of values that mean one key (`Value.sameKey_refl`, `Value.sameKey_congr`), so that both relations are
equivalences. A number means the same key as the numbers of its exact value, whatever their type
(`Value.sameKey_of_quantity`).
-/

namespace NestedSite

open Number

/-- Numbers are equal if they have one exact value. -/
theorem Numeric.equal_iff {m n : Numeric} :
    m.equal n = true ↔ ∃ v, m.quantity? = some v ∧ n.quantity? = some v := by
  unfold equal
  split
  · rename_i a b
    rw [beq_iff_eq]
    constructor
    · exact fun h => ⟨_, rfl, by rw [h, quantity?]⟩
    · rintro ⟨_, ha, hb⟩
      have hpair := Option.some.inj (ha.trans hb.symm)
      exact Rat.intCast_inj.1 (Quantity.finite.inj (Prod.mk.inj hpair).1)
  · split
    · rename_i u v hu hv
      rw [hu, hv, beq_iff_eq]
      constructor
      · exact fun h => ⟨v, congrArg some h, rfl⟩
      · rintro ⟨_, ⟨⟩, ⟨⟩⟩
        rfl
    · rename_i hnot
      refine iff_of_false Bool.false_ne_true ?_
      rintro ⟨v, hu, hv⟩
      exact hnot v v hu hv

namespace Value

/-! ## Identical values -/

mutual

theorem identical_refl : ∀ v : Value, identical v v = true
  | tuple vs => identicalAll_refl vs
  | slice a b c => by simp only [identical, identical_refl a, identical_refl b, identical_refl c, Bool.and_self]
  | method v _ => by simp [identical, identical_refl v]
  | none | bool _ | int _ | float _ | complex .. | text _ | bytes _ | date _ | moment _ | ellipsis | range ..
  | list _ | dict _ | set _ | cursor _ | view .. | legend _ | metadata _ | builtin _ | helper _ | foreignType _
  | typeMethod .. | classMethod .. | typeField .. => by simp [identical]

theorem identicalAll_refl : ∀ vs : List Value, identicalAll vs vs = true
  | [] => rfl
  | v :: vs => by simp only [identicalAll, identical_refl v, identicalAll_refl vs, Bool.and_self]

end

mutual

/-- Identical values are identical to the same values. -/
theorem identical_congr : ∀ {a b : Value}, identical a b = true → ∀ c, identical a c = identical b c := by
  intro a b h c
  cases a <;> cases b <;> simp only [identical, Bool.and_eq_true, beq_iff_eq, Bool.false_eq_true] at h
  case tuple.tuple xs ys => cases c <;> simp only [identical]; exact identicalAll_congr h _
  case slice.slice =>
    cases c <;> simp only [identical]
    rw [identical_congr h.1.1, identical_congr h.1.2, identical_congr h.2]
  case method.method =>
    cases c <;> simp only [identical]
    rw [identical_congr h.1, h.2]
  case float.float => cases c <;> simp only [identical, h]
  case complex.complex => cases c <;> simp only [identical, h]
  all_goals first
    | rfl
    | (subst h; rfl)
    | (obtain ⟨rfl, rfl⟩ := h; rfl)
    | (obtain ⟨⟨rfl, rfl⟩, rfl⟩ := h; rfl)

theorem identicalAll_congr : ∀ {xs ys : List Value}, identicalAll xs ys = true →
    ∀ zs, identicalAll xs zs = identicalAll ys zs
  | [], [], _, _ => rfl
  | x :: xs, y :: ys, h, zs => by
    obtain ⟨hx, hxs⟩ := Bool.and_eq_true_iff.1 h
    cases zs with
    | nil => rfl
    | cons z zs => rw [identicalAll, identicalAll, identical_congr hx, identicalAll_congr hxs]

end

/-! ## Values that mean one key -/

/-- Values that are neither sequences of keys nor ranges nor moments are one key if they are identical or one number. -/
theorem sameKey_plain {a b : Value} (htuple : ∀ vs, a ≠ tuple vs) (hrange : ∀ x y z, a ≠ range x y z)
    (hmoment : ∀ m, a ≠ moment m) :
    sameKey a b = (identical a b || match a.numeric?, b.numeric? with
      | some m, some n => m.equal n
      | _, _ => false) := by
  cases a
  case tuple vs => exact absurd rfl (htuple vs)
  case range x y z => exact absurd rfl (hrange x y z)
  case moment m => exact absurd rfl (hmoment m)
  all_goals rfl

/-- The exact value of a number. -/
def quantity? (v : Value) : Option (Quantity × Quantity) := v.numeric?.bind Numeric.quantity?

theorem numeric_iff {a b : Value} :
    (match a.numeric?, b.numeric? with
      | some m, some n => m.equal n
      | _, _ => false) = true ↔ ∃ v, a.quantity? = some v ∧ b.quantity? = some v := by
  unfold quantity?
  cases a.numeric? <;> cases b.numeric? <;> simp [Numeric.equal_iff]

theorem quantity?_of_identical {a b : Value} (h : identical a b = true) : a.quantity? = b.quantity? := by
  have hbits {x y : Float} (hxy : x.toBits = y.toBits) : Number.quantity? x = Number.quantity? y := by
    unfold Number.quantity? Binary.ofFloat
    rw [hxy]
  cases a <;> cases b <;> simp only [identical, Bool.and_eq_true, beq_iff_eq, Bool.false_eq_true] at h
  case float.float x y => simp only [quantity?, numeric?, Option.bind_some, Numeric.quantity?, hbits h]
  case complex.complex a b c d =>
    simp only [quantity?, numeric?, Option.bind_some, Numeric.quantity?, hbits h.1, hbits h.2]
  all_goals first
    | rfl
    | (subst h; rfl)

/-- A number means the same key as the numbers of its exact value. -/
theorem sameKey_of_quantity {a c : Value} {v : Quantity × Quantity} (h : a.quantity? = some v) :
    sameKey a c = true ↔ c.quantity? = some v := by
  have hplain : sameKey a c = true ↔ identical a c = true ∨ ∃ v, a.quantity? = some v ∧ c.quantity? = some v := by
    rw [sameKey_plain, Bool.or_eq_true, numeric_iff]
    all_goals
      intros
      rintro rfl
      cases h
  rw [hplain]
  constructor
  · rintro (hidentical | ⟨u, hu, hc⟩)
    · rw [← quantity?_of_identical hidentical, h]
    · rwa [← h, hu]
  · exact fun hc => .inr ⟨v, h, hc⟩

theorem sameRange_congr {a b : Int × Int × Int} (h : sameRange a b = true) (c : Int × Int × Int) :
    sameRange a c = sameRange b c := by
  simp only [sameRange, Bool.and_eq_true, Bool.or_eq_true, beq_iff_eq] at h
  unfold sameRange
  dsimp only
  obtain ⟨hlength, hitems⟩ := h
  rw [hlength] at hitems ⊢
  generalize rangeLength b.1 b.2.1 b.2.2 = n at hitems
  obtain hempty | ⟨hstart, hsingle | hstep⟩ := hitems
  · simp [hempty]
  · simp [hstart, hsingle]
  · simp [hstart, hstep]

theorem sameMoment_congr {a b : Moment} (h : sameMoment a b = true) (c : Moment) : sameMoment a c = sameMoment b c := by
  obtain ⟨hoffset, hinstant⟩ := Bool.and_eq_true_iff.1 h
  rw [sameMoment, sameMoment, beq_iff_eq.1 hoffset, beq_iff_eq.1 hinstant]

mutual

theorem sameKey_refl : ∀ v : Value, sameKey v v = true := by
  intro v
  cases v
  case tuple vs => exact sameKeys_refl vs
  case range => simp [sameKey, sameRange]
  case moment => simp [sameKey, sameMoment]
  all_goals
    rw [sameKey_plain (by nofun) (by nofun) (by nofun), identical_refl]
    rfl

theorem sameKeys_refl : ∀ vs : List Value, sameKeys vs vs = true
  | [] => rfl
  | v :: vs => by simp only [sameKeys, sameKey_refl v, sameKeys_refl vs, Bool.and_self]

end

/-- Identical values mean the same keys. -/
theorem sameKey_of_identical {a b : Value} (htuple : ∀ vs, a ≠ tuple vs) (hrange : ∀ x y z, a ≠ range x y z)
    (hmoment : ∀ m, a ≠ moment m) (h : identical a b = true) (c : Value) : sameKey a c = sameKey b c := by
  have hb : (∀ vs, b ≠ tuple vs) ∧ (∀ x y z, b ≠ range x y z) ∧ ∀ m, b ≠ moment m := by
    refine ⟨?_, ?_, ?_⟩ <;> intros <;> rintro rfl <;> cases a <;> simp_all [identical]
  refine Bool.eq_iff_iff.2 ?_
  rw [sameKey_plain htuple hrange hmoment, sameKey_plain hb.1 hb.2.1 hb.2.2, Bool.or_eq_true, Bool.or_eq_true,
    numeric_iff, numeric_iff, identical_congr h, quantity?_of_identical h]

mutual

/-- Values that mean one key mean the same keys. -/
theorem sameKey_congr : ∀ {a b : Value}, sameKey a b = true → ∀ c, sameKey a c = sameKey b c := by
  intro a b h c
  by_cases hquantity : ∃ v, a.quantity? = some v ∧ b.quantity? = some v
  · obtain ⟨v, ha, hb⟩ := hquantity
    exact Bool.eq_iff_iff.2 ((sameKey_of_quantity ha).trans (sameKey_of_quantity hb).symm)
  have plain (htuple : ∀ vs, a ≠ tuple vs) (hrange : ∀ x y z, a ≠ range x y z) (hmoment : ∀ m, a ≠ moment m) :
      sameKey a c = sameKey b c := by
    rw [sameKey_plain htuple hrange hmoment, Bool.or_eq_true, numeric_iff] at h
    exact sameKey_of_identical htuple hrange hmoment (h.resolve_right hquantity) c
  cases a
  case tuple xs =>
    cases b <;> try cases h
    case tuple ys => cases c <;> first | rfl | exact sameKeys_congr h _
  case range =>
    cases b <;> try cases h
    case range => cases c <;> first | rfl | exact sameRange_congr h _
  case moment =>
    cases b <;> try cases h
    case moment => cases c <;> first | rfl | exact sameMoment_congr h _
  all_goals exact plain (by nofun) (by nofun) (by nofun)

theorem sameKeys_congr : ∀ {xs ys : List Value}, sameKeys xs ys = true → ∀ zs, sameKeys xs zs = sameKeys ys zs
  | [], [], _, _ => rfl
  | x :: xs, y :: ys, h, zs => by
    obtain ⟨hx, hxs⟩ := Bool.and_eq_true_iff.1 h
    cases zs with
    | nil => rfl
    | cons z zs => rw [sameKeys, sameKeys, sameKey_congr hx, sameKeys_congr hxs]

end

theorem sameKey_comm (a b : Value) : sameKey a b = sameKey b a := by
  have symm {a b : Value} (h : sameKey a b = true) : sameKey b a = true := (sameKey_congr h a).symm.trans (sameKey_refl a)
  exact Bool.eq_iff_iff.2 ⟨symm, symm⟩

end Value

end NestedSite
