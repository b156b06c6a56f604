import NestedSite.Proofs.Method.Call

/-!
# How templates conduct themselves

`Conduct r t` relates the worlds before and after something that a template does. All new deeds are lawful
(`Deed.Lawful`): attributes are read of mappings only, or are among the names of the terms `t`; what is written as a
call calls nothing forbidden; what is called as a key was handed over to a call that takes one, be it before or in
the course of what is done; and nothing lacks a rule but the inversion. A mapping that is watched keeps its entries, up to its title, unless it is free to be
altered by the terms, or a deed alters it.

A call is conducted under the terms that it adds itself (`Terms.during`); seen from outside, its own deed accounts for
them (`Conduct.after`).
-/

namespace NestedSite

open Region (AllowsReads AllowsEdits)

/-- Templates must not call types other than the builtin ones, and methods whose receiver is a type. -/
def Value.isForbidden : Value → Bool
  | .classMethod .. | .foreignType _ => true
  | _ => false

/-! ## Entries up to the title -/

/-- The entries without the title. -/
def Entries.untitled (es : Entries) : Entries := es.erase (.text titleKey)

theorem Entries.erase_insert {k : Value} (hk : k.sameKey k = true) (v : Value) :
    ∀ es : Entries, (es.insert k v).erase k = es.erase k
  | [] => by simp [Entries.insert, Entries.erase, hk]
  | (k', v') :: rest => by
    unfold Entries.insert
    split
    · simp_all [Entries.erase]
    · have ih := Entries.erase_insert hk v rest
      simp_all [Entries.erase]

theorem Entries.untitled_insert (es : Entries) (v : Value) : (es.insert (.text titleKey) v).untitled = es.untitled :=
  Entries.erase_insert rfl v es

/-! ## Deeds -/

namespace Deed

/-- The deed may alter the mapping at a place. -/
def Alters : Deed → Nat → Prop
  | .read .., _ | .lack _, _ | .breakOff, _ => False
  | .call f vs _, p => NestedSite.Alters f vs p
  | .callKey f v, p => NestedSite.Alters f [v] p

/-- The deed hands over a function as a key. -/
def Hands : Deed → Value → Prop
  | .call f _ named, k => TakesKey f ∧ ("key", k) ∈ named
  | _, _ => False

end Deed

/-- What a template is free to do. -/
structure Terms where
  /-- The attributes that may be read of any value. -/
  names : String → Prop
  /-- The functions that were handed over as keys. -/
  keys : Value → Prop := fun _ => False
  /-- The mappings that may be altered. -/
  altered : Nat → Prop := fun _ => False

/-- The terms in the course of a deed. -/
def Terms.during (t : Terms) (d : Deed) : Terms where
  names := t.names
  keys k := t.keys k ∨ d.Hands k
  altered p := t.altered p ∨ d.Alters p

/-- A deed that is lawful among the deeds `new`. -/
def Deed.Lawful (r : Region) (t : Terms) (new : List Deed) : Deed → Prop
  | .read v name => v.isMapping = true ∨ t.names name
  | .call f _ _ => f.In r ∧ f.isForbidden = false
  | .callKey f _ => f.In r ∧ (t.keys f ∨ ∃ d ∈ new, d.Hands f)
  | .lack gap => gap = .unary .invert
  | .breakOff => True

theorem Deed.Lawful.mono {r : Region} {t t' : Terms} {new new' : List Deed} {d : Deed} (h : d.Lawful r t new)
    (hn : ∀ name, t.names name → t'.names name)
    (hk : ∀ k, (t.keys k ∨ ∃ e ∈ new, e.Hands k) → t'.keys k ∨ ∃ e ∈ new', e.Hands k) : d.Lawful r t' new' := by
  cases d with
  | read v name => exact h.imp_right (hn name)
  | call f vs named => exact h
  | callKey f v => exact ⟨h.1, hk f h.2⟩
  | lack gap => exact h
  | breakOff => trivial

/-! ## Conduct -/

/-- The new deeds are lawful, and mappings that are watched are altered by deeds only, up to their titles. -/
def Conduct (r : Region) (t : Terms) (w w' : World) : Prop :=
  ∃ new, w'.deeds = new ++ w.deeds ∧ (∀ d ∈ new, d.Lawful r t new) ∧
    ∀ p < r.floor, ¬t.altered p → (∀ d ∈ new, ¬d.Alters p) →
      (w'.store.dict p).untitled = (w.store.dict p).untitled

namespace Conduct

variable {r : Region} {t t' : Terms} {a b c w w' : World}

/-- Nothing is done that counts as a deed. -/
theorem quiet (hd : w'.deeds = w.deeds)
    (hp : ∀ p < r.floor, ¬t.altered p → (w'.store.dict p).untitled = (w.store.dict p).untitled) : Conduct r t w w' :=
  ⟨[], hd, fun _ h => absurd h List.not_mem_nil, fun p hlt ha _ => hp p hlt ha⟩

theorem trans (h : Conduct r t a b) (k : Conduct r t b c) : Conduct r t a c := by
  obtain ⟨first, hfirst, hlawful, hframe⟩ := h
  obtain ⟨second, hsecond, hlawful', hframe'⟩ := k
  refine ⟨second ++ first, by rw [hsecond, hfirst, List.append_assoc], fun d hd => ?_, fun p hlt ha hnot => ?_⟩
  · rcases List.mem_append.1 hd with hd | hd
    · exact (hlawful' d hd).mono (fun _ h => h) fun k hk =>
        hk.imp_right fun ⟨e, he, h⟩ => ⟨e, List.mem_append_left _ he, h⟩
    · exact (hlawful d hd).mono (fun _ h => h) fun k hk =>
        hk.imp_right fun ⟨e, he, h⟩ => ⟨e, List.mem_append_right _ he, h⟩
  · exact (hframe' p hlt ha fun d hd => hnot d (List.mem_append_left _ hd)).trans
      (hframe p hlt ha fun d hd => hnot d (List.mem_append_right _ hd))

instance : AllowsEdits r (Conduct r t) where
  refl _ := quiet rfl fun _ _ _ => rfl
  trans := trans
  reads hw h := quiet h.deeds fun p hlt _ => by rw [h.dicts p (Nat.lt_of_lt_of_le hlt hw.floor)]
  edits _ h := quiet h.deeds fun p hlt _ => by rw [h.dicts p hlt]

theorem mono (hn : ∀ name, t.names name → t'.names name) (hk : ∀ k, t.keys k → t'.keys k)
    (ha : ∀ p, t.altered p → t'.altered p) (h : Conduct r t w w') : Conduct r t' w w' := by
  obtain ⟨new, hnew, hlawful, hframe⟩ := h
  refine ⟨new, hnew, fun d hd => (hlawful d hd).mono hn fun k => Or.imp_left (hk k), fun p hlt hp => ?_⟩
  exact hframe p hlt fun h => hp (ha p h)

/-- A deed accounts for what is done in the course of it. -/
theorem after {d : Deed} (hd : d.Lawful r t [])
    (h : Conduct r (t.during d) { w with deeds := d :: w.deeds } w') : Conduct r t w w' := by
  obtain ⟨new, hnew, hlawful, hframe⟩ := h
  refine ⟨new ++ [d], by simpa using hnew, fun e he => ?_, fun p hlt hp hnot => ?_⟩
  · rcases List.mem_append.1 he with he | he
    · refine (hlawful e he).mono (fun _ h => h) ?_
      rintro k ((hk | hk) | ⟨e, he, hk⟩)
      · exact .inl hk
      · exact .inr ⟨d, by simp, hk⟩
      · exact .inr ⟨e, List.mem_append_left _ he, hk⟩
    · obtain rfl := List.mem_singleton.1 he
      exact hd.mono (fun _ h => h) fun k hk => hk.imp_right fun ⟨_, he, _⟩ => absurd he List.not_mem_nil
  · exact hframe p hlt (not_or.2 ⟨hp, hnot d (by simp)⟩) fun e he => hnot e (List.mem_append_left _ he)

theorem letsWrite {p : Nat} (h : t.altered p ∨ r.floor ≤ p) : LetsWrite r (Conduct r t) p := by
  refine fun w es _ => quiet rfl fun q hlt ha => ?_
  rw [w.dict_withDict, if_neg]
  rintro ⟨rfl, _⟩
  exact h.elim ha fun hle => Nat.not_lt_of_le hle hlt

theorem letsTitle {p : Nat} : LetsTitle r (Conduct r t) p := by
  refine fun w title _ => quiet rfl fun q _ _ => ?_
  rw [w.dict_withDict]
  split
  · rename_i h
    rw [h.1, Entries.untitled_insert]
  · rfl

end Conduct

/-! ## Calls -/

variable {r : Region} {t : Terms} {α : Type} {Q : α → Prop}

theorem Confined.recorded {d : Deed} {m : Run α} (hd : d.Lawful r t []) (hm : Confined r (Conduct r (t.during d)) m Q) :
    Confined r (Conduct r t) (do Run.record d; m) Q := fun w hw =>
  (hm { w with deeds := d :: w.deeds } hw).imp_left (Conduct.after hd)

/-- A host that includes templates lawfully whatever else is free. -/
theorem Host.Confined.during {host : Host} {names : String → Prop} (h : host.Confined r (Conduct r { names }))
    (ht : ∀ name, names name → t.names name) : host.Confined r (Conduct r t) := fun path context hp hc w hw =>
  (h path context hp hc w hw).imp_left (Conduct.mono ht (fun _ => False.elim) fun _ => False.elim)

namespace Run

variable {host : Host} (hh : host.Confined r (Conduct r { names := t.names }))

/-- A lawful deed in the course of which nothing is done. -/
theorem record_lawful_confined {d : Deed} (h : d.Lawful r t []) :
    Confined r (Conduct r t) (record d) fun _ => True := fun _ hw =>
  ⟨Conduct.after h (AllowsReads.refl r _), hw, fun _ _ => trivial⟩

include hh

theorem callKey_confined [r.Open] {f v : Value} (hf : f.In r) (hk : t.keys f) (hv : v.In r) :
    Confined r (Conduct r t) (callKey host f v) (·.In r) := by
  refine .recorded ⟨hf, .inl hk⟩ ?_
  refine callWith_confined ⟨by simpa using hv, fun _ h => absurd h List.not_mem_nil⟩ hf (hh.during fun _ h => h)
    (fun _ _ => Conduct.letsTitle) (fun p hp => Conduct.letsWrite (.inl (.inr hp))) ?_
  exact fun _ k hk => absurd hk List.not_mem_nil

theorem call_confined [r.Open] {f : Value} {args : Arguments} (hf : f.In r) (ha : args.In r) (hperm : f.isForbidden = false) :
    Confined r (Conduct r t) (call host f args) (·.In r) := by
  refine .recorded ⟨hf, hperm⟩ ?_
  refine callWith_confined ha hf (hh.during fun _ h => h) (fun _ _ => Conduct.letsTitle)
    (fun p hp => Conduct.letsWrite (.inl (.inr hp))) fun htakes k hk v hv => ?_
  have hkey := callKey_confined (t := t.during (.call f args.positional args.named)) (hh.during fun _ h => h)
    (ha.named _ hk) (.inr ⟨htakes, hk⟩) hv
  exact hkey.trivial

end Run

/-- What has no rule fails where the relation lets the gap be recorded. -/
theorem Run.lack_confined {R : World → World → Prop} [AllowsReads r R] {gap : Template.Gap}
    (h : Confined r R (record (.lack gap)) fun _ => True) : Confined r R (lack gap) Q := h.seq .throw

theorem Run.needRule_confined {R : World → World → Prop} [AllowsReads r R] {there : Bool} {gap : Template.Gap}
    (h : there = false → Confined r R (record (.lack gap)) fun _ => True) :
    Confined r R (needRule there gap) fun _ => True :=
  .ite (fun _ => .pure trivial) fun hnot => lack_confined (h (Bool.eq_false_iff.2 hnot))

theorem Run.guardCall_confined {R : World → World → Prop} [AllowsReads r R] {f : Value} :
    Confined r R (guardCall f) fun _ => f.isForbidden = false := by
  unfold guardCall
  split
  · exact .throw
  · exact .throw
  · rename_i hc hf
    refine .ite (fun _ => .pure ?_) fun _ => store_confined.bind fun _ _ => .throw
    cases f with
    | classMethod type name => exact absurd rfl (hc type name)
    | foreignType name => exact absurd rfl (hf name)
    | _ => rfl

end NestedSite
