import NestedSite.Proofs.Store.Entries
import NestedSite.Proofs.Store.Reach
import NestedSite.Proofs.Template.CallFree
import NestedSite.Proofs.Template.Evaluate

/-!
# The names that a template mentions

A template looks up no other names than those that are written in it (`Template.mentions`). So it does the same in two
scopes where these names mean the same (`Template.render_concur`). In place of a context that nothing in its scope
leads to, a template may have what the context binds the names to that it mentions, in front of its base scope
(`Template.render_named`): it cannot alter such a context (`Region.Avoids`), which therefore keeps binding those names
to the same values.
-/

namespace NestedSite

open Region (AllowsReads AllowsEdits)

/-! ## Mappings outside of a region -/

/-- Watched mappings outside of the region are as before. -/
def Region.Avoids (r : Region) (w w' : World) : Prop :=
  ∀ p < r.floor, ¬r.dicts p → w'.store.dict p = w.store.dict p

namespace Region.Avoids

variable {r : Region}

theorem of_store {w w' : World} (h : w'.store = w.store) : r.Avoids w w' := fun p _ _ => by rw [h]

instance (r : Region) : AllowsEdits r r.Avoids where
  refl _ := of_store rfl
  trans h k p hlt hp := (k p hlt hp).trans (h p hlt hp)
  reads hw h p hlt _ := h.dicts p (Nat.lt_of_lt_of_le hlt hw.floor)
  edits _ h p hlt _ := h.dicts p hlt

theorem record_confined {d : Deed} : Confined r r.Avoids (Run.record d) fun _ => True :=
  Run.step_confined (fun _ => rfl) fun _ hw => ⟨of_store rfl, hw, trivial⟩

theorem letsWrite {place : Nat} (h : r.dicts place) : LetsWrite r r.Avoids place := by
  intro w es _ p _ hp
  rw [w.dict_withDict, if_neg]
  rintro ⟨rfl, _⟩
  exact hp h

instance (r : Region) [r.Open] : Template.AllowsTemplates r r.Avoids :=
  .of_writes (fun _ => record_confined) (fun _ => letsWrite) fun _ _ =>
    Run.step_confined (fun _ => rfl) fun _ hw => ⟨of_store rfl, hw, trivial⟩

end Region.Avoids

namespace Template

/-! ## Mentioned names -/

/-- Whether an expression is a name, as it is looked up. -/
def Expr.isNamed (name : String) : Expr → Bool
  | .name id => scopeKey id == name
  | _ => false

end Template

/-- Whether a name is written anywhere in the template, as it is looked up. -/
def Template.mentions (t : Template) (name : String) : Bool :=
  !Template.blocksAll (fun e => !e.isNamed name) t.blocks

namespace Template

/-- The expression is without faults, and mentions no names that the template does not mention. -/
def Expr.Within (t : Template) (e : Expr) : Prop :=
  e.faults = [] ∧ ∀ name : { name // t.mentions name = false }, e.all (fun e => !e.isNamed name) = true

theorem Expr.Within.part {t : Template} {e : Expr} (h : e.Within t) : ∀ p ∈ e.parts, p.Within t := fun p hp =>
  ⟨Expr.faults_part h.1 p hp, fun name => Expr.all_part (h.2 name) p hp⟩

theorem Expr.Within.mentions {t : Template} {id : String} (h : (Expr.name id).Within t) :
    t.mentions (scopeKey id) = true := by
  cases hm : t.mentions (scopeKey id) with
  | true => rfl
  | false =>
    have hall := h.2 ⟨scopeKey id, hm⟩
    simp [Expr.all, Expr.isNamed] at hall

theorem Accepted.within {t : Template} (ht : t.Accepted) : AllOf (Expr.Within t) t.blocks :=
  AllOf.and ht fun name => by simpa [Template.mentions] using name.2

end Template

/-! ## Scopes that agree -/

namespace Template

/-- What is assigned comes first. -/
theorem Scope.find?_locals (s : Store) (locals : Bindings) (context : Option Nat) (base : Bindings) (name : String) :
    (⟨locals, context, base⟩ : Scope).find? s name =
      (locals.find? name).or ((⟨[], context, base⟩ : Scope).find? s name) := by
  cases h : locals.find? name <;> simp only [find?, h] <;> rfl

variable {r : Region} {R : World → World → Prop} [AllowsTemplates r R] {start : World} {host host' : Host}
  {base base' : Bindings} {context context' : Option Nat}

theorem Expr.lets_within {t : Template} (hh : host.Confined r R) : Expr.Lets r R host (Expr.Within t) where
  parts := Expr.Within.part
  attributes h := (Expr.lets_accepted hh).attributes h.1
  calls h := (Expr.lets_accepted hh).calls h.1
  gaps h := (Expr.lets_accepted hh).gaps h.1

theorem in_getD_or {o o' : Option Value} (h : ∀ v ∈ o, v.In r) (h' : ∀ v ∈ o', v.In r) :
    ((o.or o').getD .none).In r := by
  cases o with
  | some v => exact h v rfl
  | none =>
    cases o' with
    | some v => exact h' v rfl
    | none => exact Value.in_none

/-- A template does the same in two scopes, and with two hosts, if the names that it mentions mean the same in both and
lie in the region. -/
theorem render_concur {t : Template} (ht : t.Accepted) (hh : host.Confined r R)
    (hhosts : ∀ {f : Value} {args : Arguments}, f.In r → args.In r → Run.call host' f args = Run.call host f args)
    (hnames : ∀ {name w}, t.mentions name = true → R start w → r.Holds w.store →
      (⟨[], context', base'⟩ : Scope).find? w.store name = (⟨[], context, base⟩ : Scope).find? w.store name ∧
        ∀ v ∈ (⟨[], context, base⟩ : Scope).find? w.store name, v.In r) :
    Concur r R start (t.render host base context) (t.render host' base' context') fun _ => True := by
  have hs : Step.Agrees (fun _ : Unit => r) (fun _ => R) (fun _ => start) (Expr.Within t) ⟨host, context, base⟩
      ⟨host', context', base'⟩ :=
    { expressions := fun _ locals hlocals =>
        { Expr.lets_within hh with
          names := fun {id} h {w} hw hr => by
            obtain ⟨hfind, hin⟩ := hnames h.mentions hw hr
            have hlocal := Scope.find?_locals w.store locals context base (scopeKey id)
            have hlocal' := Scope.find?_locals w.store locals context' base' (scopeKey id)
            rw [hfind] at hlocal'
            refine ⟨hlocal'.trans hlocal.symm, ?_⟩
            show ((Scope.find? w.store ⟨locals, context, base⟩ (scopeKey id)).getD .none).In r
            rw [hlocal]
            exact in_getD_or (fun v hv => hlocals.find? hv) hin
          hosts := hhosts }
      loops := fun hb i _ hv => Step.forAll_concur hv (hb i) }
  exact renderOf_concur hs ht.within ()

/-! ## What names are bound to -/

theorem Bindings.find?_append (bs others : Bindings) (name : String) :
    Bindings.find? (bs ++ others) name = (bs.find? name).or (others.find? name) := by
  simp only [Bindings.find?, List.find?_append, Option.map_or]

/-- What the names that a template mentions are bound to by the entries of a mapping. -/
def mentioned (t : Template) (es : Entries) : Bindings := es.filterMap fun
  | (.text name, v) => if t.mentions name then some (name, v) else none
  | _ => none

theorem find?_mentioned {t : Template} {name : String} (h : t.mentions name = true) (es : Entries) :
    (t.mentioned es).find? name = es.find? (.text name) := by
  induction es with
  | nil => rfl
  | cons e es ih =>
    obtain ⟨k, v⟩ := e
    have hrest : (t.mentioned es).find? name = Entries.find? es (.text name) := ih
    have other (hk : k ≠ .text name) : Entries.find? ((k, v) :: es) (.text name) = (t.mentioned es).find? name := by
      rw [Entries.find?_cons, if_neg (mt Value.sameKey_text.1 hk), hrest]
    cases k
    case text key =>
      by_cases hkey : key = name
      · subst hkey
        rw [Entries.find?_cons, if_pos (Value.sameKey_text.2 rfl)]
        simp [mentioned, h, Bindings.find?]
      · rw [other (by simpa using hkey)]
        by_cases hm : t.mentions key = true <;> simp [mentioned, hm, Bindings.find?, hkey]
    all_goals exact (other nofun).symm

/-- What the mapping at a place binds the names to that a template mentions may stand in front of the base scope in its
place, if nothing leads to the mapping from what the template can get at. -/
theorem render_named {t : Template} (ht : t.Accepted) {w : World} {roots : List Value} {overlay : Bindings} {p : Nat}
    (hh : host.Confined (.reachedWith (fun _ => True) w.store roots)
      (Region.Avoids (.reachedWith (fun _ => True) w.store roots)))
    (hroots : ∀ b ∈ overlay ++ base, w.store.Reaches roots b.2) (hp : p < w.store.dicts.size)
    (hapart : ¬w.store.Reaches roots (.dict p))
    (hoverlay : ∀ name, t.mentions name = true → overlay.find? name = w.binding? p name) :
    (t.render host base (some p)).outcome w = (t.render host (overlay ++ base) none).outcome w := by
  have hreached : Region.IsReached (.reachedWith (fun _ => True) w.store roots) w.store roots :=
    Region.reachedWith_isReached fun _ _ => trivial
  have hconcur : Concur _ (Region.Avoids _) w (t.render host (overlay ++ base) none) (t.render host base (some p))
      fun _ => True := render_concur ht hh (fun _ _ => rfl) fun {name v} hname hrel _ => by
      -- the context still binds the name to what it was bound to at first
      have hkept : v.store.dict p = w.store.dict p :=
        hrel p hp fun hin => hin.elim hapart (Nat.not_le.2 hp)
      have hbound : (v.store.dict p).find? (.text name) = overlay.find? name := by
        rw [hkept, hoverlay name hname]
        rfl
      have hfind : (⟨[], none, overlay ++ base⟩ : Scope).find? v.store name = (overlay ++ base).find? name := rfl
      refine ⟨?_, fun u hu => ?_⟩
      · rw [hfind, Bindings.find?_append, ← hbound]
        simp only [Scope.find?, Option.bind_some]
        cases (v.store.dict p).find? (.text name) <;> rfl
      · rw [hfind] at hu
        obtain ⟨b, hb, rfl⟩ := Option.map_eq_some_iff.1 hu
        exact hreached.value b.2 (hroots b (List.mem_of_find?_eq_some hb))
  exact congrArg Prod.fst (hconcur w (Region.Avoids.of_store rfl) hreached.holds).1

end Template

end NestedSite
