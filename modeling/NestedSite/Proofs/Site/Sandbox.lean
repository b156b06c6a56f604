import NestedSite.Proofs.Site.Registered
import NestedSite.Proofs.Store.Reach

/-!
# What the sandbox keeps from happening

Whatever source is compiled, a rendering of it with the templates of an engine

* reads no attribute that is not permitted, other than of mappings (`Engine.reads_permitted`);
* calls nothing forbidden, except as a key that it hands to a function that takes one (`Engine.forbidden_as_key`);
* leaves the mappings that there are as they are, up to their titles, except those that it hands to a method of the
  type of mappings that writes to its argument (`Engine.mappings_kept`);
* lacks a rule for nothing that was compiled but the inversion of a number, which no check refuses
  (`Engine.only_inversion_lacks`).

All of them hold of failing renderings as well, and are read off their `Conduct`.
-/

namespace NestedSite

open Region (AllowsReads)
open Template (Bindings sandbox)

/-! ## Deeds are not taken back -/

section Recording

variable {α β : Type} {m : Run α} {f : α → Run β} {d : Deed} {w : World}

/-- What is done in a computation takes no deed back. -/
def Recording (m : Run α) : Prop := ∀ w, ∀ d ∈ w.deeds, d ∈ (m.after w).deeds

theorem Confined.recording {t : Terms} {Q : α → Prop} (h : Confined .whole (Conduct .whole t) m Q) : Recording m := by
  intro w d hd
  obtain ⟨new, hnew, -⟩ := (h w (Region.whole_holds _)).1
  exact hnew ▸ List.mem_append_right new hd

/-- A deed that is done first stays. -/
theorem Recording.bind (hf : ∀ a, Recording (f a)) (hd : d ∈ (m.after w).deeds) : d ∈ ((m >>= f).after w).deeds := by
  unfold Run.after at hd ⊢
  rw [Run.run_bind]
  rcases hm : m.run.run w with ⟨_ | a, w'⟩
  · rwa [hm] at hd
  · rw [hm] at hd
    exact hf a w' d hd

end Recording

/-! ## Forbidden keys -/

/-- Terms that allow every key to be called. -/
def Terms.free : Terms := { names := fun _ => True, keys := fun _ => True }

namespace Run

variable {host : Host} {k : Value} (hk : k.isForbidden = true)

include hk

theorem callWith_forbidden_confined {R : World → World → Prop} [AllowsReads .whole R] {callback : Value → Callback}
    {args : Arguments} : Confined .whole R (callWith callback host k args) (·.In .whole) := by
  cases k with
  | classMethod type name => exact callClassMethod_confined ⟨fun v _ => v.in_whole, fun f _ => f.2.in_whole⟩
  | foreignType name => exact .wrongType
  | _ => cases hk

theorem callKey_forbidden_confined (v : Value) :
    Confined .whole (Conduct .whole .free) (callKey host k v) fun _ => True :=
  (Confined.recorded (d := .callKey k v) ⟨k.in_whole, .inl trivial⟩ (callWith_forbidden_confined hk)).trivial

theorem callKey_forbidden_records (v : Value) (w : World) : .callKey k v ∈ ((callKey host k v).after w).deeds := by
  have hcall : Recording (callWith (fun _ _ => wrongType) host k ⟨[v], []⟩) :=
    (callWith_forbidden_confined (R := Conduct .whole .free) hk).recording
  exact hcall { w with deeds := .callKey k v :: w.deeds } _ List.mem_cons_self

/-- The first item is handed to the key, whatever comes of it. -/
theorem keyed_forbidden_records (v : Value) (vs : List Value) (w : World) :
    .callKey k v ∈ ((keyed (some (callKey host k)) (v :: vs)).after w).deeds := by
  simp only [keyed, List.mapM_cons]
  refine Recording.bind (fun _ => ?_) (Recording.bind (fun _ _ _ h => h) (callKey_forbidden_records hk v w))
  have hrest : Confined .whole (Conduct .whole .free) (keyed (some (callKey host k)) vs) (PairsIn .whole) :=
    keyed_confined (fun f hf v _ => by cases hf; exact callKey_forbidden_confined hk v) fun v _ => v.in_whole
  exact (hrest.bind (P := fun _ => True) fun _ _ => .pure trivial).recording

theorem keyOf_forbidden {callback : Value → Callback} {vs : List Value} :
    keyOf callback ⟨vs, [("key", k)]⟩ = some (callback k) := by
  cases k with
  | classMethod | foreignType => rfl
  | _ => cases hk

/-- The least and the greatest of several arguments are found by the key that is passed, be it forbidden. -/
theorem call_extreme_records {b : Builtin} (hb : b = .min ∨ b = .max) (u v : Value) (vs : List Value) (w : World) :
    .callKey k u ∈ ((call host (.builtin b) ⟨u :: v :: vs, [("key", k)]⟩).after w).deeds := by
  have hextreme : ∀ (op : OrderOp) (w : World), .callKey k u ∈ ((extremeOf op
      (keyOf (callKey host) ⟨u :: v :: vs, [("key", k)]⟩) ⟨u :: v :: vs, [("key", k)]⟩).after w).deeds := by
    intro op w
    rw [keyOf_forbidden hk]
    refine Recording.bind (m := keyed (some (callKey host k)) (u :: v :: vs)) (fun ps => ?_)
      (keyed_forbidden_records hk u (v :: vs) w)
    cases ps with
    | nil => exact (Confined.throw (R := Conduct .whole .free) (Q := fun _ => True)).recording
    | cons p ps =>
      exact (extreme_confined (R := Conduct .whole .free) p.2.in_whole fun q _ => q.2.in_whole).recording
  rcases hb with rfl | rfl
  · exact hextreme .lt { w with deeds := .call (.builtin .min) (u :: v :: vs) [("key", k)] :: w.deeds }
  · exact hextreme .gt { w with deeds := .call (.builtin .max) (u :: v :: vs) [("key", k)] :: w.deeds }

/-- A list is sorted by the key that is passed, be it forbidden. -/
theorem call_sort_records {p : Nat} {v : Value} {vs : List Value} {w : World} (hp : w.store.list p = v :: vs) :
    .callKey k v ∈ ((call host (.method (.list p) "sort") ⟨[], [("key", k)]⟩).after w).deeds := by
  have hsort : (call host (.method (.list p) "sort") ⟨[], [("key", k)]⟩).after w =
      (sortedItems (keyOf (callKey host) ⟨[], [("key", k)]⟩) false (w.store.list p) >>= fun vs => do
        setList p vs
        return .none : Run Value).after
        { w with deeds := .call (.method (.list p) "sort") [] [("key", k)] :: w.deeds } := rfl
  rw [hsort, keyOf_forbidden hk, hp]
  refine Recording.bind (fun vs => ?_) (Recording.bind (m := keyed (some (callKey host k)) (v :: vs)) (fun ps => ?_)
    (keyed_forbidden_records hk v vs _))
  · have hset : Confined .whole (Conduct .whole .free) (setList p vs) fun _ => True :=
      setList_confined trivial fun v _ => v.in_whole
    exact (hset.seq (P := (·.In .whole)) (.pure Value.in_none)).recording
  · have hread : Confined .whole (Conduct .whole .free) (read fun s =>
        Store.sortBy (fun x y => s.ordered .lt x.1 y.1) ps) fun _ => True := gives_confined fun _ => .any _
    exact (hread.bind (P := fun _ => True) fun _ _ => .pure trivial).recording

end Run

/-! ## Forbidden calls -/

theorem Run.guardCall_forbidden {f : Value} (h : f.isForbidden = true) :
    ∃ name, guardCall f = throw (.forbiddenCall name) := by
  cases f with
  | classMethod type name => exact ⟨name, rfl⟩
  | foreignType name => exact ⟨name, rfl⟩
  | _ => cases h

theorem Template.Expr.eval_call_forbidden {host : Host} {scope : Scope} {function : Expr} (arguments : List Expr)
    (named : List (Option String × Expr)) {w : World} {f : Value} (hf : (function.eval host scope).outcome w = .ok f)
    (h : f.isForbidden = true) : ∃ name,
      ((call function arguments named).eval host scope).outcome w = .error (.forbiddenCall name) ∧
      ((call function arguments named).eval host scope).after w = (function.eval host scope).after w := by
  obtain ⟨name, hguard⟩ := Run.guardCall_forbidden h
  refine ⟨name, ?_⟩
  unfold Run.outcome Run.after at *
  rw [Expr.eval, Run.run_bind]
  rcases hm : (function.eval host scope).run.run w with ⟨_ | g, w'⟩
  · rw [hm] at hf
    cases hf
  · rw [hm] at hf
    cases hf
    simp only [hguard]
    exact ⟨rfl, rfl⟩

/-! ## Mappings handed to methods of their type -/

/-- The deed hands the mapping at a place to a method of the type of mappings that writes to it. -/
inductive Deed.AltersByType (p : Nat) : Deed → Prop where
  | call {name : String} {vs : List Value} {named : List (String × Value)} (h : name ∈ alteringDictMethods) :
      AltersByType p (.call (.typeMethod "dict" name) (.dict p :: vs) named)
  | callKey {name : String} (h : name ∈ alteringDictMethods) :
      AltersByType p (.callKey (.typeMethod "dict" name) (.dict p))

/-- No mapping is held with a method that writes to it, so only methods of the type are left. -/
theorem Deed.Alters.byType {r : Region} (hsafe : ∀ name, r.bound name → name ∈ safeDictMethods) {t : Terms}
    {new : List Deed} {d : Deed} (hd : d.Lawful r t new) {p : Nat} (h : d.Alters p) : d.AltersByType p := by
  -- the methods that look at a mapping and those that write to it are different ones
  have hbound : ∀ name, r.bound name → name ∉ alteringDictMethods := fun name hname haltering => by
    have hsafe := hsafe name hname
    revert haltering hsafe
    simp only [safeDictMethods, alteringDictMethods, List.mem_cons, List.not_mem_nil, or_false]
    rintro (rfl | rfl | rfl | rfl | rfl) <;> decide
  cases d with
  | read | lack | breakOff => cases h
  | call f vs named =>
    cases h with
    | bound hname => exact absurd hname (hbound _ (hd.1.2 rfl))
    | unbound hname => exact .call hname
  | callKey f v =>
    cases h with
    | bound hname => exact absurd hname (hbound _ (hd.1.2 rfl))
    | unbound hname => exact .callKey hname

/-- Every key of a mapping can be bound by a method of the type. -/
theorem Run.call_update_after (host : Host) {p : Nat} {w : World} (hp : p < w.store.dicts.size) (key : String)
    (v : Value) : ((call host (.typeMethod "dict" "update") ⟨[.dict p], [(key, v)]⟩).after w).store.dict p =
      (w.store.dict p).insert (.text key) v := by
  have hafter : (call host (.typeMethod "dict" "update") ⟨[.dict p], [(key, v)]⟩).after w =
      World.withDict { w with deeds := .call (.typeMethod "dict" "update") [.dict p] [(key, v)] :: w.deeds } p
        ((w.store.dict p).insert (.text key) v) := rfl
  rw [hafter, World.dict_withDict, if_pos ⟨rfl, hp⟩]

/-! ## Inversions -/

/-- An inversion has no faults of its own, and is never done. -/
theorem Template.Expr.faults_invert (operand : Expr) : (unary .invert operand).faults = operand.faults := by
  simp [faults, faultLevels, ownFaults]

theorem Template.Expr.eval_invert (host : Host) (scope : Scope) (operand : Expr) (w : World) :
    ((unary .invert operand).eval host scope).outcome w = .error .missingKey ∧
    ((unary .invert operand).eval host scope).after w = { w with deeds := .lack (.unary .invert) :: w.deeds } := by
  rw [Expr.eval]
  exact ⟨rfl, rfl⟩

/-! ## Renderings -/

theorem Template.exists_compiled {source : String} (h : (compile source).isOk = true) :
    ∃ t, compile source = .ok t := by
  cases hc : compile source with
  | error f =>
    rw [hc] at h
    cases h
  | ok t => exact ⟨t, rfl⟩

namespace Engine

theorem render_conduct {r : Region} [r.Open] {e : Engine} (he : e.Lawful r) {source : String} {t : Template}
    (ht : Template.compile source = .ok t) (n : Nat) {base : Bindings} (hb : FieldsIn r base) {context : Option Nat}
    (hc : ∀ p ∈ context, r.dicts p) {w : World} (hw : r.Holds w.store) :
    Conduct r sandbox w ((t.render (e.host n) base context).after w) :=
  (Template.render_confined (host_confined he n) hb hc (Template.compile_accepted source t ht) w hw).1

/-- Of what is no mapping, a rendering only reads attributes that are permitted. -/
theorem reads_permitted {e : Engine} (he : e.Reached) {source : String} {t : Template}
    (ht : Template.compile source = .ok t) (n : Nat) (base : Bindings) (context : Option Nat) (w : World) :
    ∃ new, ((t.render (e.host n) base context).after w).deeds = new ++ w.deeds ∧
      ∀ v name, .read v name ∈ new → v.isMapping = true ∨ Template.IsPermitted name := by
  obtain ⟨new, hnew, hlawful, -⟩ :=
    render_conduct he.lawful ht n (fun b _ => b.2.in_whole) (fun _ _ => trivial) (Region.whole_holds w.store)
  exact ⟨new, hnew, fun v name hread => hlawful _ hread⟩

theorem reads_permitted_upper : ∃ t, Template.compile "<< x = a.b.upper >>" = .ok t ∧
    ∃ new, ((t.render (bare.host 1) [] none).after {}).deeds = new ++ [] ∧
      ∀ v name, .read v name ∈ new → v.isMapping = true ∨ Template.IsPermitted name := by
  obtain ⟨t, ht⟩ : ∃ t, Template.compile "<< x = a.b.upper >>" = .ok t := Template.exists_compiled (by decide +kernel)
  exact ⟨t, ht, reads_permitted reached_bare ht 1 [] none {}⟩

/-- A rendering calls what is forbidden only as a key, which it has handed to a function that takes one. Written as a
call, it is refused before there are arguments; handed as a key, it is called. -/
theorem forbidden_as_key {e : Engine} (he : e.Reached) {source : String} {t : Template}
    (ht : Template.compile source = .ok t) (n : Nat) (base : Bindings) (context : Option Nat) (w : World) :
    (∃ new, ((t.render (e.host n) base context).after w).deeds = new ++ w.deeds ∧
      (∀ f vs named, .call f vs named ∈ new → f.isForbidden = false) ∧
      ∀ f v, .callKey f v ∈ new → ∃ d ∈ new, d.Hands f) ∧
    (∀ (host : Host) (scope : Template.Scope) (function : Template.Expr) arguments named w f,
      (function.eval host scope).outcome w = .ok f → f.isForbidden = true → ∃ name,
        ((Template.Expr.call function arguments named).eval host scope).outcome w = .error (.forbiddenCall name) ∧
        ((Template.Expr.call function arguments named).eval host scope).after w = (function.eval host scope).after w) ∧
    ∀ (host : Host) (k : Value), k.isForbidden = true → ∀ u vs w,
      (∀ b v, b = .min ∨ b = .max →
        .callKey k u ∈ ((Run.call host (.builtin b) ⟨u :: v :: vs, [("key", k)]⟩).after w).deeds) ∧
      ∀ p, w.store.list p = u :: vs →
        .callKey k u ∈ ((Run.call host (.method (.list p) "sort") ⟨[], [("key", k)]⟩).after w).deeds := by
  refine ⟨?_, fun host scope function arguments named w f hf hforbidden => ?_, fun host k hk u vs w => ?_⟩
  · obtain ⟨new, hnew, hlawful, -⟩ :=
      render_conduct he.lawful ht n (fun b _ => b.2.in_whole) (fun _ _ => trivial) (Region.whole_holds w.store)
    refine ⟨new, hnew, fun f vs named hcall => (hlawful _ hcall).2, fun f v hkey => ?_⟩
    exact (hlawful _ hkey).2.resolve_left id
  · exact Template.Expr.eval_call_forbidden arguments named hf hforbidden
  · exact ⟨fun b v hb => Run.call_extreme_records hk hb u v vs w, fun p hp => Run.call_sort_records hk hp⟩

theorem forbidden_as_key_max : ∃ t, Template.compile "<< max([\"b\"], key=dict.fromkeys) >>" = .ok t ∧
    ∃ new, ((t.render (bare.host 1) (Template.baseScope []) none).after {}).deeds = new ++ [] ∧
      (∀ f vs named, .call f vs named ∈ new → f.isForbidden = false) ∧
      ∀ f v, .callKey f v ∈ new → ∃ d ∈ new, d.Hands f := by
  obtain ⟨t, ht⟩ : ∃ t, Template.compile "<< max([\"b\"], key=dict.fromkeys) >>" = .ok t :=
    Template.exists_compiled (by decide +kernel)
  exact ⟨t, ht, (forbidden_as_key reached_bare ht 1 (Template.baseScope []) none {}).1⟩

/-- The values that an engine hands to its templates. -/
def held (e : Engine) : List Value := e.imports.map Prod.snd ++ e.directories.map fun d => .metadata d.2

/-- What is held lies in the region of what the engine hands to its templates. -/
theorem lawful_of_held {r : Region} {e : Engine} (ht : ∀ t ∈ e.templates, t.2.Accepted) (hheld : ∀ v ∈ e.held, v.In r)
    (hhelpers : ∀ h, r.helpers h) : e.Lawful r where
  templates := ht
  imports b hb := hheld _ (List.mem_append_left _ (List.mem_map_of_mem hb))
  directories d hd := hheld (.metadata d.2) (List.mem_append_right _ (List.mem_map_of_mem hd))
  helpers := hhelpers

/-- What is held lies in the region of what it leads to. -/
theorem lawful_reachedWith {e : Engine} (ht : ∀ t ∈ e.templates, t.2.Accepted) {s : Store} {roots : List Value}
    (hheld : ∀ v ∈ e.held, s.Reaches roots v) : e.Lawful (.reachedWith (fun _ => True) s roots) :=
  lawful_of_held ht (fun v hv => (Region.reachedWith_isReached fun _ _ => trivial).value v (hheld v hv)) fun _ => trivial

/-- A rendering leaves the mappings as they are, up to their titles, except those that it hands to a method of the type
of mappings that writes to its argument; such a method can bind every key. -/
theorem mappings_kept {e : Engine} (he : e.Reached) {source : String} {t : Template}
    (ht : Template.compile source = .ok t) (n : Nat) {context : Nat} {w : World}
    (hsafe : ∀ v, w.store.Reaches (.dict context :: e.held) v → v.BindsSafely) :
    (∃ new, ((t.render (e.host n) e.scope (some context)).after w).deeds = new ++ w.deeds ∧
      ∀ p < w.store.dicts.size, (∀ d ∈ new, ¬d.AltersByType p) →
        (((t.render (e.host n) e.scope (some context)).after w).store.dict p).untitled = (w.store.dict p).untitled) ∧
    ∀ (host : Host) p (w : World), p < w.store.dicts.size → ∀ key v,
      ((Run.call host (.typeMethod "dict" "update") ⟨[.dict p], [(key, v)]⟩).after w).store.dict p =
        (w.store.dict p).insert (.text key) v := by
  refine ⟨?_, fun host p w hp key v => Run.call_update_after host hp key v⟩
  -- the region is what is reached from the context and from what the engine hands over; all mappings are watched
  have hreached : ∀ v ∈ Value.dict context :: e.held, v.In (.reached w.store (.dict context :: e.held)) :=
    fun v hv => (Region.reached_isReached hsafe).value v (.root hv)
  have hlawful : e.Lawful (.reached w.store (.dict context :: e.held)) :=
    lawful_of_held he.lawful.templates (fun v hv => hreached v (List.mem_cons_of_mem _ hv)) fun _ => trivial
  have hcontext : ∀ p ∈ some context, (Region.reached w.store (.dict context :: e.held)).dicts p := by
    rintro p ⟨⟩
    exact hreached _ List.mem_cons_self
  obtain ⟨new, hnew, hdeeds, hframe⟩ :=
    render_conduct hlawful ht n hlawful.scope hcontext (Region.reached_isReached hsafe).holds
  refine ⟨new, hnew, fun p hp hnot => hframe p hp id fun d hd halters => hnot d hd ?_⟩
  exact halters.byType (fun _ h => h) (hdeeds d hd)

theorem mappings_kept_entitle : ∃ t, Template.compile "<< $entitle(\"T\", $) >>" = .ok t ∧
    ∃ new, ((t.render (bare.host 1) bare.scope (some 0)).after
        { store := { dicts := #[[(.text "$", .dict 0)]] } }).deeds = new ++ [] ∧
      ∀ p < 1, (∀ d ∈ new, ¬d.AltersByType p) →
        (((t.render (bare.host 1) bare.scope (some 0)).after
          { store := { dicts := #[[(.text "$", .dict 0)]] } }).store.dict p).untitled =
        (({ dicts := #[[(.text "$", .dict 0)]] } : Store).dict p).untitled := by
  obtain ⟨t, ht⟩ : ∃ t, Template.compile "<< $entitle(\"T\", $) >>" = .ok t :=
    Template.exists_compiled (by decide +kernel)
  have hreached : ∀ v, ({ dicts := #[[(.text "$", .dict 0)]] } : Store).Reaches [.dict 0] v →
      v = .dict 0 ∨ v = .text "$" := by
    intro v hv
    induction hv with
    | root h => exact .inl (List.mem_singleton.1 h)
    | part h hv ih =>
      rcases ih with rfl | rfl
      · simpa [Value.parts, Store.dict, or_comm] using hv
      · simp [Value.parts] at hv
  refine ⟨t, ht, (mappings_kept reached_bare ht 1 fun v hv => ?_).1⟩
  rcases hreached v hv with rfl | rfl <;> trivial

/-- There is a rule for all that is compiled, and what is not compiled is refused as a template, with one exception: an
inversion is compiled if its operand is, and every evaluation of it fails, for want of a rule, before there is an
operand. -/
theorem only_inversion_lacks {e : Engine} (he : e.Reached) (source : String) :
    (∀ f, Template.compile source = .error f → ∃ g code, f = .template g code) ∧
    (∀ t, Template.compile source = .ok t → ∀ n base context w,
      ∃ new, ((t.render (e.host n) base context).after w).deeds = new ++ w.deeds ∧
        ∀ gap, .lack gap ∈ new → gap = .unary .invert) ∧
    ∀ operand : Template.Expr, (Template.Expr.unary .invert operand).faults = operand.faults ∧
      ∀ (host : Host) (scope : Template.Scope) (w : World),
        ((Template.Expr.unary .invert operand).eval host scope).outcome w = .error .missingKey ∧
        ((Template.Expr.unary .invert operand).eval host scope).after w =
          { w with deeds := .lack (.unary .invert) :: w.deeds } := by
  refine ⟨Template.compile_refuses source, fun t ht n base context w => ?_, fun operand => ?_⟩
  · obtain ⟨new, hnew, hlawful, -⟩ :=
      render_conduct he.lawful ht n (fun b _ => b.2.in_whole) (fun _ _ => trivial) (Region.whole_holds w.store)
    exact ⟨new, hnew, fun gap hgap => hlawful _ hgap⟩
  · exact ⟨operand.faults_invert, fun host scope w => operand.eval_invert host scope w⟩

/-- The source `{{ ~1 }}` is compiled. -/
theorem only_inversion_lacks_one : ∃ t, Template.compile "\x7b\x7b ~1 \x7d\x7d" = .ok t ∧
    ∃ new, ((t.render (bare.host 1) [] none).after {}).deeds = new ++ [] ∧
      ∀ gap, .lack gap ∈ new → gap = .unary .invert := by
  obtain ⟨t, ht⟩ : ∃ t, Template.compile "\x7b\x7b ~1 \x7d\x7d" = .ok t :=
    Template.exists_compiled (by decide +kernel)
  exact ⟨t, ht, (only_inversion_lacks reached_bare _).2.1 t ht 1 [] none {}⟩

end Engine

end NestedSite
