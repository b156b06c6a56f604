import NestedSite.Proofs.Store.Ensures
import NestedSite.Proofs.Template.Keyed

/-!
# What a rendering binds

`Step.Turns I m` relates what is assigned before and after a step that succeeds. To assign to a target is to bind the
keys of its identifiers, all of them and nothing else (`Step.assign_turns`). Nothing but an assignment binds a name;
hence whatever a template does, none gets bound that begins with `_dollar_` (`Step.execute_turns`).
-/

namespace NestedSite.Template

/-! ## Bindings -/

/-- The names that are bound. -/
def Bindings.names (bs : Bindings) : List String := bs.map Prod.fst

theorem Bindings.mem_names_bind {bs : Bindings} {name key : String} {v : Value} :
    key ∈ (bs.bind name v).names ↔ key ∈ bs.names ∨ key = name := by
  induction bs with
  | nil => simp [bind, names]
  | cons first rest ih =>
    obtain ⟨n, u⟩ := first
    simp only [names, List.map_cons, List.mem_cons] at ih ⊢
    unfold bind
    split
    · obtain rfl := beq_iff_eq.1 ‹_›
      rw [List.map_cons, List.mem_cons, or_right_comm, or_self]
    · rw [List.map_cons, List.mem_cons, ih, or_assoc]

/-- Just these names get bound; none of them begins with `_dollar_`. -/
structure Bindings.Bound (keys : List String) (before after : Bindings) : Prop where
  names (key : String) : key ∈ after.names ↔ key ∈ before.names ∨ key ∈ keys
  plain : ∀ key ∈ keys, ¬IsMarked key

/-- No name gets bound that begins with `_dollar_`. -/
def Bindings.Unmarked (before after : Bindings) : Prop := ∀ key ∈ after.names, key ∈ before.names ∨ ¬IsMarked key

namespace Bindings

variable {keys more : List String} {a b c : Bindings}

theorem Bound.refl (a : Bindings) : Bound [] a a := ⟨by simp, by simp⟩

theorem Bound.trans (h : Bound keys a b) (k : Bound more b c) : Bound (keys ++ more) a c where
  names key := by rw [k.names, h.names, List.mem_append, or_assoc]
  plain := List.forall_mem_append.mpr ⟨h.plain, k.plain⟩

theorem Bound.unmarked (h : Bound keys a b) : Unmarked a b := fun key hkey =>
  ((h.names key).mp hkey).imp_right (h.plain key)

theorem Unmarked.refl (a : Bindings) : Unmarked a a := fun _ h => .inl h

theorem Unmarked.trans (h : Unmarked a b) (k : Unmarked b c) : Unmarked a c := fun key hkey =>
  (k key hkey).elim (h key) .inr

end Bindings

open Bindings (Bound Unmarked)

/-! ## Steps -/

/-- What is assigned before and after the step, if it succeeds, is related by `I`. -/
def Step.Turns {α : Type} (I : Bindings → Bindings → Prop) (m : Step α) : Prop :=
  ∀ p w, (m.run p).Ensures w fun x _ => I p.locals x.2.locals

namespace Step

variable {α β : Type} {I J K : Bindings → Bindings → Prop} {m : Step α} {f : α → Step β}

namespace Turns

theorem pure {a : α} (h : ∀ bs, I bs bs) : Turns I (Pure.pure a : Step α) := fun p _ => .pure (h p.locals)

theorem bind (h : Turns I m) (k : ∀ a, Turns J (f a)) (htrans : ∀ {a b c}, I a b → J b c → K a c) :
    Turns K (m >>= f) := fun p w => by
  rw [StateT.run_bind]
  exact (h p w).bind fun x w' hx => (k x.1 x.2 w').mono fun _ _ hy => htrans hx hy

theorem lift {n : Run α} (h : ∀ bs, I bs bs) : Turns I (monadLift n : Step α) := fun p w => by
  rw [StateT.run_monadLift]
  exact (Run.Ensures.anything n w).bind fun _ _ _ => .pure (h p.locals)

theorem throw {e : Fault} : Turns I (MonadExcept.throw e : Step α) := fun _ _ _ _ hrun => by cases hrun

theorem throw_bind {e : Fault} : Turns I ((MonadExcept.throw e : Step β) >>= fun _ => m) :=
  fun _ _ _ _ hrun => by cases hrun

theorem modify {g : Progress → Progress} (h : ∀ p, I p.locals (g p).locals) : Turns I (modify g : Step PUnit) :=
  fun p _ => .pure (h p)

theorem ite {c : Prop} [Decidable c] {n : Step α} (h : Turns I m) (k : Turns I n) : Turns I (if c then m else n) := by
  split
  · exact h
  · exact k

theorem mono (h : Turns I m) (hI : ∀ {a b}, I a b → J a b) : Turns J m := fun p w => (h p w).mono fun _ _ => hI

/-- After a step that binds nothing. -/
theorem after (h : Turns (Bound []) m) {keys : List String} (k : ∀ a, Turns (Bound keys) (f a)) :
    Turns (Bound keys) (m >>= f) := h.bind k fun hab hbc => Bound.trans hab hbc

/-- Steps that bind no marked name, one after the other. -/
theorem andThen (h : Turns Unmarked m) (k : ∀ a, Turns Unmarked (f a)) : Turns Unmarked (m >>= f) :=
  h.bind k Unmarked.trans

/-- Just these keys get bound, and so no marked name. -/
theorem unmarked {keys : List String} (h : Turns (Bound keys) m) : Turns Unmarked m := h.mono Bound.unmarked

/-- What has no rule binds nothing, and does not succeed. -/
theorem lack {gap : Gap} : Turns I (monadLift (Run.lack gap : Run α) : Step α) := fun _ _ _ _ hrun => by cases hrun

end Turns

/-! ## Assignments -/

mutual

/-- To assign to a target is to bind the keys of its identifiers. -/
theorem assign_turns : ∀ (t : Expr) (v : Value), Turns (Bound (t.uses.map Use.key)) (assign t v)
  | .name id, v => by
    unfold assign
    exact .modify fun p =>
      { names := fun key => by simp only [Bindings.mem_names_bind, Expr.uses, List.map_cons, List.map_nil,
          List.mem_singleton, Use.key]
        plain := by simpa [Expr.uses, Use.key] using not_isMarked_scopeKey id }
  | .tuple targets, v | .list targets, v => by
    unfold assign
    refine (Turns.lift Bound.refl).after fun vs => ?_
    split
    · exact Turns.throw_bind
    · rename_i hlength
      exact assignAll_turns targets vs (by simpa using hlength)
  | .literal _, _ | .attribute .., _ | .subscript .., _ | .slice .., _ | .call .., _ | .binary .., _ | .unary .., _
  | .boolean .., _ | .compare .., _ | .conditional .., _ | .set _, _ | .dict _, _ | .joined _, _ | .formatted .., _
  | .starred _, _ | .foreign _, _ => Turns.lack

theorem assignAll_turns : ∀ (ts : List Expr) (vs : List Value), vs.length = ts.length →
    Turns (Bound ((listUses ts).map Use.key)) (assignAll ts vs)
  | [], [], _ => .pure Bound.refl
  | t :: ts, v :: vs, h => by
    rw [listUses, List.map_append]
    exact (assign_turns t v).bind (fun _ => assignAll_turns ts vs (Nat.succ.inj h)) Bound.trans

end

/-! ## Blocks -/

theorem forEach_turns (cursor : Nat) {body : Value → Step Unit} (h : ∀ v, Turns Unmarked (body v)) :
    ∀ (n : Nat) {looped : Bool}, Turns Unmarked (forEach cursor body n looped)
  | 0, _ => (Turns.lift Unmarked.refl).andThen fun _ => .throw
  | n + 1, _ => by
    unfold forEach
    refine (Turns.lift Unmarked.refl).andThen fun next => ?_
    split
    · exact .pure Unmarked.refl
    · exact (h _).andThen fun _ => forEach_turns cursor h n

theorem forAll_turns {v : Value} {body : Value → Step Unit} (h : ∀ v, Turns Unmarked (body v)) :
    Turns Unmarked (forAll v body) :=
  (Turns.lift Unmarked.refl).andThen fun _ => (Turns.lift Unmarked.refl).andThen fun _ => forEach_turns _ h _

theorem evaluate_turns (setting : Setting) (e : Expr) : Turns Unmarked (evaluate setting e) := fun p w =>
  Turns.lift (I := Unmarked) Unmarked.refl p w

theorem perform_turns (setting : Setting) (s : Statement) : Turns Unmarked (perform setting s) := by
  cases s with
  | expression e => exact (evaluate_turns setting e).andThen fun _ => .pure Unmarked.refl
  | assign targets e =>
    refine (evaluate_turns setting e).andThen fun v => ?_
    induction targets with
    | nil => exact .pure Unmarked.refl
    | cons t ts ih => exact (assign_turns t v).unmarked.andThen fun _ => ih
  | augmented target op e =>
    refine (evaluate_turns setting target).andThen fun _ => (Turns.lift Unmarked.refl).andThen fun _ => ?_
    exact (evaluate_turns setting e).andThen fun _ => (Turns.lift Unmarked.refl).andThen fun v =>
      (assign_turns target v).unmarked
  | loop | condition | foreign => exact .lack

mutual

/-- Whatever a block does, no name gets bound that begins with `_dollar_`. -/
theorem execute_turns (setting : Setting) : ∀ b : Block, Turns Unmarked (execute setting b)
  | .text s => by
    unfold execute
    exact .modify fun p => Unmarked.refl p.locals
  | .output e => by
    unfold execute
    refine (evaluate_turns setting e).andThen fun v => ?_
    split
    · exact .pure Unmarked.refl
    · exact (Turns.lift Unmarked.refl).andThen fun _ => .modify fun p => Unmarked.refl p.locals
  | .action s => by
    unfold execute
    exact perform_turns setting s
  | .loop target iterable body orElse => by
    unfold execute
    refine (evaluate_turns setting iterable).andThen fun v => Turns.andThen (forAll_turns fun v => ?_) fun _ => ?_
    · exact (assign_turns target v).unmarked.andThen fun _ => executeAll_turns setting body
    · exact .ite (executeAll_turns setting orElse) (.pure Unmarked.refl)
  | .choice branches orElse => by
    unfold execute
    refine (executeFirst_turns setting branches).andThen fun _ => ?_
    exact .ite (executeAll_turns setting orElse) (.pure Unmarked.refl)

theorem executeAll_turns (setting : Setting) : ∀ bs : List Block, Turns Unmarked (executeAll setting bs)
  | [] => by
    unfold executeAll
    exact .pure Unmarked.refl
  | b :: bs => by
    unfold executeAll
    exact (execute_turns setting b).andThen fun _ => executeAll_turns setting bs

theorem executeFirst_turns (setting : Setting) : ∀ branches : List (Expr × List Block),
    Turns Unmarked (executeFirst setting branches)
  | [] => by
    unfold executeFirst
    exact .pure Unmarked.refl
  | (test, body) :: rest => by
    unfold executeFirst
    refine (evaluate_turns setting test).andThen fun v => (Turns.lift Unmarked.refl).andThen fun _ => ?_
    refine .ite ((executeAll_turns setting body).andThen fun _ => .pure Unmarked.refl) ?_
    exact executeFirst_turns setting rest

end

end Step

end NestedSite.Template
