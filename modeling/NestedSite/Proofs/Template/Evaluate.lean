import NestedSite.Proofs.Store.Concur
import NestedSite.Proofs.Template.Check
import NestedSite.Proofs.Template.Conduct
import NestedSite.Template.Render

/-!
# Evaluating and rendering lawfully

What a relation has to let an expression do depends on the property that the expression and its parts have
(`Expr.Lets`). If moreover the names of such expressions mean the same in two scopes, and calls do the same with two
hosts (`Expr.Agrees`), then both evaluations concur (`Expr.eval_concur`), by induction on the expression. Blocks of such
expressions are executed alike in two settings that agree (`Step.execute_concur`, `Template.renderOf_concur`), if loops
are.

That one setting admits what a relation admits (`Step.Lawful`) is its agreement with itself: so templates are rendered
as several relations admit at once (`Template.renderOf_confined`). Expressions without faults read permitted attributes
only, call nothing forbidden, and lack no rule but that of the inversion. What is accepted is rendered as any relation
admits that lets this be done (`AllowsTemplates`, `Template.render_confined`), where including a template has to be
lawful. The terms of the sandbox are such a relation.
-/

namespace NestedSite

open Region (AllowsReads AllowsEdits)

namespace Template

/-- A relation between worlds that lets templates be rendered. -/
class AllowsTemplates (r : Region) (R : World → World → Prop) : Prop extends AllowsEdits r R where
  attributes {v : Value} {name : String} (h : IsPermitted name) : Confined r R (Run.record (.read v name)) fun _ => True
  calls {host : Host} {f : Value} {args : Arguments} (hh : host.Confined r R) (hf : f.In r) (ha : args.In r)
    (hperm : f.isForbidden = false) : Confined r R (Run.call host f args) (·.In r)
  inverts : Confined r R (Run.record (.lack (.unary .invert))) fun _ => True
  breaksOff : Confined r R (Run.record .breakOff) fun _ => True
  errors {source message : String} : Confined r R (Run.note (.log .error source message)) fun _ => True

/-- It is enough that everything may be recorded, that mappings of the region may be written, and errors noted. -/
theorem AllowsTemplates.of_writes {r : Region} {R : World → World → Prop} [AllowsEdits r R] [r.Open]
    (hrecord : ∀ d, Confined r R (Run.record d) fun _ => True) (hwrite : ∀ p, r.dicts p → LetsWrite r R p)
    (herrors : ∀ source message, Confined r R (Run.note (.log .error source message)) fun _ => True) :
    AllowsTemplates r R where
  attributes _ := hrecord _
  calls hh hf ha _ := Run.call_confined_of hrecord hwrite hh hf ha
  inverts := hrecord _
  breaksOff := hrecord _
  errors := herrors _ _

/-- Templates read permitted attributes only. -/
def sandbox : Terms where
  names := IsPermitted

instance (r : Region) [r.Open] : AllowsTemplates r (Conduct r sandbox) where
  attributes h := Run.record_lawful_confined (.inr h)
  calls hh hf ha hperm := Run.call_confined hh hf ha hperm
  inverts := Run.record_lawful_confined rfl
  breaksOff := Run.record_lawful_confined trivial
  errors := Run.step_confined (fun _ => rfl) fun _ hw => ⟨Conduct.quiet rfl fun _ _ _ => rfl, hw, trivial⟩

variable {r : Region} {R : World → World → Prop} {host : Host}

theorem Literal.value_in : ∀ l : Literal, l.value.In r
  | .none => Value.in_none
  | .bool _ => Value.in_bool
  | .int _ => Value.in_int
  | .float _ => Value.in_float
  | .imaginary _ => Value.in_complex
  | .text _ => Value.in_text
  | .bytes _ => Value.in_bytes
  | .ellipsis => Value.in_ellipsis

/-! ## Names -/

theorem mem_bind {bs : Bindings} {name : String} {v : Value} {b : String × Value} (h : b ∈ bs.bind name v) :
    b = (name, v) ∨ b ∈ bs := by
  induction bs with
  | nil => exact .inl (List.mem_singleton.1 h)
  | cons first rest ih =>
    obtain ⟨n, u⟩ := first
    unfold Bindings.bind at h
    split at h
    · obtain rfl := beq_iff_eq.1 ‹_›
      exact (List.mem_cons.1 h).imp_right (List.mem_cons_of_mem _)
    · rcases List.mem_cons.1 h with rfl | h
      · exact .inr List.mem_cons_self
      · exact (ih h).imp_right (List.mem_cons_of_mem _)

theorem mem_bindAll {bs others : Bindings} {b : String × Value} (h : b ∈ bs.bindAll others) : b ∈ bs ∨ b ∈ others := by
  unfold Bindings.bindAll at h
  induction others generalizing bs with
  | nil => exact .inl h
  | cons first rest ih =>
    rcases ih h with h | h
    · rcases mem_bind h with rfl | h
      · exact .inr List.mem_cons_self
      · exact .inl h
    · exact .inr (List.mem_cons_of_mem _ h)

theorem bind_in {bs : Bindings} (h : FieldsIn r bs) {name : String} {v : Value} (hv : v.In r) :
    FieldsIn r (bs.bind name v) := by
  intro b hb
  rcases mem_bind hb with rfl | hb
  · exact hv
  · exact h b hb

theorem bindAll_in {bs others : Bindings} (h : FieldsIn r bs) (ho : FieldsIn r others) :
    FieldsIn r (bs.bindAll others) := fun b hb => (mem_bindAll hb).elim (h b) (ho b)

theorem builtinBindings_in : FieldsIn r builtinBindings := by
  intro b hb
  obtain ⟨b, _, rfl⟩ := List.mem_map.1 hb
  exact Value.in_builtin

/-- What names mean lies in the region. -/
structure Scope.In (r : Region) (scope : Scope) : Prop where
  locals : FieldsIn r scope.locals
  context : ∀ p ∈ scope.context, r.dicts p
  base : FieldsIn r scope.base

theorem Scope.In.find? {scope : Scope} (h : scope.In r) {s : Store} (hs : r.Holds s) {name : String} :
    ((scope.find? s name).getD .none).In r := by
  cases hf : scope.find? s name with
  | none => exact Value.in_none
  | some v =>
    unfold Scope.find? at hf
    split at hf
    · rename_i hl
      cases hf
      exact h.locals.find? hl
    · split at hf
      · rename_i hc
        cases hf
        obtain ⟨p, hp, hv⟩ := Option.bind_eq_some_iff.1 hc
        exact (hs.dicts p (h.context p hp)).find? hv
      · exact h.base.find? hf

/-! ## Expressions -/

/-- What is let be done by expressions with a property, which their parts have as well. -/
structure Expr.Lets (r : Region) (R : World → World → Prop) (host : Host) (P : Expr → Prop) : Prop where
  parts {e : Expr} (h : P e) : ∀ p ∈ e.parts, P p
  attributes {base : Expr} {attr : String} (h : P (.attribute base attr)) (v : Value) :
    Confined r R (Run.record (.read v (scopeKey attr))) fun _ => True
  calls {function : Expr} {arguments : List Expr} {named : List (Option String × Expr)}
    (h : P (.call function arguments named)) {f : Value} {args : Arguments} (hf : f.In r) (ha : args.In r)
    (hperm : f.isForbidden = false) : Confined r R (Run.call host f args) (·.In r)
  gaps {e : Expr} (h : P e) : ∀ gap ∈ e.gap?, Confined r R (Run.record (.lack gap)) fun _ => True

/-- Expressions without faults do what a relation admits that lets templates be rendered. -/
theorem Expr.lets_accepted [AllowsTemplates r R] (hh : host.Confined r R) : Expr.Lets r R host (·.faults = []) where
  parts := Expr.faults_part
  attributes h v := AllowsTemplates.attributes <| isPermitted_scopeKey <| by
    simpa [Expr.ownFaults] using Expr.ownFaults_of_faults h
  calls _ _ _ hf ha hperm := AllowsTemplates.calls hh hf ha hperm
  gaps h gap hgap := Expr.eq_of_gap? h hgap ▸ AllowsTemplates.inverts

/-- Expressions with a property are evaluated alike in two scopes, with two hosts, from a world on: their names mean the
same in both, and so do calls. -/
structure Expr.Agrees (r : Region) (R : World → World → Prop) (start : World) (host host' : Host) (scope scope' : Scope)
    (P : Expr → Prop) : Prop extends Expr.Lets r R host P where
  names {id : String} (h : P (.name id)) {w : World} (hw : R start w) (hr : r.Holds w.store) :
    scope'.find? w.store (scopeKey id) = scope.find? w.store (scopeKey id) ∧
      ((scope.find? w.store (scopeKey id)).getD .none).In r
  hosts {f : Value} {args : Arguments} (hf : f.In r) (ha : args.In r) : Run.call host' f args = Run.call host f args

/-- What is evaluated in one scope of the region, with one host, agrees with itself. -/
theorem Expr.Lets.agrees {P : Expr → Prop} (h : Expr.Lets r R host P) {scope : Scope} (hs : scope.In r)
    (start : World) : Expr.Agrees r R start host host scope scope P where
  toLets := h
  names _ _ _ hr := ⟨rfl, hs.find? hr⟩
  hosts _ _ := rfl

section Eval

variable [AllowsReads r R] {start : World} {host' : Host} {scope scope' : Scope} {P : Expr → Prop}
  (hagrees : Expr.Agrees r R start host host' scope scope' P)

include hagrees

set_option linter.unusedSectionVars false in
mutual

theorem Expr.eval_concur : ∀ {e : Expr}, P e → Concur r R start (e.eval host scope) (e.eval host' scope') (·.In r)
  | .literal value, _ => by
    unfold Expr.eval
    exact .pure value.value_in
  | .name id, h => by
    unfold Expr.eval
    exact .ofStore fun w hw hr => ⟨congrArg (Option.getD · .none) (hagrees.names h hw hr).1, (hagrees.names h hw hr).2⟩
  | .attribute base attr, h => by
    unfold Expr.eval
    refine (Expr.eval_concur (hagrees.parts h _ (by simp [Expr.parts]))).bind fun v hv => ?_
    exact (Run.readAttribute_confined hv (hagrees.attributes h v)).concur
  | .subscript base index, h => by
    unfold Expr.eval
    refine (Expr.eval_concur (hagrees.parts h _ (by simp [Expr.parts]))).bind fun v hv => ?_
    refine (Expr.eval_concur (hagrees.parts h _ (by simp [Expr.parts]))).bind fun i hi => ?_
    exact (Run.subscript_confined hv hi).concur
  | .slice lower upper step, h => by
    unfold Expr.eval
    refine (evalOption_concur fun e he => hagrees.parts h e (by simp_all [Expr.parts])).bind fun a ha => ?_
    refine (evalOption_concur fun e he => hagrees.parts h e (by simp_all [Expr.parts])).bind fun b hb => ?_
    refine (evalOption_concur fun e he => hagrees.parts h e (by simp_all [Expr.parts])).bind fun c hc => ?_
    exact .pure ⟨ha, hb, hc⟩
  | .call function arguments named, h => by
    unfold Expr.eval
    refine (Expr.eval_concur (hagrees.parts h _ (by simp [Expr.parts]))).bind fun f hf => ?_
    -- the arguments cannot change what is called, so what passed the guard is what is called
    refine Run.guardCall_confined.concur.bind fun _ hperm => ?_
    refine (evalAll_concur fun e he => hagrees.parts h e (by simp [Expr.parts, he])).bind fun vs hvs => ?_
    refine (evalNamed_concur (by simp [FieldsIn]) fun a ha => hagrees.parts h a.2 ?_).bind fun named hnamed => ?_
    · simp only [Expr.parts, List.mem_append, List.mem_map]
      exact .inr ⟨a, ha, rfl⟩
    · rw [hagrees.hosts hf ⟨hvs, hnamed⟩]
      exact (hagrees.calls h hf ⟨hvs, hnamed⟩ hperm).concur
  | .binary op left right, h => by
    unfold Expr.eval
    refine (Run.needRule_confined fun hop => hagrees.gaps h _ (by simp [Expr.gap?, hop])).concur.seq ?_
    refine (Expr.eval_concur (hagrees.parts h _ (by simp [Expr.parts]))).bind fun a ha => ?_
    refine (Expr.eval_concur (hagrees.parts h _ (by simp [Expr.parts]))).bind fun b hb => ?_
    exact (Run.binary_confined ha hb).concur
  | .unary op operand, h => by
    unfold Expr.eval
    refine (Run.needRule_confined fun hop => hagrees.gaps h _ (by simp [Expr.gap?, hop])).concur.seq ?_
    refine (Expr.eval_concur (hagrees.parts h _ (by simp [Expr.parts]))).bind fun a _ => ?_
    exact Run.unary_confined.concur
  | .boolean disjunction operands, h => by
    unfold Expr.eval
    exact evalUntil_concur Value.in_none fun e he => hagrees.parts h e (by simp [Expr.parts, he])
  | .compare first rest, h => by
    unfold Expr.eval
    refine (Expr.eval_concur (hagrees.parts h _ (by simp [Expr.parts]))).bind fun a ha => ?_
    refine evalChain_concur ha fun e he => hagrees.parts h e.2 ?_
    exact List.mem_cons_of_mem _ (List.mem_map_of_mem he)
  | .conditional test body orElse, h => by
    unfold Expr.eval
    refine (Expr.eval_concur (hagrees.parts h _ (by simp [Expr.parts]))).bind fun v _ => ?_
    refine Run.truth_confined.concur.bind fun _ _ => .ite (fun _ => ?_) fun _ => ?_
    · exact Expr.eval_concur (hagrees.parts h _ (by simp [Expr.parts]))
    · exact Expr.eval_concur (hagrees.parts h _ (by simp [Expr.parts]))
  | .list items, h => by
    unfold Expr.eval
    exact (evalAll_concur fun e he => hagrees.parts h e he).bind fun _ hvs => (Run.newList_confined hvs).concur
  | .tuple items, h => by
    unfold Expr.eval
    exact (evalAll_concur fun e he => hagrees.parts h e he).bind fun _ hvs => .pure (Value.in_tuple.2 hvs)
  | .set items, h => by
    unfold Expr.eval
    exact (evalElements_concur (by simp) fun e he => hagrees.parts h e he).bind fun _ hvs =>
      (Run.newSet_confined hvs).concur
  | .dict entries, h => by
    unfold Expr.eval
    refine (evalEntries_concur Entries.in_nil fun e he => ⟨fun k hk => hagrees.parts h k ?_,
      hagrees.parts h e.2 ?_⟩).bind fun _ hes => (Run.newDict_in hes).concur
    · exact List.mem_append_left _ (List.mem_filterMap.2 ⟨e, he, hk⟩)
    · exact List.mem_append_right _ (List.mem_map_of_mem he)
  | .joined parts, h => by
    unfold Expr.eval
    exact (evalTexts_concur fun e he => hagrees.parts h e he).bind fun _ _ => .pure Value.in_text
  | .formatted value conversion spec, h => by
    unfold Expr.eval
    refine (Expr.eval_concur (hagrees.parts h _ (by simp [Expr.parts]))).bind fun v _ => ?_
    have hspec : ∀ e ∈ spec, P e := fun e he => hagrees.parts h e (by simp_all [Expr.parts])
    have written : ∀ u (spec : String), Confined r R
        (do return Value.text (← Run.read fun s => s.format u spec)) (·.In r) := fun _ _ =>
      (Run.gives_confined fun _ => .any _).bind fun _ _ => .pure Value.in_text
    have finish : ∀ u, Concur r R start
        (do
          let spec ← match ← evalOption host scope spec with
            | .text t => pure t
            | _ => pure ""
          return Value.text (← Run.read fun s => s.format u spec))
        (do
          let spec ← match ← evalOption host' scope' spec with
            | .text t => pure t
            | _ => pure ""
          return Value.text (← Run.read fun s => s.format u spec)) (·.In r) := by
      refine fun u => (evalOption_concur hspec).bind fun w _ => ?_
      split
      · exact (written u _).concur
      · exact (written u "").concur
    split
    · exact (Run.gives_confined fun _ => .any _).concur.bind fun u _ => finish u
    · exact finish v
  | .starred _, h | .foreign _, h => by
    unfold Expr.eval
    exact (Run.lack_confined (hagrees.gaps h _ rfl)).concur

theorem evalOption_concur : ∀ {o : Option Expr}, (∀ e ∈ o, P e) →
    Concur r R start (evalOption host scope o) (evalOption host' scope' o) (·.In r)
  | none, _ => by
    unfold evalOption
    exact .pure Value.in_none
  | some e, h => by
    unfold evalOption
    exact Expr.eval_concur (h e rfl)

theorem evalAll_concur : ∀ {es : List Expr}, (∀ e ∈ es, P e) →
    Concur r R start (evalAll host scope es) (evalAll host' scope' es) fun vs => ∀ v ∈ vs, v.In r
  | [], _ => by
    unfold evalAll
    exact .pure (by simp)
  | e :: es, h => by
    obtain ⟨he, hes⟩ := List.forall_mem_cons.1 h
    unfold evalAll
    refine (Expr.eval_concur he).bind fun v hv => (evalAll_concur hes).bind fun vs hvs => .pure ?_
    exact List.forall_mem_cons.2 ⟨hv, hvs⟩

theorem evalNamed_concur {done : List (String × Value)} (hd : FieldsIn r done) :
    ∀ {es : List (Option String × Expr)}, (∀ e ∈ es, P e.2) →
      Concur r R start (evalNamed host scope done es) (evalNamed host' scope' done es) (FieldsIn r)
  | [], _ => by
    unfold evalNamed
    exact .pure hd
  | (name, e) :: es, h => by
    obtain ⟨he, hes⟩ := List.forall_mem_cons.1 h
    unfold evalNamed
    refine (Expr.eval_concur he).bind fun v hv => evalNamed_concur ?_ hes
    cases name with
    | none => exact hd
    | some n => exact bind_in hd hv

theorem evalUntil_concur {disjunction : Bool} {last : Value} (hl : last.In r) :
    ∀ {es : List Expr}, (∀ e ∈ es, P e) →
      Concur r R start (evalUntil host scope disjunction last es) (evalUntil host' scope' disjunction last es) (·.In r)
  | [], _ => by
    unfold evalUntil
    exact .pure hl
  | e :: es, h => by
    obtain ⟨he, hes⟩ := List.forall_mem_cons.1 h
    unfold evalUntil
    refine (Expr.eval_concur he).bind fun v hv => Run.truth_confined.concur.bind fun _ _ => ?_
    exact .ite (fun _ => .pure hv) fun _ => evalUntil_concur hv hes

theorem evalChain_concur {left : Value} (hl : left.In r) :
    ∀ {es : List (CompareOp × Expr)}, (∀ e ∈ es, P e.2) →
      Concur r R start (evalChain host scope left es) (evalChain host' scope' left es) (·.In r)
  | [], _ => by
    unfold evalChain
    exact .pure Value.in_bool
  | (op, e) :: es, h => by
    obtain ⟨he, hes⟩ := List.forall_mem_cons.1 h
    unfold evalChain
    refine (Expr.eval_concur he).bind fun v hv => (Run.compare_confined hl hv).concur.bind fun _ _ => ?_
    exact .ite (fun _ => evalChain_concur hv hes) fun _ => .pure Value.in_bool

theorem evalElements_concur {done : List Value} (hd : ∀ v ∈ done, v.In r) :
    ∀ {es : List Expr}, (∀ e ∈ es, P e) →
      Concur r R start (evalElements host scope done es) (evalElements host' scope' done es) fun vs => ∀ v ∈ vs, v.In r
  | [], _ => by
    unfold evalElements
    exact .pure hd
  | e :: es, h => by
    obtain ⟨he, hes⟩ := List.forall_mem_cons.1 h
    unfold evalElements
    refine (Expr.eval_concur he).bind fun v hv => (Value.key_confined hv).concur.bind fun k hk => ?_
    exact evalElements_concur (fun u hu => (Run.mem_addKey hu).elim (hd u) fun hu => hu ▸ hk) hes

theorem evalEntries_concur {done : Entries} (hd : done.In r) :
    ∀ {es : List (Option Expr × Expr)}, (∀ e ∈ es, (∀ k ∈ e.1, P k) ∧ P e.2) →
      Concur r R start (evalEntries host scope done es) (evalEntries host' scope' done es) (Entries.In r)
  | [], _ => by
    unfold evalEntries
    exact .pure hd
  | (k, e) :: es, h => by
    obtain ⟨he, hes⟩ := List.forall_mem_cons.1 h
    unfold evalEntries
    refine (evalOption_concur he.1).bind fun k hk => (Expr.eval_concur he.2).bind fun v hv => ?_
    exact (Value.key_confined hk).concur.bind fun k hk => evalEntries_concur (hd.insert hk hv) hes

theorem evalTexts_concur : ∀ {es : List Expr}, (∀ e ∈ es, P e) →
    Concur r R start (evalTexts host scope es) (evalTexts host' scope' es) fun _ => True
  | [], _ => by
    unfold evalTexts
    exact .pure trivial
  | e :: es, h => by
    obtain ⟨he, hes⟩ := List.forall_mem_cons.1 h
    unfold evalTexts
    refine (Expr.eval_concur he).bind fun v _ => Run.text_confined.concur.bind fun _ _ => ?_
    exact (evalTexts_concur hes).bind fun _ _ => .pure trivial

end

end Eval

/-! ## Steps of a rendering -/

/-- The step keeps to the region, and so does what has been assigned. -/
def Step.Confined {α : Type} (r : Region) (R : World → World → Prop) (m : Step α) (Q : α → Prop) : Prop :=
  ∀ p : Progress, FieldsIn r p.locals → NestedSite.Confined r R (m.run p) fun x => Q x.1 ∧ FieldsIn r x.2.locals

namespace Step

namespace Confined

variable {R : World → World → Prop} {α β : Type} {Q : α → Prop} {P : β → Prop} {m : Step α} {f : α → Step β}

theorem pure [AllowsReads r R] {a : α} (h : Q a) : Step.Confined r R (Pure.pure a) Q := fun _ hp => .pure ⟨h, hp⟩

theorem bind [AllowsReads r R] (h : Step.Confined r R m Q) (k : ∀ a, Q a → Step.Confined r R (f a) P) :
    Step.Confined r R (m >>= f) P := by
  intro p hp
  rw [StateT.run_bind]
  exact (h p hp).bind fun x hx => k x.1 hx.1 x.2 hx.2

theorem lift [AllowsReads r R] {n : Run α} (h : NestedSite.Confined r R n Q) : Step.Confined r R (monadLift n) Q :=
  fun p hp => by
    rw [StateT.run_monadLift]
    exact h.bind fun a ha => .pure ⟨ha, hp⟩

theorem throw [AllowsReads r R] {e : Fault} : Step.Confined r R (MonadExcept.throw e) Q := fun p _ =>
  NestedSite.Confined.throw_bind (f := fun a => Pure.pure (a, p))

theorem ite {c : Prop} [Decidable c] {n : Step α} (h : Step.Confined r R m Q) (k : Step.Confined r R n Q) :
    Step.Confined r R (if c then m else n) Q := by
  split
  · exact h
  · exact k

theorem modify [AllowsReads r R] {g : Progress → Progress}
    (h : ∀ p, FieldsIn r p.locals → FieldsIn r (g p).locals) : Step.Confined r R (modify g) fun _ => True :=
  fun p hp => .pure ⟨trivial, h p hp⟩

theorem forM [AllowsReads r R] {γ : Type} {g : γ → Step PUnit} :
    ∀ {xs : List γ}, (∀ x ∈ xs, Step.Confined r R (g x) fun _ => True) → Step.Confined r R (xs.forM g) fun _ => True
  | [], _ => .pure trivial
  | _ :: _, h => (h _ List.mem_cons_self).bind fun _ _ => forM fun y hy => h y (List.mem_cons_of_mem _ hy)

end Confined

theorem put_confined {R : World → World → Prop} [AllowsReads r R] {text : String} :
    Step.Confined r R (put text) fun _ => True := .modify fun _ hp => hp

mutual

theorem assign_confined {R : World → World → Prop} [AllowsReads r R] :
    ∀ {target : Expr}, targetFault? target = none → ∀ {v : Value}, v.In r →
      Step.Confined r R (assign target v) fun _ => True
  | .name id, _, v, h => by
    unfold assign
    exact .modify fun _ hp => bind_in hp h
  | .tuple targets, ht, v, h | .list targets, ht, v, h => by
    unfold assign
    refine (Confined.lift (Run.items_confined h)).bind fun vs hvs => .ite ?_ (assignAll_confined ht hvs)
    exact (Confined.throw (Q := fun _ => False)).bind fun _ h => h.elim

theorem assignAll_confined {R : World → World → Prop} [AllowsReads r R] :
    ∀ {targets : List Expr}, targetsFault? targets = none → ∀ {vs : List Value}, (∀ v ∈ vs, v.In r) →
      Step.Confined r R (assignAll targets vs) fun _ => True
  | [], _, _, _ => .pure trivial
  | _ :: _, _, [], _ => .pure trivial
  | t :: ts, ht, v :: vs, h => by
    obtain ⟨hv, hvs⟩ := List.forall_mem_cons.1 h
    obtain ⟨hfirst, hrest⟩ := Option.or_eq_none_iff.1 ((Option.or_eq_orElse ..).trans ht)
    unfold assignAll
    exact (assign_confined hfirst hv).bind fun _ _ => assignAll_confined hrest hvs

end

theorem left_confined {R : World → World → Prop} [AllowsReads r R] {place : Nat} :
    NestedSite.Confined r R (Run.left place) fun _ => True := Run.store_confined.bind fun _ _ => .pure trivial

end Step

/-- The steps concur from a world on, and what has been assigned keeps to the region. -/
def Step.Concur {α : Type} (r : Region) (R : World → World → Prop) (start : World) (m m' : Step α) (Q : α → Prop) :
    Prop :=
  ∀ p : Progress, FieldsIn r p.locals →
    NestedSite.Concur r R start (m.run p) (m'.run p) fun x => Q x.1 ∧ FieldsIn r x.2.locals

namespace Step

theorem Confined.concur {α : Type} [AllowsReads r R] {start : World} {m : Step α} {Q : α → Prop}
    (h : Step.Confined r R m Q) : Step.Concur r R start m m Q := fun p hp => (h p hp).concur

namespace Concur

variable {start : World} {α β : Type} {Q : α → Prop} {P : β → Prop} {m m' : Step α} {f f' : α → Step β}

theorem confined [AllowsReads r R] (h : ∀ start, Step.Concur r R start m m Q) : Step.Confined r R m Q :=
  fun p hp => NestedSite.Concur.confined fun start => h start p hp

theorem pure {a : α} (h : Q a) : Step.Concur r R start (Pure.pure a) (Pure.pure a) Q := fun _ hp => .pure ⟨h, hp⟩

theorem bind (h : Step.Concur r R start m m' Q) (k : ∀ a, Q a → Step.Concur r R start (f a) (f' a) P) :
    Step.Concur r R start (m >>= f) (m' >>= f') P := by
  intro p hp
  rw [StateT.run_bind, StateT.run_bind]
  exact (h p hp).bind fun x hx => k x.1 hx.1 x.2 hx.2

theorem lift {n n' : Run α} (h : NestedSite.Concur r R start n n' Q) :
    Step.Concur r R start (monadLift n) (monadLift n') Q := fun p hp => by
  rw [StateT.run_monadLift, StateT.run_monadLift]
  exact h.bind fun a ha => .pure ⟨ha, hp⟩

theorem ite {c : Prop} [Decidable c] {n n' : Step α} (h : Step.Concur r R start m m' Q)
    (k : Step.Concur r R start n n' Q) : Step.Concur r R start (if c then m else n) (if c then m' else n') Q := by
  split
  · exact h
  · exact k

end Concur

theorem forEach_concur [AllowsTemplates r R] {start : World} {cursor : Nat} (hc : r.cursors cursor)
    {body body' : Value → Step Unit} (hb : ∀ v, v.In r → Step.Concur r R start (body v) (body' v) fun _ => True) :
    ∀ (n : Nat) {looped : Bool},
      Step.Concur r R start (forEach cursor body n looped) (forEach cursor body' n looped) fun _ => True
  | 0, _ => ((Confined.lift AllowsTemplates.breaksOff).bind fun _ _ => .throw).concur
  | n + 1, _ => by
    unfold forEach
    refine (Confined.lift (Run.next?_confined hc)).concur.bind fun v hv => ?_
    split
    · exact .pure trivial
    · exact (hb _ (hv _ rfl)).bind fun _ _ => forEach_concur hc hb n

theorem forAll_concur [AllowsTemplates r R] {start : World} {v : Value} (hv : v.In r) {body body' : Value → Step Unit}
    (hb : ∀ v, v.In r → Step.Concur r R start (body v) (body' v) fun _ => True) :
    Step.Concur r R start (forAll v body) (forAll v body') fun _ => True :=
  (Confined.lift (Run.cursor_confined hv)).concur.bind fun _ hp => (Confined.lift left_confined).concur.bind fun _ _ =>
    forEach_concur hp hb _

/-- Regions and relations that let blocks of expressions with a property be executed alike in two settings, each from a
world on. A loop may rely on its body being executed so in each of the regions. -/
structure Agrees {ι : Type} (r : ι → Region) (R : ι → World → World → Prop) (start : ι → World) (P : Expr → Prop)
    (setting setting' : Setting) : Prop where
  expressions (i : ι) {locals : Bindings} (h : FieldsIn (r i) locals) :
    Expr.Agrees (r i) (R i) (start i) setting.host setting'.host ⟨locals, setting.context, setting.base⟩
      ⟨locals, setting'.context, setting'.base⟩ P
  loops {body : Setting → Value → Step Unit}
    (hb : ∀ i v, v.In (r i) → Step.Concur (r i) (R i) (start i) (body setting v) (body setting' v) fun _ => True)
    (i : ι) {v : Value} (hv : v.In (r i)) :
    Step.Concur (r i) (R i) (start i) (forAll v (body setting)) (forAll v (body setting')) fun _ => True

section Execute

variable {ι : Type} {r : ι → Region} {R : ι → World → World → Prop} {start : ι → World}
  [∀ i, AllowsReads (r i) (R i)] {P : Expr → Prop} {setting setting' : Setting}
  (hs : Agrees r R start P setting setting')

include hs

theorem evaluate_concur {e : Expr} (h : P e) (i : ι) :
    Step.Concur (r i) (R i) (start i) (evaluate setting e) (evaluate setting' e) (·.In (r i)) := fun p hp =>
  Concur.lift (Expr.eval_concur (hs.expressions i hp) h) p hp

theorem perform_concur {s : Statement} (h : s.Of P) (i : ι) :
    Step.Concur (r i) (R i) (start i) (perform setting s) (perform setting' s) fun _ => True := by
  unfold perform
  split
  · exact (evaluate_concur hs h i).bind fun _ _ => .pure trivial
  · exact (evaluate_concur hs h.2 i).bind fun v hv => (Confined.forM fun t ht => assign_confined (h.1 t ht) hv).concur
  · obtain ⟨htarget, hcurrent, hop, hvalue⟩ := h
    refine (evaluate_concur hs hcurrent i).bind fun current hcurrent => ?_
    refine Concur.bind (Q := fun _ => True) (Confined.lift (Run.needRule_confined fun hnot => ?_)).concur fun _ _ => ?_
    · exact absurd hop (Bool.eq_false_iff.1 hnot)
    refine (evaluate_concur hs hvalue i).bind fun v hv => ?_
    refine ((Confined.lift (Run.binary_confined hcurrent hv)).bind fun u hu => ?_).concur
    exact assign_confined htarget hu
  · cases s <;> simp_all [Statement.Of]

set_option linter.unusedSectionVars false in
mutual

theorem execute_concur : ∀ {b : Block}, b.Of P → ∀ i,
    Step.Concur (r i) (R i) (start i) (execute setting b) (execute setting' b) fun _ => True
  | .text _, _, _ => by
    unfold execute
    exact put_confined.concur
  | .output e, h, i => by
    unfold execute
    refine (evaluate_concur hs h i).bind fun v _ => ?_
    split
    · exact .pure trivial
    · exact ((Confined.lift Run.text_confined).bind fun _ _ => put_confined).concur
  | .action s, h, i => by
    unfold execute
    exact perform_concur hs h i
  | .loop target iterable body orElse, h, i => by
    obtain ⟨htarget, hiterable, hbody, horElse⟩ := h
    unfold execute
    refine (evaluate_concur hs hiterable i).bind fun v hv => ?_
    let round (setting : Setting) (v : Value) : Step Unit := do
      assign target v
      executeAll setting body
    have hround (i : ι) (v : Value) (hv : v.In (r i)) :
        Step.Concur (r i) (R i) (start i) (round setting v) (round setting' v) fun _ => True :=
      (assign_confined htarget hv).concur.bind fun _ _ => executeAll_concur hbody i
    refine (hs.loops hround i hv).bind fun _ _ => ?_
    · exact .ite (executeAll_concur horElse i) (.pure trivial)
  | .choice branches orElse, h, i => by
    unfold execute
    refine (executeFirst_concur h.1 i).bind fun _ _ => ?_
    exact .ite (executeAll_concur h.2 i) (.pure trivial)

theorem executeAll_concur : ∀ {bs : List Block}, AllOf P bs → ∀ i,
    Step.Concur (r i) (R i) (start i) (executeAll setting bs) (executeAll setting' bs) fun _ => True
  | [], _, _ => by
    unfold executeAll
    exact .pure trivial
  | b :: bs, h, i => by
    unfold executeAll
    exact (execute_concur h.1 i).bind fun _ _ => executeAll_concur h.2 i

theorem executeFirst_concur : ∀ {branches : List (Expr × List Block)}, BranchesOf P branches → ∀ i,
    Step.Concur (r i) (R i) (start i) (executeFirst setting branches) (executeFirst setting' branches) fun _ => True
  | [], _, _ => by
    unfold executeFirst
    exact .pure trivial
  | (test, body) :: rest, h, i => by
    obtain ⟨htest, hbody, hrest⟩ := h
    unfold executeFirst
    refine (evaluate_concur hs htest i).bind fun v _ => (Confined.lift Run.truth_confined).concur.bind fun _ _ => ?_
    exact .ite ((executeAll_concur hbody i).bind fun _ _ => .pure trivial) (executeFirst_concur hrest i)

end

end Execute

/-- Regions and relations that let blocks of expressions with a property be executed in a setting. A loop may rely on
its body being executed so in each of the regions. -/
structure Lawful {ι : Type} (r : ι → Region) (R : ι → World → World → Prop) (P : Expr → Prop)
    (setting : Setting) : Prop where
  expressions (i : ι) : Expr.Lets (r i) (R i) setting.host P
  context (i : ι) : ∀ p ∈ setting.context, (r i).dicts p
  base (i : ι) : FieldsIn (r i) setting.base
  loops {body : Value → Step Unit} (hb : ∀ i v, v.In (r i) → Step.Confined (r i) (R i) (body v) fun _ => True)
    (i : ι) {v : Value} (hv : v.In (r i)) : Step.Confined (r i) (R i) (forAll v body) fun _ => True

/-- What is executed lawfully in one setting agrees with itself, from each world on. -/
theorem Lawful.agrees {ι : Type} {r : ι → Region} {R : ι → World → World → Prop} [∀ i, AllowsReads (r i) (R i)]
    {P : Expr → Prop} {setting : Setting} (hs : Lawful r R P setting) :
    Agrees (fun i : ι × World => r i.1) (fun i => R i.1) (fun i => i.2) P setting setting where
  expressions i _ hlocals := (hs.expressions i.1).agrees ⟨hlocals, hs.context i.1, hs.base i.1⟩ i.2
  loops hb i _ hv := (hs.loops (fun j v hv => Concur.confined fun start => hb (j, start) v hv) i.1 hv).concur

end Step

end Template

/-- A template of expressions with a property is rendered alike where the settings agree. -/
theorem Template.renderOf_concur {ι : Type} {r : ι → Region} {R : ι → World → World → Prop} {start : ι → World}
    [∀ i, AllowsReads (r i) (R i)] {P : Expr → Prop} {host host' : Host} {context context' : Option Nat}
    {base base' : Bindings} (hs : Step.Agrees r R start P ⟨host, context, base⟩ ⟨host', context', base'⟩) {t : Template}
    (ht : AllOf P t.blocks) (i : ι) :
    Concur (r i) (R i) (start i) (t.render host base context) (t.render host' base' context') fun _ => True :=
  (Step.executeAll_concur hs ht i {} (by simp [FieldsIn])).bind fun _ _ => .pure trivial

/-- A template of expressions with a property is rendered as all those regions and relations admit. -/
theorem Template.renderOf_confined {ι : Type} {r : ι → Region} {R : ι → World → World → Prop}
    [∀ i, AllowsReads (r i) (R i)] {P : Expr → Prop} {host : Host} {context : Option Nat} {base : Bindings}
    (hs : Step.Lawful r R P ⟨host, context, base⟩) {t : Template} (ht : AllOf P t.blocks) (i : ι) :
    Confined (r i) (R i) (t.render host base context) fun _ => True :=
  Concur.confined fun start => renderOf_concur hs.agrees ht (i, start)

/-- A template without faults is rendered as a relation admits that lets templates be rendered. -/
theorem Template.render_confined {r : Region} {R : World → World → Prop} [Template.AllowsTemplates r R] {host : Host}
    (hh : host.Confined r R) {base : Template.Bindings} (hb : FieldsIn r base) {context : Option Nat}
    (hc : ∀ p ∈ context, r.dicts p) {t : Template} (ht : t.Accepted) :
    Confined r R (t.render host base context) fun _ => True := by
  have hs : Step.Lawful (fun _ : Unit => r) (fun _ => R) (·.faults = []) ⟨host, context, base⟩ :=
    { expressions := fun _ => Expr.lets_accepted hh
      context := fun _ => hc
      base := fun _ => hb
      loops := fun hb _ _ hv => Step.Concur.confined fun _ => Step.forAll_concur hv fun v hv => (hb () v hv).concur }
  exact renderOf_confined hs ht ()

theorem Template.baseScope_in {r : Region} {imports : Template.Bindings} (h : FieldsIn r imports) :
    FieldsIn r (Template.baseScope imports) := Template.bindAll_in Template.builtinBindings_in h

end NestedSite
