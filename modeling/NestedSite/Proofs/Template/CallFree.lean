import NestedSite.Proofs.Template.Check
import NestedSite.Template.Render

/-!
# Templates without calls

`Expr.all`, `Block.all` and `Template.callFree` look at every expression that is written in a template, whole and part.
What a template without calls does cannot depend on its host (`Template.render_host`): the host is only asked where
something is called.
-/

namespace NestedSite

namespace Template

/-! ## All expressions -/

def Expr.isCall : Expr → Bool
  | .call .. => true
  | _ => false

mutual

/-- Whether an expression and all that is written in it have a property. -/
def Expr.all (p : Expr → Bool) : Expr → Bool
  | e@(.attribute base _) => p e && base.all p
  | e@(.subscript base index) => p e && base.all p && index.all p
  | e@(.slice lower upper step) => p e && optionAll p lower && optionAll p upper && optionAll p step
  | e@(.call function arguments named) => p e && function.all p && listAll p arguments && namedAll p named
  | e@(.binary _ left right) => p e && left.all p && right.all p
  | e@(.unary _ operand) => p e && operand.all p
  | e@(.boolean _ operands) => p e && listAll p operands
  | e@(.compare first rest) => p e && first.all p && compareAll p rest
  | e@(.conditional test body orElse) => p e && test.all p && body.all p && orElse.all p
  | e@(.list items) | e@(.tuple items) | e@(.set items) | e@(.joined items) => p e && listAll p items
  | e@(.dict entries) => p e && entriesAll p entries
  | e@(.formatted value _ spec) => p e && value.all p && optionAll p spec
  | e@(.starred value) => p e && value.all p
  | e@(.literal _) | e@(.name _) | e@(.foreign _) => p e

def optionAll (p : Expr → Bool) : Option Expr → Bool
  | none => true
  | some e => e.all p

def listAll (p : Expr → Bool) : List Expr → Bool
  | [] => true
  | e :: es => e.all p && listAll p es

def namedAll (p : Expr → Bool) : List (Option String × Expr) → Bool
  | [] => true
  | (_, e) :: es => e.all p && namedAll p es

def compareAll (p : Expr → Bool) : List (CompareOp × Expr) → Bool
  | [] => true
  | (_, e) :: es => e.all p && compareAll p es

def entriesAll (p : Expr → Bool) : List (Option Expr × Expr) → Bool
  | [] => true
  | (k, e) :: es => optionAll p k && e.all p && entriesAll p es

end

variable {p : Expr → Bool}

theorem optionAll_iff {o : Option Expr} : optionAll p o = true ↔ ∀ e ∈ o, e.all p = true := by
  cases o <;> simp [optionAll]

theorem listAll_iff {es : List Expr} : listAll p es = true ↔ ∀ e ∈ es, e.all p = true := by
  induction es with
  | nil => simp [listAll]
  | cons e es ih => rw [listAll, Bool.and_eq_true, ih, List.forall_mem_cons]

theorem namedAll_iff {es : List (Option String × Expr)} : namedAll p es = true ↔ ∀ e ∈ es, e.2.all p = true := by
  induction es with
  | nil => simp [namedAll]
  | cons e es ih =>
    obtain ⟨name, e⟩ := e
    rw [namedAll, Bool.and_eq_true, ih, List.forall_mem_cons]

theorem compareAll_iff {es : List (CompareOp × Expr)} : compareAll p es = true ↔ ∀ e ∈ es, e.2.all p = true := by
  induction es with
  | nil => simp [compareAll]
  | cons e es ih =>
    obtain ⟨op, e⟩ := e
    rw [compareAll, Bool.and_eq_true, ih, List.forall_mem_cons]

theorem entriesAll_iff {es : List (Option Expr × Expr)} :
    entriesAll p es = true ↔ ∀ e ∈ es, (∀ k ∈ e.1, k.all p = true) ∧ e.2.all p = true := by
  induction es with
  | nil => simp [entriesAll]
  | cons e es ih =>
    obtain ⟨k, e⟩ := e
    rw [entriesAll, Bool.and_eq_true, Bool.and_eq_true, optionAll_iff, ih, List.forall_mem_cons]

theorem Expr.of_all {e : Expr} (h : e.all p = true) : p e = true := by
  cases e <;> simp_all [all]

/-- What all of an expression have, all of its parts have. -/
theorem Expr.all_part {e : Expr} (h : e.all p = true) : ∀ q ∈ e.parts, q.all p = true := by
  intro q hq
  cases e <;> simp only [all, Bool.and_eq_true, optionAll_iff, listAll_iff, namedAll_iff, compareAll_iff,
    entriesAll_iff] at h <;> simp only [parts, List.mem_cons, List.mem_append, List.mem_map, List.mem_filterMap,
    Option.mem_toList, List.not_mem_nil, or_false] at hq
  case dict =>
    rcases hq with ⟨a, ha, hk⟩ | ⟨a, ha, rfl⟩
    · exact (h.2 a ha).1 q hk
    · exact (h.2 a ha).2
  all_goals grind

/-- Whether all expressions in a statement, whole and part, have a property. -/
def Statement.all (p : Expr → Bool) : Statement → Bool
  | .expression e | .condition e => e.all p
  | .assign targets e => listAll p targets && e.all p
  | .augmented target _ e => target.all p && e.all p
  | .loop target iterable => target.all p && iterable.all p
  | .foreign _ => true

mutual

/-- Whether all expressions in a block, whole and part, have a property. -/
def Block.all (p : Expr → Bool) : Block → Bool
  | .text _ => true
  | .output e => e.all p
  | .action s => s.all p
  | .loop target iterable body orElse => target.all p && iterable.all p && blocksAll p body && blocksAll p orElse
  | .choice branches orElse => branchesAll p branches && blocksAll p orElse

def blocksAll (p : Expr → Bool) : List Block → Bool
  | [] => true
  | b :: bs => b.all p && blocksAll p bs

def branchesAll (p : Expr → Bool) : List (Expr × List Block) → Bool
  | [] => true
  | (test, body) :: rest => test.all p && blocksAll p body && branchesAll p rest

end

/-! ## Further properties of all expressions -/

section And

variable {P : Expr → Prop} {ι : Type} {p : ι → Expr → Bool}

theorem Statement.Of.and {s : Statement} (h : s.Of P) (k : ∀ i, s.all (p i) = true) :
    s.Of fun e => P e ∧ ∀ i, e.all (p i) = true := by
  cases s <;> simp only [Statement.all, Bool.and_eq_true] at k
  case expression => exact ⟨h, k⟩
  case assign => exact ⟨h.1, h.2, fun i => (k i).2⟩
  case augmented => exact ⟨h.1, ⟨h.2.1, fun i => (k i).1⟩, h.2.2.1, h.2.2.2, fun i => (k i).2⟩
  all_goals exact h.elim

mutual

theorem Block.Of.and : ∀ {b : Block}, b.Of P → (∀ i, b.all (p i) = true) → b.Of fun e => P e ∧ ∀ i, e.all (p i) = true
  | .text _, _, _ => trivial
  | .output _, h, k => ⟨h, k⟩
  | .action _, h, k => Statement.Of.and h k
  | .loop .., h, k => by
    simp only [Block.all, Bool.and_eq_true] at k
    exact ⟨h.1, ⟨h.2.1, fun i => (k i).1.1.2⟩, AllOf.and h.2.2.1 fun i => (k i).1.2, AllOf.and h.2.2.2 fun i => (k i).2⟩
  | .choice .., h, k => by
    simp only [Block.all, Bool.and_eq_true] at k
    exact ⟨BranchesOf.and h.1 fun i => (k i).1, AllOf.and h.2 fun i => (k i).2⟩

theorem AllOf.and : ∀ {bs : List Block}, AllOf P bs → (∀ i, blocksAll (p i) bs = true) →
    AllOf (fun e => P e ∧ ∀ i, e.all (p i) = true) bs
  | [], _, _ => trivial
  | _ :: _, h, k => by
    simp only [blocksAll, Bool.and_eq_true] at k
    exact ⟨Block.Of.and h.1 fun i => (k i).1, AllOf.and h.2 fun i => (k i).2⟩

theorem BranchesOf.and : ∀ {branches : List (Expr × List Block)}, BranchesOf P branches →
    (∀ i, branchesAll (p i) branches = true) → BranchesOf (fun e => P e ∧ ∀ i, e.all (p i) = true) branches
  | [], _, _ => trivial
  | (_, _) :: _, h, k => by
    simp only [branchesAll, Bool.and_eq_true] at k
    exact ⟨⟨h.1, fun i => (k i).1.1⟩, AllOf.and h.2.1 fun i => (k i).1.2, BranchesOf.and h.2.2 fun i => (k i).2⟩

end

end And

/-! ## Hosts -/

/-- No call is written in the expression. -/
abbrev Expr.callFree (e : Expr) : Bool := e.all fun e => !e.isCall

section Hosts

variable (host host' : Host) (scope : Scope)

set_option linter.unusedSectionVars false in
mutual

/-- The host matters for calls only. -/
theorem Expr.eval_host : ∀ {e : Expr}, e.callFree = true → e.eval host scope = e.eval host' scope
  | .literal _, _ | .name _, _ | .starred _, _ | .foreign _, _ => by simp only [Expr.eval]
  | .attribute base attr, h => by
    simp only [Expr.eval, Expr.eval_host (Expr.all_part h base (by simp [Expr.parts]))]
  | .subscript base index, h => by
    simp only [Expr.eval, Expr.eval_host (Expr.all_part h base (by simp [Expr.parts])),
      Expr.eval_host (Expr.all_part h index (by simp [Expr.parts]))]
  | .slice lower upper step, h => by
    simp only [Expr.all, Bool.and_eq_true, optionAll_iff] at h
    simp only [Expr.eval, evalOption_host h.1.1.2, evalOption_host h.1.2, evalOption_host h.2]
  | .call .., h => by simp [Expr.all, Expr.isCall] at h
  | .binary op left right, h => by
    simp only [Expr.eval, Expr.eval_host (Expr.all_part h left (by simp [Expr.parts])),
      Expr.eval_host (Expr.all_part h right (by simp [Expr.parts]))]
  | .unary op operand, h => by
    simp only [Expr.eval, Expr.eval_host (Expr.all_part h operand (by simp [Expr.parts]))]
  | .boolean disjunction operands, h => by
    have hoperands : ∀ e ∈ operands, e.callFree = true := Expr.all_part h
    simp only [Expr.eval, evalUntil_host hoperands]
  | .compare first rest, h => by
    simp only [Expr.all, Bool.and_eq_true, compareAll_iff] at h
    simp only [Expr.eval, Expr.eval_host h.1.2, evalChain_host h.2]
  | .conditional test body orElse, h => by
    simp only [Expr.eval, Expr.eval_host (Expr.all_part h test (by simp [Expr.parts])),
      Expr.eval_host (Expr.all_part h body (by simp [Expr.parts])),
      Expr.eval_host (Expr.all_part h orElse (by simp [Expr.parts]))]
  | .list items, h | .tuple items, h => by
    have hitems : ∀ e ∈ items, e.callFree = true := Expr.all_part h
    simp only [Expr.eval, evalAll_host hitems]
  | .set items, h => by
    have hitems : ∀ e ∈ items, e.callFree = true := Expr.all_part h
    simp only [Expr.eval, evalElements_host hitems]
  | .dict entries, h => by
    simp only [Expr.all, Bool.and_eq_true, entriesAll_iff] at h
    simp only [Expr.eval, evalEntries_host h.2]
  | .joined parts, h => by
    have hparts : ∀ e ∈ parts, e.callFree = true := Expr.all_part h
    simp only [Expr.eval, evalTexts_host hparts]
  | .formatted value conversion spec, h => by
    simp only [Expr.all, Bool.and_eq_true, optionAll_iff] at h
    simp only [Expr.eval, Expr.eval_host h.1.2, evalOption_host h.2]

theorem evalOption_host : ∀ {o : Option Expr}, (∀ e ∈ o, e.callFree = true) →
    evalOption host scope o = evalOption host' scope o
  | none, _ => by simp only [evalOption]
  | some e, h => by simp only [evalOption, Expr.eval_host (h e rfl)]

theorem evalAll_host : ∀ {es : List Expr}, (∀ e ∈ es, e.callFree = true) → evalAll host scope es = evalAll host' scope es
  | [], _ => by simp only [evalAll]
  | e :: es, h => by
    obtain ⟨he, hes⟩ := List.forall_mem_cons.1 h
    simp only [evalAll, Expr.eval_host he, evalAll_host hes]

theorem evalUntil_host {disjunction : Bool} : ∀ {last : Value} {es : List Expr}, (∀ e ∈ es, e.callFree = true) →
    evalUntil host scope disjunction last es = evalUntil host' scope disjunction last es
  | _, [], _ => by simp only [evalUntil]
  | _, e :: es, h => by
    obtain ⟨he, hes⟩ := List.forall_mem_cons.1 h
    simp only [evalUntil, Expr.eval_host he, evalUntil_host hes]

theorem evalChain_host : ∀ {left : Value} {es : List (CompareOp × Expr)}, (∀ e ∈ es, e.2.callFree = true) →
    evalChain host scope left es = evalChain host' scope left es
  | _, [], _ => by simp only [evalChain]
  | _, (op, e) :: es, h => by
    obtain ⟨he, hes⟩ := List.forall_mem_cons.1 h
    simp only [evalChain, Expr.eval_host he, evalChain_host hes]

theorem evalElements_host : ∀ {done : List Value} {es : List Expr}, (∀ e ∈ es, e.callFree = true) →
    evalElements host scope done es = evalElements host' scope done es
  | _, [], _ => by simp only [evalElements]
  | _, e :: es, h => by
    obtain ⟨he, hes⟩ := List.forall_mem_cons.1 h
    simp only [evalElements, Expr.eval_host he, evalElements_host hes]

theorem evalEntries_host : ∀ {done : Entries} {es : List (Option Expr × Expr)},
    (∀ e ∈ es, (∀ k ∈ e.1, k.callFree = true) ∧ e.2.callFree = true) →
    evalEntries host scope done es = evalEntries host' scope done es
  | _, [], _ => by simp only [evalEntries]
  | _, (k, e) :: es, h => by
    obtain ⟨he, hes⟩ := List.forall_mem_cons.1 h
    simp only [evalEntries, evalOption_host he.1, Expr.eval_host he.2, evalEntries_host hes]

theorem evalTexts_host : ∀ {es : List Expr}, (∀ e ∈ es, e.callFree = true) →
    evalTexts host scope es = evalTexts host' scope es
  | [], _ => by simp only [evalTexts]
  | e :: es, h => by
    obtain ⟨he, hes⟩ := List.forall_mem_cons.1 h
    simp only [evalTexts, Expr.eval_host he, evalTexts_host hes]

end

end Hosts

/-! ## Executing -/

namespace Step

variable (host' : Host) (setting : Setting)

theorem evaluate_host {e : Expr} (h : e.callFree = true) :
    evaluate setting e = evaluate { setting with host := host' } e := by
  simp only [evaluate, Expr.eval_host setting.host host' _ h]

theorem perform_host {s : Statement} (h : s.all (fun e => !e.isCall) = true) :
    perform setting s = perform { setting with host := host' } s := by
  cases s <;> simp only [Statement.all, Bool.and_eq_true] at h
  case expression => simp only [perform, evaluate_host host' setting h]
  case assign => simp only [perform, evaluate_host host' setting h.2]
  case augmented => simp only [perform, evaluate_host host' setting h.1, evaluate_host host' setting h.2]
  all_goals simp only [perform]

mutual

theorem execute_host : ∀ {b : Block}, b.all (fun e => !e.isCall) = true →
    execute setting b = execute { setting with host := host' } b
  | .text _, _ => by simp only [execute]
  | .output _, h => by
    rw [Block.all] at h
    simp only [execute, evaluate_host host' setting h]
  | .action _, h => by
    rw [Block.all] at h
    simp only [execute, perform_host host' setting h]
  | .loop target iterable body orElse, h => by
    simp only [Block.all, Bool.and_eq_true] at h
    simp only [execute, evaluate_host host' setting h.1.1.2, executeAll_host h.1.2, executeAll_host h.2]
  | .choice branches orElse, h => by
    simp only [Block.all, Bool.and_eq_true] at h
    simp only [execute, executeFirst_host h.1, executeAll_host h.2]

theorem executeAll_host : ∀ {bs : List Block}, blocksAll (fun e => !e.isCall) bs = true →
    executeAll setting bs = executeAll { setting with host := host' } bs
  | [], _ => by simp only [executeAll]
  | _ :: _, h => by
    simp only [blocksAll, Bool.and_eq_true] at h
    simp only [executeAll, execute_host h.1, executeAll_host h.2]

theorem executeFirst_host : ∀ {branches : List (Expr × List Block)}, branchesAll (fun e => !e.isCall) branches = true →
    executeFirst setting branches = executeFirst { setting with host := host' } branches
  | [], _ => by simp only [executeFirst]
  | (_, _) :: _, h => by
    simp only [branchesAll, Bool.and_eq_true] at h
    simp only [executeFirst, evaluate_host host' setting h.1.1, executeAll_host h.1.2, executeFirst_host h.2]

end

end Step

end Template

/-- Whether no call is written in the template. -/
def Template.callFree (t : Template) : Bool := Template.blocksAll (fun e => !e.isCall) t.blocks

/-- A template without calls is rendered alike, whatever its host. -/
theorem Template.render_host (host host' : Host) (base : Bindings) {t : Template} (h : t.callFree = true)
    (context : Option Nat) : t.render host base context = t.render host' base context := by
  unfold render
  rw [Step.executeAll_host host' ⟨host, context, base⟩ h]

end NestedSite
