import NestedSite.Proofs.Relocation.Call
import NestedSite.Template.Render

/-!
# Rendering templates with what is moved

An expression is evaluated alike where the places of its scope are moved (`Expr.eval_moves`), by induction on the
expression, and so are the steps of a rendering (`Step.Moves`, `Step.execute_moves`). A template puts out the same text
for a context and for the context moved (`Template.render_moves`).
-/

namespace NestedSite

variable {ρ : Relocation}

namespace Template

/-! ## Names -/

theorem Bindings.find?_moved (bs : Bindings) (name : String) :
    Bindings.find? (movedFields ρ bs) name = (bs.find? name).map (Value.moved ρ) := field?_moved bs name

theorem Bindings.bind_moved (bs : Bindings) (name : String) (v : Value) :
    Bindings.bind (movedFields ρ bs) name (v.moved ρ) = movedFields ρ (bs.bind name v) := by
  induction bs with
  | nil => rfl
  | cons b rest ih =>
    rw [movedFields_cons, Bindings.bind, Bindings.bind]
    split
    · rfl
    · rw [ih, movedFields_cons]

theorem Bindings.bindAll_moved (bs others : Bindings) :
    Bindings.bindAll (movedFields ρ bs) (movedFields ρ others) = movedFields ρ (bs.bindAll others) := by
  unfold Bindings.bindAll
  induction others generalizing bs with
  | nil => rfl
  | cons b rest ih =>
    have h := ih (bs.bind b.1 b.2)
    rw [← Bindings.bind_moved] at h
    exact h

/-- The builtin functions and types have no places. -/
theorem builtinBindings_moved : movedFields ρ builtinBindings = builtinBindings := by
  unfold builtinBindings movedFields
  rw [List.map_map]
  rfl

theorem baseScope_moved (imports : Bindings) :
    baseScope (movedFields ρ imports) = movedFields ρ (baseScope imports) := by
  unfold baseScope
  rw [← Bindings.bindAll_moved, builtinBindings_moved]

def Scope.moved (ρ : Relocation) (scope : Scope) : Scope where
  locals := movedFields ρ scope.locals
  context := scope.context.map ρ.dicts
  base := movedFields ρ scope.base

theorem Scope.find?_moved {s s' : Store} (hs : ρ.Fits s s') (scope : Scope) (name : String) :
    (scope.moved ρ).find? s' name = (scope.find? s name).map (Value.moved ρ) := by
  obtain ⟨locals, context, base⟩ := scope
  have ofContext : (Option.map ρ.dicts context).bind (fun p => (s'.dict p).find? (.text name)) =
      (context.bind fun p => (s.dict p).find? (.text name)).map (Value.moved ρ) := by
    cases context with
    | none => rfl
    | some p =>
      rw [Option.map_some, Option.bind_some, hs.dict]
      exact Entries.find?_moved ρ (s.dict p) (.text name)
  unfold Scope.find? Scope.moved
  dsimp only
  rw [Bindings.find?_moved, ofContext, Bindings.find?_moved]
  cases locals.find? name with
  | some v => rfl
  | none => cases context.bind fun p => (s.dict p).find? (.text name) <;> rfl

theorem Literal.value_moved (l : Literal) : l.value.moved ρ = l.value := by cases l <;> rfl

/-! ## Expressions -/

theorem apply_moves (c : Conversion) (v : Value) :
    Moves ρ (Value.moved ρ) (Run.read fun s => c.apply s v) (Run.read fun s => c.apply s (v.moved ρ)) := by
  refine Run.read_moves fun s s' hs => ?_
  cases c <;> unfold Conversion.apply <;> dsimp only
  · rw [Store.text_moved hs]
    cases s.text v <;> rfl
  · rw [Store.show_moved hs]
    cases s.show v <;> rfl
  · rw [Store.show_moved hs]
    cases s.show v <;> rfl

section Eval

variable {host host' : Host} (hhost : host.Moves ρ host') (scope : Scope)

include hhost

set_option linter.unusedSectionVars false in
mutual

theorem Expr.eval_moves : ∀ e : Expr, Moves ρ (Value.moved ρ) (e.eval host scope) (e.eval host' (scope.moved ρ))
  | .literal value => by
    unfold Expr.eval
    exact .pure value.value_moved.symm
  | .name id => by
    unfold Expr.eval
    refine Run.store_bind_moves fun s s' hs => .pure ?_
    rw [Scope.find?_moved hs]
    cases scope.find? s (scopeKey id) <;> rfl
  | .attribute base attr => by
    unfold Expr.eval
    exact (Expr.eval_moves base).bind fun v => Run.readAttribute_moves v (scopeKey attr)
  | .subscript base index => by
    unfold Expr.eval
    exact (Expr.eval_moves base).bind fun v => (Expr.eval_moves index).bind fun i => Run.subscript_moves v i
  | .slice lower upper step => by
    unfold Expr.eval
    refine (evalOption_moves lower).bind fun a => (evalOption_moves upper).bind fun b => ?_
    exact (evalOption_moves step).bind fun c => .pure rfl
  | .call function arguments named => by
    unfold Expr.eval
    refine (Expr.eval_moves function).bind fun f => (Run.guardCall_moves f).seq ?_
    refine (evalAll_moves arguments).bind fun vs => (evalNamed_moves [] named).bind fun fields => ?_
    exact Run.call_moves hhost f ⟨vs, fields⟩
  | .binary op left right => by
    unfold Expr.eval
    refine (Run.needRule_moves _ _).seq ?_
    exact (Expr.eval_moves left).bind fun a => (Expr.eval_moves right).bind fun b => Run.binary_moves op a b
  | .unary op operand => by
    unfold Expr.eval
    exact (Run.needRule_moves _ _).seq ((Expr.eval_moves operand).bind fun a => Run.unary_moves op a)
  | .boolean disjunction operands => by
    unfold Expr.eval
    exact evalUntil_moves disjunction .none operands
  | .compare first rest => by
    unfold Expr.eval
    exact (Expr.eval_moves first).bind fun a => evalChain_moves a rest
  | .conditional test body orElse => by
    unfold Expr.eval
    refine (Expr.eval_moves test).bind fun v => (Run.truth_moves v).bindPlain fun b => ?_
    exact .ite (fun _ => Expr.eval_moves body) fun _ => Expr.eval_moves orElse
  | .list items => by
    unfold Expr.eval
    exact (evalAll_moves items).bind fun vs => Run.newList_moves rfl
  | .tuple items => by
    unfold Expr.eval
    exact (evalAll_moves items).bind fun vs => .pure (by simp)
  | .set items => by
    unfold Expr.eval
    exact (evalElements_moves [] items).bind fun vs => Run.newSet_moves rfl
  | .dict entries => by
    unfold Expr.eval
    exact (evalEntries_moves [] entries).bind fun es => Run.newDict_moves rfl
  | .joined parts => by
    unfold Expr.eval
    exact (evalTexts_moves parts).bindPlain fun ts => .pure rfl
  | .formatted value conversion spec => by
    unfold Expr.eval
    refine (Expr.eval_moves value).bind fun v => ?_
    have written (u : Value) (spec : String) : Moves ρ (Value.moved ρ)
        (do return Value.text (← Run.read fun s => s.format u spec))
        (do return Value.text (← Run.read fun s => s.format (u.moved ρ) spec)) :=
      (Run.read_plain_moves fun _ _ hs => Store.format_moved hs u spec).bindPlain fun _ => .pure rfl
    have finish (u : Value) : Moves ρ (Value.moved ρ)
        (do
          let spec ← match ← evalOption host scope spec with
            | .text t => pure t
            | _ => pure ""
          return Value.text (← Run.read fun s => s.format u spec))
        (do
          let spec ← match ← evalOption host' (scope.moved ρ) spec with
            | .text t => pure t
            | _ => pure ""
          return Value.text (← Run.read fun s => s.format (u.moved ρ) spec)) := by
      refine (evalOption_moves spec).bind fun w => ?_
      cases w
      case text t => exact written u t
      all_goals exact written u ""
    cases conversion with
    | none => exact finish v
    | some c => exact (apply_moves c v).bind finish
  | .starred _ | .foreign _ => by
    unfold Expr.eval
    exact Run.lack_moves _

theorem evalOption_moves : ∀ o : Option Expr,
    Moves ρ (Value.moved ρ) (evalOption host scope o) (evalOption host' (scope.moved ρ) o)
  | none => by
    unfold evalOption
    exact .pure rfl
  | some e => by
    unfold evalOption
    exact Expr.eval_moves e

theorem evalAll_moves : ∀ es : List Expr,
    Moves ρ (List.map (Value.moved ρ)) (evalAll host scope es) (evalAll host' (scope.moved ρ) es)
  | [] => by
    unfold evalAll
    exact .pure rfl
  | e :: es => by
    unfold evalAll
    exact (Expr.eval_moves e).bind fun v => (evalAll_moves es).bind fun vs => .pure rfl

theorem evalNamed_moves (done : List (String × Value)) : ∀ es : List (Option String × Expr),
    Moves ρ (movedFields ρ) (evalNamed host scope done es) (evalNamed host' (scope.moved ρ) (movedFields ρ done) es)
  | [] => by
    unfold evalNamed
    exact .pure rfl
  | (name, e) :: es => by
    unfold evalNamed
    refine (Expr.eval_moves e).bind fun v => ?_
    cases name with
    | none => exact evalNamed_moves done es
    | some n =>
      have h := evalNamed_moves (bindArgument done n v) es
      rwa [bindArgument, ← Bindings.bind_moved] at h

theorem evalUntil_moves (disjunction : Bool) (last : Value) : ∀ es : List Expr,
    Moves ρ (Value.moved ρ) (evalUntil host scope disjunction last es)
      (evalUntil host' (scope.moved ρ) disjunction (last.moved ρ) es)
  | [] => by
    unfold evalUntil
    exact .pure rfl
  | e :: es => by
    unfold evalUntil
    refine (Expr.eval_moves e).bind fun v => (Run.truth_moves v).bindPlain fun b => ?_
    exact .ite (fun _ => .pure rfl) fun _ => evalUntil_moves disjunction v es

theorem evalChain_moves (left : Value) : ∀ es : List (CompareOp × Expr),
    Moves ρ (Value.moved ρ) (evalChain host scope left es) (evalChain host' (scope.moved ρ) (left.moved ρ) es)
  | [] => by
    unfold evalChain
    exact .pure rfl
  | (op, e) :: es => by
    unfold evalChain
    refine (Expr.eval_moves e).bind fun v => (Run.compare_moves op left v).bindPlain fun b => ?_
    exact .ite (fun _ => evalChain_moves v es) fun _ => .pure rfl

theorem evalElements_moves (done : List Value) : ∀ es : List Expr,
    Moves ρ (List.map (Value.moved ρ)) (evalElements host scope done es)
      (evalElements host' (scope.moved ρ) (done.map (Value.moved ρ)) es)
  | [] => by
    unfold evalElements
    exact .pure rfl
  | e :: es => by
    unfold evalElements
    refine (Expr.eval_moves e).bind fun v => v.key_moves.bind fun k => ?_
    rw [addKey_moved]
    exact evalElements_moves (addKey done k) es

theorem evalEntries_moves (done : Entries) : ∀ es : List (Option Expr × Expr),
    Moves ρ (Entries.moved ρ) (evalEntries host scope done es) (evalEntries host' (scope.moved ρ) (done.moved ρ) es)
  | [] => by
    unfold evalEntries
    exact .pure rfl
  | (k, e) :: es => by
    unfold evalEntries
    refine (evalOption_moves k).bind fun k => (Expr.eval_moves e).bind fun v => k.key_moves.bind fun k => ?_
    rw [Entries.insert_moved]
    exact evalEntries_moves (done.insert k v) es

theorem evalTexts_moves : ∀ es : List Expr,
    Moves ρ id (evalTexts host scope es) (evalTexts host' (scope.moved ρ) es)
  | [] => by
    unfold evalTexts
    exact .pure rfl
  | e :: es => by
    unfold evalTexts
    refine (Expr.eval_moves e).bind fun v => (Run.text_moves v).bindPlain fun t => ?_
    exact (evalTexts_moves es).bindPlain fun ts => .pure rfl

end

end Eval

/-! ## Steps of a rendering -/

def Progress.moved (ρ : Relocation) (p : Progress) : Progress := { p with locals := movedFields ρ p.locals }

def Setting.moved (ρ : Relocation) (host : Host) (setting : Setting) : Setting where
  host := host
  context := setting.context.map ρ.dicts
  base := movedFields ρ setting.base

/-- Two steps go together if they do so for what has been assigned and for that moved. -/
abbrev Step.Moves {α β : Type} (ρ : Relocation) (f : α → β) (m : Step α) (m' : Step β) : Prop :=
  MovesWith ρ (Progress.moved ρ) f m m'

namespace Step

theorem put_moves (text : String) : Step.Moves ρ id (put text) (put text) := .modify fun _ => rfl

mutual

theorem assign_moves : ∀ (target : Expr) (v : Value), Step.Moves ρ id (assign target v) (assign target (v.moved ρ))
  | .name id, v => by
    unfold assign
    exact .modify fun p => congrArg (fun locals => { p with locals }) (Bindings.bind_moved p.locals (scopeKey id) v)
  | .tuple targets, v | .list targets, v => by
    unfold assign
    refine (MovesWith.lift (Run.items_moves v)).bind fun vs => ?_
    rw [List.length_map]
    refine .ite ?_ (assignAll_moves targets vs)
    exact (MovesWith.throw (f := id)).bindPlain fun _ => assignAll_moves targets vs
  | .literal _, _ | .attribute .., _ | .subscript .., _ | .slice .., _ | .call .., _ | .binary .., _ | .unary .., _
  | .boolean .., _ | .compare .., _ | .conditional .., _ | .set _, _ | .dict _, _ | .joined _, _ | .formatted .., _
  | .starred _, _ | .foreign _, _ => .lift (Run.lack_moves _)

theorem assignAll_moves : ∀ (targets : List Expr) (vs : List Value),
    Step.Moves ρ id (assignAll targets vs) (assignAll targets (vs.map (Value.moved ρ)))
  | [], _ => .pure rfl
  | _ :: _, [] => .pure rfl
  | t :: ts, v :: vs => by
    rw [List.map_cons]
    unfold assignAll
    exact (assign_moves t v).bindPlain fun _ => assignAll_moves ts vs

end

theorem forEach_moves (cursor : Nat) {body body' : Value → Step Unit}
    (hb : ∀ v : Value, Step.Moves ρ id (body v) (body' (v.moved ρ))) : ∀ (n : Nat) (looped : Bool),
      Step.Moves ρ id (forEach cursor body n looped) (forEach (ρ.cursors cursor) body' n looped)
  | 0, _ => (MovesWith.lift (Run.record_moves _ _)).seq .throw
  | n + 1, _ => by
    unfold forEach
    refine (MovesWith.lift (Run.next?_moves cursor)).bind fun v => ?_
    cases v with
    | none => exact .pure rfl
    | some v => exact (hb v).bindPlain fun _ => forEach_moves cursor hb n true

theorem forAll_moves (v : Value) {body body' : Value → Step Unit}
    (hb : ∀ v : Value, Step.Moves ρ id (body v) (body' (v.moved ρ))) :
    Step.Moves ρ id (forAll v body) (forAll (v.moved ρ) body') :=
  (MovesWith.lift (Run.cursor_moves v)).bind fun p => (MovesWith.lift (Run.left_moves p)).bindPlain fun left =>
    forEach_moves p hb (left + sizeLimit) false

section Execute

variable {setting : Setting} {host' : Host} (hhost : setting.host.Moves ρ host')

include hhost

theorem evaluate_moves (e : Expr) :
    Step.Moves ρ (Value.moved ρ) (evaluate setting e) (evaluate (setting.moved ρ host') e) := fun p =>
  MovesWith.lift (Expr.eval_moves hhost ⟨p.locals, setting.context, setting.base⟩ e) p

theorem perform_moves (s : Statement) :
    Step.Moves ρ id (perform setting s) (perform (setting.moved ρ host') s) := by
  cases s
  case expression e => exact (evaluate_moves hhost e).discard
  case assign targets e =>
    exact (evaluate_moves hhost e).bind fun v => .forM (fun t => assign_moves t v) targets
  case augmented target op e =>
    refine (evaluate_moves hhost target).bind fun current => (MovesWith.lift (Run.needRule_moves _ _)).seq ?_
    refine (evaluate_moves hhost e).bind fun v => ?_
    exact (MovesWith.lift (Run.binary_moves op current v)).bind fun u => assign_moves target u
  all_goals exact .lift (Run.lack_moves _)

set_option linter.unusedSectionVars false in
mutual

theorem execute_moves : ∀ b : Block, Step.Moves ρ id (execute setting b) (execute (setting.moved ρ host') b)
  | .text s => by
    unfold execute
    exact put_moves s
  | .output e => by
    unfold execute
    refine (evaluate_moves hhost e).bind fun v => ?_
    have written (v : Value) : Step.Moves ρ id (do put (← Run.text v)) (do put (← Run.text (v.moved ρ))) :=
      (MovesWith.lift (Run.text_moves v)).bindPlain put_moves
    cases v
    case none => exact .pure rfl
    all_goals exact written _
  | .action s => by
    unfold execute
    exact perform_moves hhost s
  | .loop target iterable body orElse => by
    unfold execute
    refine (evaluate_moves hhost iterable).bind fun v => (forAll_moves v fun v => ?_).bindPlain fun looped => ?_
    · exact (assign_moves target v).bindPlain fun _ => executeAll_moves body
    · exact .ite (executeAll_moves orElse) (.pure rfl)
  | .choice branches orElse => by
    unfold execute
    refine (executeFirst_moves branches).bindPlain fun _ => ?_
    exact .ite (executeAll_moves orElse) (.pure rfl)

theorem executeAll_moves : ∀ bs : List Block,
    Step.Moves ρ id (executeAll setting bs) (executeAll (setting.moved ρ host') bs)
  | [] => by
    unfold executeAll
    exact .pure rfl
  | b :: bs => by
    unfold executeAll
    exact (execute_moves b).bindPlain fun _ => executeAll_moves bs

theorem executeFirst_moves : ∀ branches : List (Expr × List Block),
    Step.Moves ρ id (executeFirst setting branches) (executeFirst (setting.moved ρ host') branches)
  | [] => by
    unfold executeFirst
    exact .pure rfl
  | (test, body) :: rest => by
    unfold executeFirst
    refine (evaluate_moves hhost test).bind fun v => (MovesWith.lift (Run.truth_moves v)).bindPlain fun _ => ?_
    exact .ite ((executeAll_moves body).bindPlain fun _ => .pure rfl) (executeFirst_moves rest)

end

end Execute

end Step

end Template

/-- A template puts out the same text where the places of its context and of its base scope are moved. -/
theorem Template.render_moves {host host' : Host} (hhost : host.Moves ρ host') (base : Template.Bindings)
    (t : Template) (context : Option Nat) :
    Moves ρ id (t.render host base context) (t.render host' (movedFields ρ base) (context.map ρ.dicts)) := by
  have hsetting : (⟨host, context, base⟩ : Template.Setting).host.Moves ρ host' := hhost
  exact (Template.Step.executeAll_moves hsetting t.blocks {}).bind fun _ => .pure rfl

end NestedSite
