import NestedSite.Proofs.Template.Check
import NestedSite.Template.Render

/-!
# Identifiers and their keys

Where an identifier of the fragment language stands decides what it is the name of: a variable, an attribute or an
argument (`Use`). A variable and an attribute mean the key that their name stands for, an argument is passed under its
name as it is (`Use.key`). Identifiers count by their keys alone: a template does the same when each of them is written
as its key (`Template.render_keyed`). No key of a variable or an attribute begins with `_dollar_`
(`Use.key_unmarked`), and so what the base scope binds such names to does not matter.
-/

namespace NestedSite

namespace Template

/-! ## The keys of names -/

/-- Whether a name begins as `$` is written in code. -/
def IsMarked (name : String) : Prop := dollarMark.toList <+: name.toList

theorem scopeKey_marked (rest : List Char) :
    scopeKey (.ofList (dollarMark.toList ++ rest)) = .ofList ('$' :: rest) := by
  unfold scopeKey
  rw [String.toList_ofList, dropMark?_eq_some.2 rfl]

theorem not_isMarked_dollar (rest : List Char) : ¬IsMarked (.ofList ('$' :: rest)) := by
  rintro ⟨more, hmore⟩
  rw [String.toList_ofList] at hmore
  cases hmore

theorem not_isMarked_scopeKey (name : String) : ¬IsMarked (scopeKey name) := by
  rcases scopeKey_eq name with ⟨rest, hrest⟩ | ⟨hmark, hsame⟩
  · rw [hrest]
    exact not_isMarked_dollar rest
  · rwa [hsame]

theorem scopeKey_of_not_isMarked {name : String} (h : ¬IsMarked name) : scopeKey name = name := by
  unfold scopeKey
  split
  · rename_i rest hrest
    exact absurd ⟨rest, (dropMark?_eq_some.1 hrest).symm⟩ h
  · rfl

@[simp] theorem scopeKey_scopeKey (name : String) : scopeKey (scopeKey name) = scopeKey name :=
  scopeKey_of_not_isMarked (not_isMarked_scopeKey name)

/-! ## Identifiers -/

/-- What an identifier is the name of. -/
inductive Position where
  | variable | attribute | argument
  deriving Repr, DecidableEq

/-- An identifier where it stands. -/
structure Use where
  position : Position
  name : String
  deriving Repr, DecidableEq

/-- The name that is looked up, read or assigned, or that an argument is passed under. -/
def Use.key (u : Use) : String :=
  match u.position with
  | .variable | .attribute => scopeKey u.name
  | .argument => u.name

/-- The identifier written as its key. -/
def Use.keyed (u : Use) : Use := { u with name := u.key }

@[simp] theorem Use.key_keyed (u : Use) : u.keyed.key = u.key := by
  obtain ⟨position, name⟩ := u
  cases position <;> simp [key, keyed]

theorem Use.key_unmarked {u : Use} (h : u.position ≠ .argument) : ¬IsMarked u.key := by
  obtain ⟨position, name⟩ := u
  cases position
  case argument => exact absurd rfl h
  all_goals exact not_isMarked_scopeKey name

mutual

/-- The identifiers of an expression, in the order in which they are written. -/
def Expr.uses : Expr → List Use
  | .name id => [⟨.variable, id⟩]
  | .attribute base attr => base.uses ++ [⟨.attribute, attr⟩]
  | .subscript base index => base.uses ++ index.uses
  | .slice lower upper step => optionUses lower ++ optionUses upper ++ optionUses step
  | .call function arguments named => function.uses ++ listUses arguments ++ namedUses named
  | .binary _ left right => left.uses ++ right.uses
  | .unary _ operand => operand.uses
  | .boolean _ operands => listUses operands
  | .compare first rest => first.uses ++ compareUses rest
  | .conditional test body orElse => body.uses ++ test.uses ++ orElse.uses
  | .list items | .tuple items | .set items | .joined items => listUses items
  | .dict entries => entriesUses entries
  | .formatted value _ spec => value.uses ++ optionUses spec
  | .starred value => value.uses
  | .literal _ | .foreign _ => []

def optionUses : Option Expr → List Use
  | none => []
  | some e => e.uses

def listUses : List Expr → List Use
  | [] => []
  | e :: es => e.uses ++ listUses es

def namedUses : List (Option String × Expr) → List Use
  | [] => []
  | (some name, e) :: es => ⟨.argument, name⟩ :: (e.uses ++ namedUses es)
  | (none, e) :: es => e.uses ++ namedUses es

def compareUses : List (CompareOp × Expr) → List Use
  | [] => []
  | (_, e) :: es => e.uses ++ compareUses es

def entriesUses : List (Option Expr × Expr) → List Use
  | [] => []
  | (k, e) :: es => optionUses k ++ e.uses ++ entriesUses es

end

/-! ## Trees of keys -/

mutual

/-- The expression with every variable and every attribute written as its key. -/
def Expr.keyed : Expr → Expr
  | .name id => .name (scopeKey id)
  | .attribute base attr => .attribute base.keyed (scopeKey attr)
  | .subscript base index => .subscript base.keyed index.keyed
  | .slice lower upper step => .slice (optionKeyed lower) (optionKeyed upper) (optionKeyed step)
  | .call function arguments named => .call function.keyed (listKeyed arguments) (namedKeyed named)
  | .binary op left right => .binary op left.keyed right.keyed
  | .unary op operand => .unary op operand.keyed
  | .boolean disjunction operands => .boolean disjunction (listKeyed operands)
  | .compare first rest => .compare first.keyed (compareKeyed rest)
  | .conditional test body orElse => .conditional test.keyed body.keyed orElse.keyed
  | .list items => .list (listKeyed items)
  | .tuple items => .tuple (listKeyed items)
  | .set items => .set (listKeyed items)
  | .dict entries => .dict (entriesKeyed entries)
  | .joined parts => .joined (listKeyed parts)
  | .formatted value conversion spec => .formatted value.keyed conversion (optionKeyed spec)
  | .starred value => .starred value.keyed
  | .literal value => .literal value
  | .foreign kind => .foreign kind

def optionKeyed : Option Expr → Option Expr
  | none => none
  | some e => some e.keyed

def listKeyed : List Expr → List Expr
  | [] => []
  | e :: es => e.keyed :: listKeyed es

def namedKeyed : List (Option String × Expr) → List (Option String × Expr)
  | [] => []
  | (name, e) :: es => (name, e.keyed) :: namedKeyed es

def compareKeyed : List (CompareOp × Expr) → List (CompareOp × Expr)
  | [] => []
  | (op, e) :: es => (op, e.keyed) :: compareKeyed es

def entriesKeyed : List (Option Expr × Expr) → List (Option Expr × Expr)
  | [] => []
  | (k, e) :: es => (optionKeyed k, e.keyed) :: entriesKeyed es

end

mutual

theorem Expr.uses_keyed : ∀ e : Expr, e.keyed.uses = e.uses.map Use.keyed
  | .literal _ | .foreign _ => rfl
  | .name _ => rfl
  | .attribute base _ => by simp [Expr.keyed, Expr.uses, base.uses_keyed, Use.keyed, Use.key]
  | .subscript base index => by simp [Expr.keyed, Expr.uses, base.uses_keyed, index.uses_keyed]
  | .slice lower upper step => by
    simp [Expr.keyed, Expr.uses, optionUses_keyed lower, optionUses_keyed upper, optionUses_keyed step]
  | .call function arguments named => by
    simp [Expr.keyed, Expr.uses, function.uses_keyed, listUses_keyed arguments, namedUses_keyed named]
  | .binary _ left right => by simp [Expr.keyed, Expr.uses, left.uses_keyed, right.uses_keyed]
  | .unary _ operand => by simp [Expr.keyed, Expr.uses, operand.uses_keyed]
  | .boolean _ operands => by simp [Expr.keyed, Expr.uses, listUses_keyed operands]
  | .compare first rest => by simp [Expr.keyed, Expr.uses, first.uses_keyed, compareUses_keyed rest]
  | .conditional test body orElse => by
    simp [Expr.keyed, Expr.uses, test.uses_keyed, body.uses_keyed, orElse.uses_keyed]
  | .list items | .tuple items | .set items | .joined items => by
    simp [Expr.keyed, Expr.uses, listUses_keyed items]
  | .dict entries => by simp [Expr.keyed, Expr.uses, entriesUses_keyed entries]
  | .formatted value _ spec => by simp [Expr.keyed, Expr.uses, value.uses_keyed, optionUses_keyed spec]
  | .starred value => by simp [Expr.keyed, Expr.uses, value.uses_keyed]

theorem optionUses_keyed : ∀ o : Option Expr, optionUses (optionKeyed o) = (optionUses o).map Use.keyed
  | none => rfl
  | some e => e.uses_keyed

theorem listUses_keyed : ∀ es : List Expr, listUses (listKeyed es) = (listUses es).map Use.keyed
  | [] => rfl
  | e :: es => by simp [listKeyed, listUses, e.uses_keyed, listUses_keyed es]

theorem namedUses_keyed : ∀ es : List (Option String × Expr),
    namedUses (namedKeyed es) = (namedUses es).map Use.keyed
  | [] => rfl
  | (none, e) :: es => by simp [namedKeyed, namedUses, e.uses_keyed, namedUses_keyed es]
  | (some _, e) :: es => by simp [namedKeyed, namedUses, e.uses_keyed, namedUses_keyed es, Use.keyed, Use.key]

theorem compareUses_keyed : ∀ es : List (CompareOp × Expr),
    compareUses (compareKeyed es) = (compareUses es).map Use.keyed
  | [] => rfl
  | (_, e) :: es => by simp [compareKeyed, compareUses, e.uses_keyed, compareUses_keyed es]

theorem entriesUses_keyed : ∀ es : List (Option Expr × Expr),
    entriesUses (entriesKeyed es) = (entriesUses es).map Use.keyed
  | [] => rfl
  | (k, e) :: es => by
    simp [entriesKeyed, entriesUses, optionUses_keyed k, e.uses_keyed, entriesUses_keyed es]

end

/-! ## Evaluating -/

/-- Two scopes in which every name means the same, but for names that begin with `_dollar_`. -/
def Scope.Alike (scope scope' : Scope) : Prop :=
  ∀ (s : Store) (name : String), ¬IsMarked name → scope.find? s name = scope'.find? s name

section Evaluating

variable {host : Host} {scope scope' : Scope}

set_option linter.unusedSectionVars false in
mutual

/-- An expression means what the tree of its keys means. -/
theorem Expr.eval_keyed (h : scope.Alike scope') : ∀ e : Expr, e.eval host scope = e.keyed.eval host scope'
  | .literal _ | .foreign _ | .starred _ => by simp only [Expr.keyed, Expr.eval]
  | .name id => by
    simp only [Expr.keyed, Expr.eval, scopeKey_scopeKey, fun s => h s _ (not_isMarked_scopeKey id)]
  | .attribute base attr => by simp only [Expr.keyed, Expr.eval, base.eval_keyed h, scopeKey_scopeKey]
  | .subscript base index => by simp only [Expr.keyed, Expr.eval, base.eval_keyed h, index.eval_keyed h]
  | .slice lower upper step => by
    simp only [Expr.keyed, Expr.eval, evalOption_keyed h lower, evalOption_keyed h upper, evalOption_keyed h step]
  | .call function arguments named => by
    simp only [Expr.keyed, Expr.eval, function.eval_keyed h, evalAll_keyed h arguments, evalNamed_keyed h named]
  | .binary op left right => by simp only [Expr.keyed, Expr.eval, left.eval_keyed h, right.eval_keyed h]
  | .unary op operand => by simp only [Expr.keyed, Expr.eval, operand.eval_keyed h]
  | .boolean disjunction operands => by simp only [Expr.keyed, Expr.eval, evalUntil_keyed h operands]
  | .compare first rest => by simp only [Expr.keyed, Expr.eval, first.eval_keyed h, evalChain_keyed h rest]
  | .conditional test body orElse => by
    simp only [Expr.keyed, Expr.eval, test.eval_keyed h, body.eval_keyed h, orElse.eval_keyed h]
  | .list items | .tuple items => by simp only [Expr.keyed, Expr.eval, evalAll_keyed h items]
  | .set items => by simp only [Expr.keyed, Expr.eval, evalElements_keyed h items]
  | .dict entries => by simp only [Expr.keyed, Expr.eval, evalEntries_keyed h entries]
  | .joined parts => by simp only [Expr.keyed, Expr.eval, evalTexts_keyed h parts]
  | .formatted value conversion spec => by
    simp only [Expr.keyed, Expr.eval, value.eval_keyed h, evalOption_keyed h spec]

theorem evalOption_keyed (h : scope.Alike scope') : ∀ o : Option Expr,
    evalOption host scope o = evalOption host scope' (optionKeyed o)
  | none => by simp only [optionKeyed, evalOption]
  | some e => by simp only [optionKeyed, evalOption, e.eval_keyed h]

theorem evalAll_keyed (h : scope.Alike scope') : ∀ es : List Expr,
    evalAll host scope es = evalAll host scope' (listKeyed es)
  | [] => by simp only [listKeyed, evalAll]
  | e :: es => by simp only [listKeyed, evalAll, e.eval_keyed h, evalAll_keyed h es]

theorem evalNamed_keyed (h : scope.Alike scope') : ∀ (es : List (Option String × Expr)) {done : List (String × Value)},
    evalNamed host scope done es = evalNamed host scope' done (namedKeyed es)
  | [], _ => by simp only [namedKeyed, evalNamed]
  | (_, e) :: es, _ => by simp only [namedKeyed, evalNamed, e.eval_keyed h, evalNamed_keyed h es]

theorem evalUntil_keyed (h : scope.Alike scope') {disjunction : Bool} : ∀ (es : List Expr) {last : Value},
    evalUntil host scope disjunction last es = evalUntil host scope' disjunction last (listKeyed es)
  | [], _ => by simp only [listKeyed, evalUntil]
  | e :: es, _ => by simp only [listKeyed, evalUntil, e.eval_keyed h, evalUntil_keyed h es]

theorem evalChain_keyed (h : scope.Alike scope') : ∀ (es : List (CompareOp × Expr)) {left : Value},
    evalChain host scope left es = evalChain host scope' left (compareKeyed es)
  | [], _ => by simp only [compareKeyed, evalChain]
  | (_, e) :: es, _ => by simp only [compareKeyed, evalChain, e.eval_keyed h, evalChain_keyed h es]

theorem evalElements_keyed (h : scope.Alike scope') : ∀ (es : List Expr) {done : List Value},
    evalElements host scope done es = evalElements host scope' done (listKeyed es)
  | [], _ => by simp only [listKeyed, evalElements]
  | e :: es, _ => by simp only [listKeyed, evalElements, e.eval_keyed h, evalElements_keyed h es]

theorem evalEntries_keyed (h : scope.Alike scope') : ∀ (es : List (Option Expr × Expr)) {done : Entries},
    evalEntries host scope done es = evalEntries host scope' done (entriesKeyed es)
  | [], _ => by simp only [entriesKeyed, evalEntries]
  | (k, e) :: es, _ => by
    simp only [entriesKeyed, evalEntries, evalOption_keyed h k, e.eval_keyed h, evalEntries_keyed h es]

theorem evalTexts_keyed (h : scope.Alike scope') : ∀ es : List Expr,
    evalTexts host scope es = evalTexts host scope' (listKeyed es)
  | [] => by simp only [listKeyed, evalTexts]
  | e :: es => by simp only [listKeyed, evalTexts, e.eval_keyed h, evalTexts_keyed h es]

end

end Evaluating

/-! ## Arguments -/

/-- Arguments are passed under the names that are written, whatever the names are. -/
theorem evalNamed_zip (host : Host) (scope : Scope) : ∀ (names : List String) (es : List Expr)
    (done : List (String × Value)), names.length = es.length →
    evalNamed host scope done ((names.map some).zip es) = do
      let vs ← evalAll host scope es
      return Bindings.bindAll done (names.zip vs)
  | [], [], done, _ => by simp [evalNamed, evalAll, Bindings.bindAll]
  | name :: names, e :: es, done, h => by
    have hlength : names.length = es.length := Nat.succ.inj h
    simp only [List.map_cons, List.zip_cons_cons, evalNamed, evalAll, bind_assoc, pure_bind,
      evalNamed_zip host scope names es _ hlength]
    rfl

/-! ## Statements and blocks -/

/-- The identifiers of a statement. -/
def Statement.uses : Statement → List Use
  | .expression e | .condition e => e.uses
  | .assign targets e => listUses targets ++ e.uses
  | .augmented target _ e => target.uses ++ e.uses
  | .loop target iterable => target.uses ++ iterable.uses
  | .foreign _ => []

def Statement.keyed : Statement → Statement
  | .expression e => .expression e.keyed
  | .condition e => .condition e.keyed
  | .assign targets e => .assign (listKeyed targets) e.keyed
  | .augmented target op e => .augmented target.keyed op e.keyed
  | .loop target iterable => .loop target.keyed iterable.keyed
  | .foreign kind => .foreign kind

theorem Statement.uses_keyed (s : Statement) : s.keyed.uses = s.uses.map Use.keyed := by
  cases s <;> simp [keyed, uses, Expr.uses_keyed, listUses_keyed]

mutual

/-- The block with every variable and every attribute written as its key. -/
def Block.keyed : Block → Block
  | .text s => .text s
  | .output e => .output e.keyed
  | .action s => .action s.keyed
  | .loop target iterable body orElse => .loop target.keyed iterable.keyed (blocksKeyed body) (blocksKeyed orElse)
  | .choice branches orElse => .choice (branchesKeyed branches) (blocksKeyed orElse)

def blocksKeyed : List Block → List Block
  | [] => []
  | b :: bs => b.keyed :: blocksKeyed bs

def branchesKeyed : List (Expr × List Block) → List (Expr × List Block)
  | [] => []
  | (test, body) :: rest => (test.keyed, blocksKeyed body) :: branchesKeyed rest

end

theorem listKeyed_eq_map : ∀ es : List Expr, listKeyed es = es.map Expr.keyed
  | [] => rfl
  | e :: es => by rw [listKeyed, listKeyed_eq_map es, List.map_cons]

namespace Step

mutual

/-- What is assigned to a target is bound to the keys of its names. -/
theorem assign_keyed : ∀ (t : Expr) (v : Value), assign t v = assign t.keyed v
  | .name id, v => by simp only [Expr.keyed, assign, scopeKey_scopeKey]
  | .tuple targets, v | .list targets, v => by
    simp only [Expr.keyed, assign, listKeyed_eq_map, List.length_map]
    simp only [← listKeyed_eq_map, assignAll_keyed targets]
  | .literal _, _ | .attribute .., _ | .subscript .., _ | .slice .., _ | .call .., _ | .binary .., _ | .unary .., _
  | .boolean .., _ | .compare .., _ | .conditional .., _ | .set _, _ | .dict _, _ | .joined _, _ | .formatted .., _
  | .starred _, _ | .foreign _, _ => by simp only [Expr.keyed, assign]

theorem assignAll_keyed : ∀ (ts : List Expr) (vs : List Value), assignAll ts vs = assignAll (listKeyed ts) vs
  | t :: ts, v :: vs => by simp only [listKeyed, assignAll, assign_keyed t, assignAll_keyed ts]
  | [], _ => by simp only [listKeyed]
  | _ :: _, [] => by simp only [listKeyed, assignAll]

end

/-- Two settings with the same host, in which every name means the same but for names that begin with `_dollar_`. -/
structure Alike (setting setting' : Setting) : Prop where
  host : setting.host = setting'.host
  scopes (locals : Bindings) :
    Scope.Alike ⟨locals, setting.context, setting.base⟩ ⟨locals, setting'.context, setting'.base⟩

section Executing

variable {setting setting' : Setting} (h : Alike setting setting')

include h

theorem evaluate_keyed (e : Expr) : evaluate setting e = evaluate setting' e.keyed := by
  have hsame (locals : Bindings) : e.eval setting.host ⟨locals, setting.context, setting.base⟩ =
      e.keyed.eval setting'.host ⟨locals, setting'.context, setting'.base⟩ := by
    rw [h.host]
    exact e.eval_keyed (h.scopes locals)
  simp only [evaluate, hsame]

omit h in
theorem forM_assign_keyed (v : Value) (targets : List Expr) :
    (targets.forM fun t => assign t v) = (listKeyed targets).forM fun t => assign t v := by
  rw [listKeyed_eq_map]
  induction targets with
  | nil => rfl
  | cons t ts ih =>
    show (assign t v >>= fun _ => ts.forM _) = (assign t.keyed v >>= fun _ => (ts.map Expr.keyed).forM _)
    rw [ih, ← assign_keyed t]

theorem perform_keyed (s : Statement) : perform setting s = perform setting' s.keyed := by
  cases s with
  | expression e => simp only [Statement.keyed, perform, evaluate_keyed h e]
  | assign targets e => simp only [Statement.keyed, perform, evaluate_keyed h e, forM_assign_keyed _ targets]
  | augmented target op e =>
    simp only [Statement.keyed, perform, evaluate_keyed h target, evaluate_keyed h e, assign_keyed target]
  | loop | condition | foreign => simp only [Statement.keyed, perform, Statement.kind]

set_option linter.unusedSectionVars false in
mutual

/-- A block does what the block of its keys does. -/
theorem execute_keyed : ∀ b : Block, execute setting b = execute setting' b.keyed
  | .text _ => by simp only [Block.keyed, execute]
  | .output e => by simp only [Block.keyed, execute, evaluate_keyed h e]
  | .action s => by simp only [Block.keyed, execute, perform_keyed h s]
  | .loop target iterable body orElse => by
    simp only [Block.keyed, execute, evaluate_keyed h iterable, assign_keyed target, executeAll_keyed body,
      executeAll_keyed orElse]
  | .choice branches orElse => by
    simp only [Block.keyed, execute, executeFirst_keyed branches, executeAll_keyed orElse]

theorem executeAll_keyed : ∀ bs : List Block, executeAll setting bs = executeAll setting' (blocksKeyed bs)
  | [] => by simp only [blocksKeyed, executeAll]
  | b :: bs => by simp only [blocksKeyed, executeAll, execute_keyed b, executeAll_keyed bs]

theorem executeFirst_keyed : ∀ branches : List (Expr × List Block),
    executeFirst setting branches = executeFirst setting' (branchesKeyed branches)
  | [] => by simp only [branchesKeyed, executeFirst]
  | (test, body) :: rest => by
    simp only [branchesKeyed, executeFirst, evaluate_keyed h test, executeAll_keyed body, executeFirst_keyed rest]

end

end Executing

end Step

end Template

/-- The template with every variable and every attribute written as its key. -/
def Template.keyed (t : Template) : Template := { t with blocks := Template.blocksKeyed t.blocks }

/-- A template puts out what the template of its keys puts out, whatever the base scope binds names to that begin with
`_dollar_`. -/
theorem Template.render_keyed {host : Host} {base base' : Bindings} {context : Option Nat} (t : Template)
    (h : ∀ locals, Scope.Alike ⟨locals, context, base⟩ ⟨locals, context, base'⟩) :
    t.render host base context = t.keyed.render host base' context := by
  unfold render keyed
  have hsettings : Step.Alike ⟨host, context, base⟩ ⟨host, context, base'⟩ := ⟨rfl, h⟩
  rw [Step.executeAll_keyed hsettings]

end NestedSite
