import NestedSite.Proofs.Store.Confined
import NestedSite.Template.Block

/-!
# What is accepted

An expression without faults has no faulty part (`Expr.faults_attribute`, `Expr.faults_call`, …), and the attributes
that it names are permitted (`isPermitted_scopeKey`); there is a rule for its form, unless it is an inversion
(`Expr.eq_of_gap?`). A template that was compiled is made of expressions without faults
(`Template.compile_accepted`), and a source that was not is refused as a template (`Template.compile_refuses`).
-/

namespace NestedSite

namespace Template

/-- Attributes that may be read of any value. -/
def IsPermitted (name : String) : Prop := ¬"_".toList <+: name.toList ∧ name ∉ deniedAttributes

theorem dropMark?_eq_some : ∀ {mark cs rest : List Char},
    scopeKey.dropMark? mark cs = some rest ↔ cs = mark ++ rest
  | [], cs, rest => by simp [scopeKey.dropMark?]
  | p :: ps, [], rest => by simp [scopeKey.dropMark?]
  | p :: ps, c :: cs, rest => by
    unfold scopeKey.dropMark?
    split
    · rename_i h
      rw [dropMark?_eq_some, beq_iff_eq.1 h]
      simp
    · rename_i h
      simp only [reduceCtorEq, List.cons_append, List.cons.injEq, false_iff, not_and]
      exact fun hc => absurd (beq_iff_eq.2 hc.symm) h

/-- A name that stands for a `$` is read as the name of a key; all others are read as they are. -/
theorem scopeKey_eq (name : String) :
    (∃ rest, scopeKey name = .ofList ('$' :: rest)) ∨ ¬dollarMark.toList <+: name.toList ∧ scopeKey name = name := by
  unfold scopeKey
  split
  · exact .inl ⟨_, rfl⟩
  · rename_i h
    refine .inr ⟨?_, rfl⟩
    rintro ⟨rest, hrest⟩
    rw [dropMark?_eq_some.2 hrest.symm] at h
    cases h

theorem isPermitted_dollar (rest : List Char) : IsPermitted (.ofList ('$' :: rest)) := by
  have hhead : ∀ name ∈ "_" :: deniedAttributes, name.toList.head? ≠ some '$' := by decide
  refine ⟨?_, fun h => ?_⟩
  · rintro ⟨cs, hcs⟩
    simp at hcs
  · exact hhead _ (List.mem_cons_of_mem _ h) (by simp)

theorem isPermitted_scopeKey {attr : String} (h : isDeniedAttribute attr = false) : IsPermitted (scopeKey attr) := by
  rcases scopeKey_eq attr with ⟨rest, hrest⟩ | ⟨hmark, hsame⟩
  · exact hrest ▸ isPermitted_dollar rest
  · rw [hsame]
    simp only [isDeniedAttribute, Bool.and_eq_false_iff, Bool.not_eq_false', Bool.or_eq_false_iff,
      String.startsWith_string_iff, String.startsWith_string_eq_false_iff, List.contains_eq_mem,
      decide_eq_false_iff_not] at h
    exact h.resolve_left hmark

/-! ## Parts of expressions -/

theorem flatten_mergeLevels {α : Type} : ∀ {as bs : List (List α)},
    (mergeLevels as bs).flatten = [] ↔ as.flatten = [] ∧ bs.flatten = []
  | [], bs => by simp [mergeLevels]
  | a :: as, [] => by simp [mergeLevels]
  | a :: as, b :: bs => by
    simp only [mergeLevels, List.flatten_cons, List.append_eq_nil_iff, flatten_mergeLevels]
    exact ⟨fun ⟨⟨ha, hb⟩, has, hbs⟩ => ⟨⟨ha, has⟩, hb, hbs⟩, fun ⟨⟨ha, has⟩, hb, hbs⟩ => ⟨⟨ha, hb⟩, has, hbs⟩⟩

theorem flatten_optionLevels {o : Option Expr} : (optionLevels o).flatten = [] ↔ ∀ e ∈ o, e.faults = [] := by
  cases o with
  | none => simp [optionLevels]
  | some e => simp [optionLevels, Expr.faults]

theorem flatten_listLevels : ∀ {es : List Expr}, (listLevels es).flatten = [] ↔ ∀ e ∈ es, e.faults = []
  | [] => by simp [listLevels]
  | e :: es => by
    rw [listLevels, flatten_mergeLevels, flatten_listLevels, List.forall_mem_cons]
    exact Iff.rfl

theorem flatten_namedLevels : ∀ {es : List (Option String × Expr)},
    (namedLevels es).flatten = [] ↔ ∀ e ∈ es, e.1.isSome = true ∧ e.2.faults = []
  | [] => by simp [namedLevels]
  | (name, e) :: es => by
    rw [namedLevels, flatten_mergeLevels, flatten_namedLevels, List.forall_mem_cons]
    cases name <;> simp [Expr.faults]

theorem flatten_compareLevels : ∀ {es : List (CompareOp × Expr)},
    (compareLevels es).flatten = [] ↔ ∀ e ∈ es, e.2.faults = []
  | [] => by simp [compareLevels]
  | (op, e) :: es => by
    rw [compareLevels, flatten_mergeLevels, flatten_compareLevels, List.forall_mem_cons]
    exact Iff.rfl

theorem flatten_keyLevels : ∀ {es : List (Option Expr × Expr)},
    (keyLevels es).flatten = [] ↔ ∀ e ∈ es, ∀ k ∈ e.1, k.faults = []
  | [] => by simp [keyLevels]
  | (k, e) :: es => by
    rw [keyLevels, flatten_mergeLevels, flatten_keyLevels, List.forall_mem_cons, flatten_optionLevels]

theorem flatten_valueLevels : ∀ {es : List (Option Expr × Expr)},
    (valueLevels es).flatten = [] ↔ ∀ e ∈ es, e.2.faults = []
  | [] => by simp [valueLevels]
  | (k, e) :: es => by
    rw [valueLevels, flatten_mergeLevels, flatten_valueLevels, List.forall_mem_cons]
    exact Iff.rfl

/-- The expressions right under an expression, as they are written. -/
def Expr.parts : Expr → List Expr
  | .attribute base _ => [base]
  | .subscript base index => [base, index]
  | .slice lower upper step => lower.toList ++ upper.toList ++ step.toList
  | .call function arguments named => function :: arguments ++ named.map Prod.snd
  | .binary _ left right => [left, right]
  | .unary _ operand => [operand]
  | .boolean _ operands => operands
  | .compare first rest => first :: rest.map Prod.snd
  | .conditional test body orElse => [test, body, orElse]
  | .list items | .tuple items | .set items | .joined items => items
  | .dict entries => entries.filterMap Prod.fst ++ entries.map Prod.snd
  | .formatted value _ spec => value :: spec.toList
  | .starred value => [value]
  | .literal _ | .name _ | .foreign _ => []

/-- The form of an expression without faults is allowed. -/
theorem Expr.ownFaults_of_faults {e : Expr} (h : e.faults = []) : e.ownFaults = [] := by
  cases e <;> simp only [faults, faultLevels, List.flatten_cons, List.append_eq_nil_iff] at h <;> exact h.1

/-- An expression without faults has parts without faults. -/
theorem Expr.faults_part {e : Expr} (h : e.faults = []) : ∀ p ∈ e.parts, p.faults = [] := by
  intro p hp
  cases e <;> simp only [faults, faultLevels, List.flatten_cons, List.append_eq_nil_iff, flatten_mergeLevels,
    flatten_optionLevels, flatten_listLevels, flatten_namedLevels, flatten_compareLevels, flatten_keyLevels,
    flatten_valueLevels] at h <;> simp only [parts, List.mem_cons, List.mem_append, List.mem_map, List.mem_filterMap,
    Option.mem_toList, List.not_mem_nil, or_false] at hp
  case «attribute» => exact hp ▸ h.2
  case subscript => exact hp.elim (· ▸ h.2.1) (· ▸ h.2.2)
  case slice => exact hp.elim (·.elim (h.2.1 p) (h.2.2.1 p)) (h.2.2.2 p)
  case call =>
    rcases hp with (rfl | hp) | ⟨a, ha, rfl⟩
    · exact h.2.1
    · exact h.2.2.1 p hp
    · exact (h.2.2.2 a ha).2
  case binary => exact hp.elim (· ▸ h.2.1) (· ▸ h.2.2)
  case unary => exact hp ▸ h.2
  case boolean => exact h.2 p hp
  case compare =>
    rcases hp with rfl | ⟨a, ha, rfl⟩
    · exact h.2.1
    · exact h.2.2 a ha
  case conditional =>
    rcases hp with rfl | rfl | rfl
    · exact h.2.1
    · exact h.2.2.1
    · exact h.2.2.2
  case list => exact h.2 p hp
  case tuple => exact h.2 p hp
  case set => exact h.2 p hp
  case joined => exact h.2 p hp
  case dict =>
    rcases hp with ⟨a, ha, hk⟩ | ⟨a, ha, rfl⟩
    · exact h.2.1 a ha p hk
    · exact h.2.2 a ha
  case formatted => exact hp.elim (· ▸ h.2.1) (h.2.2 p)
  case starred => exact hp ▸ h.2

/-! ## Rules -/

/-- What there is no rule for in the outermost form of an expression. -/
def Expr.gap? : Expr → Option Gap
  | .unary op _ => if op.hasRule then none else some (.unary op)
  | .binary op _ _ => if op.hasRule then none else some (.binary op)
  | .starred _ => some (.element "Starred")
  | .foreign kind => some (.element kind)
  | _ => none

/-- There is a rule for every allowed form, but for the inversion. -/
theorem Expr.eq_of_gap? {e : Expr} (h : e.faults = []) {gap : Gap} (hgap : e.gap? = some gap) :
    gap = .unary .invert := by
  have hown := ownFaults_of_faults h
  cases e with
  | unary op operand => cases op <;> cases hgap; rfl
  | binary op left right => cases hop : op.hasRule <;> simp_all [ownFaults, gap?]
  | starred => cases hown
  | foreign => cases hown
  | _ => cases hgap

/-! ## Statements and blocks -/

/-- A statement that there is a rule for, of expressions with a property: an expression, or an assignment to names. -/
def Statement.Of (P : Expr → Prop) : Statement → Prop
  | .expression e => P e
  | .assign targets e => (∀ t ∈ targets, targetFault? t = none) ∧ P e
  | .augmented target op e => targetFault? target = none ∧ P target ∧ op.hasRule = true ∧ P e
  | _ => False

mutual

/-- A block of statements that there are rules for, of expressions with a property. -/
def Block.Of (P : Expr → Prop) : Block → Prop
  | .text _ => True
  | .output e => P e
  | .action s => s.Of P
  | .loop target iterable body orElse => targetFault? target = none ∧ P iterable ∧ AllOf P body ∧ AllOf P orElse
  | .choice branches orElse => BranchesOf P branches ∧ AllOf P orElse

def AllOf (P : Expr → Prop) : List Block → Prop
  | [] => True
  | b :: bs => b.Of P ∧ AllOf P bs

def BranchesOf (P : Expr → Prop) : List (Expr × List Block) → Prop
  | [] => True
  | (test, body) :: rest => P test ∧ AllOf P body ∧ BranchesOf P rest

end

/-- A statement without faults. -/
abbrev Statement.Accepted : Statement → Prop := Statement.Of (·.faults = [])

/-- All expressions and targets in a block are without faults. -/
abbrev Block.Accepted : Block → Prop := Block.Of (·.faults = [])

abbrev AllAccepted : List Block → Prop := AllOf (·.faults = [])

abbrev BranchesAccepted : List (Expr × List Block) → Prop := BranchesOf (·.faults = [])

theorem allOf_iff {P : Expr → Prop} : ∀ {bs : List Block}, AllOf P bs ↔ ∀ b ∈ bs, b.Of P
  | [] => by simp [AllOf]
  | b :: bs => by rw [AllOf, allOf_iff, List.forall_mem_cons]

theorem AllAccepted.reverse {bs : List Block} (h : AllAccepted bs) : AllAccepted bs.reverse :=
  allOf_iff.2 fun b hb => allOf_iff.1 h b (List.mem_reverse.1 hb)

theorem BranchesAccepted.snoc {test : Expr} {body : List Block} (ht : test.faults = []) (hb : AllAccepted body) :
    ∀ {earlier : List (Expr × List Block)}, BranchesAccepted earlier → BranchesAccepted (earlier ++ [(test, body)])
  | [], _ => ⟨ht, hb, trivial⟩
  | (_, _) :: _, h => ⟨h.1, h.2.1, BranchesAccepted.snoc ht hb h.2.2⟩

/-! ## Compiling -/

theorem checkExpr_accepted (fragment : String) (e : Expr) : Gives (checkExpr fragment e) fun _ => e.faults = [] := by
  unfold checkExpr
  split
  · exact .pure ‹_›
  · exact .throw

theorem checkTarget_accepted (fragment : String) (e : Expr) :
    Gives (checkTarget fragment e) fun _ => targetFault? e = none := by
  unfold checkTarget
  split
  · exact .pure ‹_›
  · exact .throw

theorem parseExpression_accepted (fragment : String) : Gives (parseExpression fragment) fun e => e.faults = [] := by
  unfold parseExpression
  split
  · exact .throw
  · exact (checkExpr_accepted fragment _).bind fun _ h => .pure h

/-- A name that can be assigned can be read. -/
theorem Expr.faults_name {id : String} (h : targetFault? (.name id) = none) : (Expr.name id).faults = [] := by
  cases hid : isHidden id <;> simp_all [targetFault?, faults, faultLevels, ownFaults]

theorem checkTargets_accepted (code : String) : ∀ targets : List Expr,
    Gives (targets.forM (checkTarget code)) fun _ => ∀ t ∈ targets, targetFault? t = none
  | [] => .pure (by simp)
  | t :: ts => (checkTarget_accepted code t).bind fun _ ht u hu =>
      List.forall_mem_cons.2 ⟨ht, checkTargets_accepted code ts u hu⟩

theorem parseAction_accepted (code : String) : Gives (parseAction code) Statement.Accepted := by
  unfold parseAction
  extract_lets refuse
  split
  · exact .throw
  · dsimp only
    split
    · exact (checkExpr_accepted code _).bind fun _ h => .pure h
    · exact (checkTargets_accepted code _).bind fun _ ht => (checkExpr_accepted code _).bind fun _ he =>
        .pure ⟨ht, he⟩
    · split
      · refine (checkTarget_accepted code _).bind fun _ ht => (checkExpr_accepted code _).bind fun _ he => .pure ?_
        have hop : (Expr.binary _ _ _).ownFaults = [] := Expr.ownFaults_of_faults he
        exact ⟨ht, Expr.faults_name ht, by simpa [Expr.ownFaults] using hop, Expr.faults_part he _ (by simp [Expr.parts])⟩
      · exact .throw_bind
    · exact .throw_bind
  · exact .throw

theorem parseLoop_accepted (rest code : String) :
    Gives (parseLoop rest code) fun l => targetFault? l.1 = none ∧ l.2.faults = [] := by
  refine (Gives.any _).bind fun s _ => ?_
  split
  · exact (checkTarget_accepted code _).bind fun _ ht => (checkExpr_accepted code _).bind fun _ he => .pure ⟨ht, he⟩
  · exact .throw

theorem parseTest_accepted (rest code : String) : Gives (parseTest rest code) fun e => e.faults = [] := by
  refine (Gives.any _).bind fun s _ => ?_
  split
  · exact (checkExpr_accepted code _).bind fun _ he => .pure he
  · exact .throw

/-- What is kept of a block that is open is without faults. -/
def Opened.Accepted : Opened → Prop
  | .loopBody target iterable => targetFault? target = none ∧ iterable.faults = []
  | .loopElse target iterable body => (targetFault? target = none ∧ iterable.faults = []) ∧ AllAccepted body
  | .branch earlier test => BranchesAccepted earlier ∧ test.faults = []
  | .choiceElse branches => BranchesAccepted branches

theorem Opened.Accepted.close {last : List Block} (hl : AllAccepted last) :
    ∀ {o : Opened}, o.Accepted → (o.close last).Accepted
  | .loopBody .., h => ⟨h.1, h.2, hl, trivial⟩
  | .loopElse .., h => ⟨h.1.1, h.1.2, h.2, hl⟩
  | .branch .., h => ⟨h.1.snoc h.2 hl, trivial⟩
  | .choiceElse _, h => ⟨h, hl⟩

structure Nesting.Accepted (n : Nesting) : Prop where
  opened : ∀ o ∈ n.opened, o.1.Accepted ∧ AllAccepted o.2
  current : AllAccepted n.current

namespace Nesting.Accepted

variable {n : Nesting} (h : n.Accepted)

include h

theorem add {b : Block} (hb : b.Accepted) : (n.add b).Accepted := ⟨h.opened, hb, h.current⟩

theorem enter {o : Opened} (ho : o.Accepted) : (n.enter o).Accepted :=
  ⟨List.forall_mem_cons.2 ⟨⟨ho, h.current⟩, h.opened⟩, trivial⟩

/-- The innermost block that is open goes on as another one. -/
theorem turn {o o' : Opened} {outer : List Block} {rest : List (Opened × List Block)}
    (hopened : n.opened = (o, outer) :: rest) (ho : o.Accepted → o'.Accepted) :
    (⟨(o', outer) :: rest, []⟩ : Nesting).Accepted := by
  obtain ⟨hfirst, hrest⟩ := List.forall_mem_cons.1 (hopened ▸ h.opened)
  exact ⟨List.forall_mem_cons.2 ⟨⟨ho hfirst.1, hfirst.2⟩, hrest⟩, trivial⟩

/-- One more instruction. -/
theorem step (i : Instruction) : Gives (n.step i) Nesting.Accepted := by
  unfold Nesting.step
  split
  · exact .pure (h.add trivial)
  · exact (parseExpression_accepted _).bind fun _ he => .pure (h.add he)
  · extract_lets refuse
    split
    · split
      · rename_i heq
        obtain ⟨hfirst, hrest⟩ := List.forall_mem_cons.1 (heq ▸ h.opened)
        exact .pure ⟨hrest, hfirst.1.close h.current.reverse, hfirst.2⟩
      · exact .throw
    · exact (parseAction_accepted _).bind fun _ hs => .pure (h.add hs)
    · exact (parseLoop_accepted _ _).bind fun _ hl => .pure (h.enter hl)
    · exact (parseTest_accepted _ _).bind fun _ ht => .pure (h.enter ⟨trivial, ht⟩)
    · split
      · rename_i heq
        exact (parseTest_accepted _ _).bind fun _ ht => .pure
          (h.turn heq fun ho => ⟨ho.1.snoc ho.2 h.current.reverse, ht⟩)
      · exact .throw
    · refine .ite .throw ?_
      split
      · rename_i heq
        exact .pure (h.turn heq fun ho => ⟨ho, h.current.reverse⟩)
      · rename_i heq
        exact .pure (h.turn heq fun ho => ho.1.snoc ho.2 h.current.reverse)
      · exact .throw

end Nesting.Accepted

/-- All instructions, one after the other. -/
theorem Nesting.Accepted.steps {n : Nesting} (h : n.Accepted) :
    ∀ is : List Instruction, Gives (is.foldlM Nesting.step n) Nesting.Accepted
  | [] => .pure h
  | i :: is => (h.step i).bind fun _ hn => hn.steps is

end Template

/-- A template without faults. -/
def Template.Accepted (t : Template) : Prop := Template.AllAccepted t.blocks

theorem Template.compile_accepted (source : String) : Gives (Template.compile source) Template.Accepted := by
  have hstart : (⟨[], []⟩ : Template.Nesting).Accepted := ⟨by simp, trivial⟩
  refine Gives.bind (P := Template.AllAccepted) ?_ fun blocks hblocks => .pure hblocks
  refine (hstart.steps _).bind fun n hn => ?_
  split
  · exact .pure hn.current.reverse
  · exact .throw

/-! ## Refusing -/

namespace Template

/-- What a computation that needs no store refuses, it refuses as a template. -/
def Refuses {α : Type} (m : Except Fault α) : Prop := ∀ f, m = .error f → ∃ g code, f = .template g code

namespace Refuses

variable {α β : Type} {m : Except Fault α} {k : α → Except Fault β}

theorem pure {a : α} : Refuses (Pure.pure a : Except Fault α) := nofun

theorem throw {g : TemplateFault} {code : Option String} :
    Refuses (MonadExcept.throw (Fault.template g code) : Except Fault α) := fun _ h => by
  cases h
  exact ⟨g, code, rfl⟩

theorem bind (h : Refuses m) (hk : ∀ a, Refuses (k a)) : Refuses (m >>= k) := by
  intro f hf
  cases m with
  | error e =>
    cases hf
    exact h _ rfl
  | ok a => exact hk a f hf

theorem forM {γ : Type} {g : γ → Except Fault PUnit} (h : ∀ x, Refuses (g x)) : ∀ xs : List γ, Refuses (xs.forM g)
  | [] => .pure
  | x :: xs => (h x).bind fun _ => forM h xs

theorem foldlM {γ : Type} {g : α → γ → Except Fault α} (h : ∀ a x, Refuses (g a x)) :
    ∀ (xs : List γ) (a : α), Refuses (xs.foldlM g a)
  | [], _ => .pure
  | x :: xs, a => (h a x).bind fun b => foldlM h xs b

end Refuses

theorem checkExpr_refuses (fragment : String) (e : Expr) : Refuses (checkExpr fragment e) := by
  unfold checkExpr
  split
  · exact .pure
  · exact .throw

theorem checkTarget_refuses (fragment : String) (e : Expr) : Refuses (checkTarget fragment e) := by
  unfold checkTarget
  split
  · exact .pure
  · exact .throw

theorem parseExpression_refuses (fragment : String) : Refuses (parseExpression fragment) := by
  unfold parseExpression
  split
  · exact .throw
  · exact (checkExpr_refuses _ _).bind fun _ => .pure

theorem parseAction_refuses (code : String) : Refuses (parseAction code) := by
  unfold parseAction
  extract_lets refuse
  split
  · exact .throw
  · dsimp only
    split
    · exact (checkExpr_refuses _ _).bind fun _ => .pure
    · exact (Refuses.forM (checkTarget_refuses code) _).bind fun _ => (checkExpr_refuses _ _).bind fun _ => .pure
    · split
      · exact (checkTarget_refuses _ _).bind fun _ => (checkExpr_refuses _ _).bind fun _ => .pure
      · exact Refuses.throw.bind fun _ => (checkExpr_refuses _ _).bind fun _ => .pure
    · exact Refuses.throw.bind fun _ => .pure
  · exact .throw

theorem parseHeader_refuses (keyword rest code : String) : Refuses (parseHeader keyword rest code) := by
  unfold parseHeader
  extract_lets text
  split
  · exact .pure
  · exact .throw

theorem parseLoop_refuses (rest code : String) : Refuses (parseLoop rest code) := by
  refine (parseHeader_refuses _ _ _).bind fun s => ?_
  split
  · exact (checkTarget_refuses _ _).bind fun _ => (checkExpr_refuses _ _).bind fun _ => .pure
  · exact .throw

theorem parseTest_refuses (rest code : String) : Refuses (parseTest rest code) := by
  refine (parseHeader_refuses _ _ _).bind fun s => ?_
  split
  · exact (checkExpr_refuses _ _).bind fun _ => .pure
  · exact .throw

theorem Nesting.step_refuses (n : Nesting) (i : Instruction) : Refuses (n.step i) := by
  unfold Nesting.step
  split
  · exact .pure
  · exact (parseExpression_refuses _).bind fun _ => .pure
  · extract_lets refuse
    split
    · split
      · exact .pure
      · exact .throw
    · exact (parseAction_refuses _).bind fun _ => .pure
    · exact (parseLoop_refuses _ _).bind fun _ => .pure
    · exact (parseTest_refuses _ _).bind fun _ => .pure
    · split
      · exact (parseTest_refuses _ _).bind fun _ => .pure
      · exact .throw
    · split
      · exact .throw
      · split
        · exact .pure
        · exact .pure
        · exact .throw

end Template

/-- A source that is not compiled is refused as a template. -/
theorem Template.compile_refuses (source : String) : Refuses (Template.compile source) := by
  refine Refuses.bind ?_ fun _ => .pure
  refine (Refuses.foldlM Nesting.step_refuses _ _).bind fun n => ?_
  split
  · exact .pure
  · exact .throw

end NestedSite
