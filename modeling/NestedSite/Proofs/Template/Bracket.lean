import NestedSite.Proofs.Template.Check
import NestedSite.Template.Grammar.Statement

/-!
# Colons outside brackets

A colon outside brackets ends the header of a block. `Token.allWithin?` follows the brackets that tokens open and close,
and has no value once a colon stands outside of them. `Parser.Spans s u p` says of a parser that, where the brackets
`s` are open, the tokens it reads leave the brackets `u` open. Every parser of the expression grammar leaves the
brackets as they were (`spanning`), and only a function has a colon outside brackets: an expression without faults has
none (`expression_spans`).
-/

namespace NestedSite.Template

namespace Token

/-- The open brackets after a token; none if it closes one that is not open, or is a colon outside brackets. -/
def within? (open? : List String) : Token → Option (List String)
  | .operator text => if text == ":" && open?.isEmpty then none else bracketsAfter? open? text
  | _ => some open?

/-- The open brackets after tokens among which no colon stands outside brackets. -/
def allWithin? (open? : List String) (ts : List Token) : Option (List String) := ts.foldlM within? open?

/-- Whether an operator is neither a bracket nor a colon. -/
def isPlain (text : String) : Bool := text ∉ ["(", ")", "[", "]", "\x7b", "\x7d", ":"]

@[simp] theorem allWithin?_nil (s : List String) : allWithin? s [] = some s := rfl

@[simp] theorem allWithin?_cons (s : List String) (t : Token) (ts : List Token) :
    allWithin? s (t :: ts) = (within? s t).bind fun u => allWithin? u ts := rfl

theorem allWithin?_append (s : List String) (ts us : List Token) :
    allWithin? s (ts ++ us) = (allWithin? s ts).bind fun u => allWithin? u us := by
  induction ts generalizing s with
  | nil => rfl
  | cons t ts ih =>
    rw [List.cons_append, allWithin?_cons, allWithin?_cons, Option.bind_assoc]
    exact congrArg _ (funext fun u => ih u)

@[simp] theorem within?_name (s : List String) (text : String) : within? s (.name text) = some s := rfl

theorem within?_plain (s : List String) {text : String} (h : isPlain text = true) :
    within? s (.operator text) = some s := by
  simp only [isPlain, decide_eq_true_eq, List.mem_cons, List.not_mem_nil, or_false, not_or] at h
  obtain ⟨hop, hcp, hos, hcs, hob, hcb, hcolon⟩ := h
  simp [within?, bracketsAfter?, opening?, *]

@[simp] theorem within?_colon (b : String) (s : List String) : within? (b :: s) (.operator ":") = some (b :: s) := rfl

/-- A colon outside brackets has one place, if the tokens before it hold none. -/
theorem append_colon_inj {ts us : List Token} {rest rest' : List Token} (hts : allWithin? [] ts = some [])
    (hus : allWithin? [] us = some []) (h : ts ++ .operator ":" :: rest = us ++ .operator ":" :: rest') :
    ts = us ∧ rest = rest' := by
  rcases List.append_eq_append_iff.mp h with ⟨more, rfl, htail⟩ | ⟨more, rfl, htail⟩
  · cases more with
    | nil => exact ⟨(List.append_nil _).symm, (List.cons.inj htail).2⟩
    | cons t more =>
      rw [← (List.cons.inj htail).1, allWithin?_append, hts] at hus
      cases hus
  · cases more with
    | nil => exact ⟨List.append_nil _, (List.cons.inj htail).2.symm⟩
    | cons t more =>
      rw [← (List.cons.inj htail).1, allWithin?_append, hus] at hts
      cases hts

end Token

namespace Parser

open Token

variable {α β : Type} {s u v : List String} {p q : Parser α} {f : α → Parser β}

theorem bind_eq_some {ts ts' : List Token} {b : β} :
    (p >>= f) ts = some (b, ts') ↔ ∃ a mid, p ts = some (a, mid) ∧ f a mid = some (b, ts') := by
  show (p ts).bind (fun r => f r.1 r.2) = _ ↔ _
  simp [Option.bind_eq_some_iff]

theorem orElse_eq_some {ts ts' : List Token} {a : α} (h : (p <|> q) ts = some (a, ts')) :
    p ts = some (a, ts') ∨ q ts = some (a, ts') := by
  cases hp : p ts with
  | none => exact .inr (by simpa [HOrElse.hOrElse, OrElse.orElse, Alternative.orElse, StateT.orElse, hp] using h)
  | some r => exact .inl (by simpa [HOrElse.hOrElse, OrElse.orElse, Alternative.orElse, StateT.orElse, hp] using h)

theorem token_eq_some {t : Token} {ts ts' : List Token} : token t ts = some ((), ts') ↔ ts = t :: ts' := by
  cases ts with
  | nil => simp [token]
  | cons u rest =>
    by_cases h : u = t
    · simp [token, h]
    · simp [token, h]

theorem accept_eq_some {t : Token} {ts ts' : List Token} {b : Bool} (h : accept t ts = some (b, ts')) :
    (b = true ∧ ts = t :: ts') ∨ (b = false ∧ ts = ts') := by
  cases ts with
  | nil =>
    cases h
    exact .inr ⟨rfl, rfl⟩
  | cons u rest =>
    by_cases hu : u = t
    · simp only [accept, hu, beq_self_eq_true, if_true, Option.some.injEq, Prod.mk.injEq] at h
      exact .inl ⟨h.1.symm, by rw [hu, h.2]⟩
    · simp only [accept, beq_iff_eq, hu, if_false, Option.some.injEq, Prod.mk.injEq] at h
      exact .inr ⟨h.1.symm, h.2⟩

theorem check_eq_some {b : Bool} {ts ts' : List Token} : check b ts = some ((), ts') ↔ b = true ∧ ts = ts' := by
  cases b with
  | false => exact ⟨nofun, nofun⟩
  | true => exact ⟨fun h => ⟨rfl, congrArg Prod.snd (Option.some.inj h)⟩, fun h => congrArg (fun us => some ((), us)) h.2⟩

theorem tokenThen_eq_some {t : Token} {f : Unit → Parser α} {ts ts' : List Token} {a : α} :
    (token t >>= f) ts = some (a, ts') ↔ ∃ mid, ts = t :: mid ∧ f () mid = some (a, ts') := by
  rw [bind_eq_some]
  exact ⟨fun ⟨_, mid, hmid, h⟩ => ⟨mid, token_eq_some.mp hmid, h⟩,
    fun ⟨mid, hmid, h⟩ => ⟨(), mid, token_eq_some.mpr hmid, h⟩⟩

theorem acceptThen_eq_some {t : Token} {p q : Parser α} {ts ts' : List Token} {a : α}
    (h : (accept t >>= fun b => if b = true then p else q) ts = some (a, ts')) :
    (∃ mid, ts = t :: mid ∧ p mid = some (a, ts')) ∨ q ts = some (a, ts') := by
  obtain ⟨b, mid, haccept, hrest⟩ := bind_eq_some.mp h
  rcases accept_eq_some haccept with ⟨rfl, rfl⟩ | ⟨rfl, rfl⟩
  · exact .inl ⟨mid, rfl, hrest⟩
  · exact .inr hrest

/-- A string token is taken, and nothing else. -/
theorem stringPart_eq_some {n : Nat} {ts ts' : List Token} {r : Bool × List Expr}
    (h : stringPart n ts = some (r, ts')) : ∃ markers triple body, ts = .string markers triple body :: ts' := by
  cases n with
  | zero =>
    rw [stringPart] at h
    cases h
  | succ n =>
    rw [stringPart] at h
    dsimp only at h
    split at h
    · rename_i markers triple body rest
      refine ⟨markers, triple, body, congrArg _ ?_⟩
      split at h
      · obtain ⟨_, -, heq⟩ := Option.map_eq_some_iff.mp h
        exact (Prod.mk.inj heq).2
      · split at h
        · obtain ⟨⟨parts, after⟩, -, heq⟩ := Option.bind_eq_some_iff.mp h
          dsimp only at heq
          split at heq
          · cases heq
            rfl
          · cases heq
        · obtain ⟨_, -, heq⟩ := Option.map_eq_some_iff.mp h
          exact (Prod.mk.inj heq).2
    · cases h

/-- Where the brackets `s` are open, what the parser reads leaves the brackets `u` open. -/
def Spans (s u : List String) (p : Parser α) : Prop :=
  ∀ ts a ts', p ts = some (a, ts') → ∃ used, ts = used ++ ts' ∧ allWithin? s used = some u

namespace Spans

theorem pure (a : α) : Spans s s (Pure.pure a : Parser α) := by
  intro ts b ts' h
  cases h
  exact ⟨[], rfl, rfl⟩

theorem failure : Spans s u (failure : Parser α) := fun _ _ _ h => by cases h

theorem bind (hp : Spans s u p) (hf : ∀ a, Spans u v (f a)) : Spans s v (p >>= f) := by
  intro ts b ts' h
  obtain ⟨a, mid, ha, hb⟩ := bind_eq_some.mp h
  obtain ⟨used, rfl, hused⟩ := hp _ _ _ ha
  obtain ⟨more, rfl, hmore⟩ := hf a _ _ _ hb
  exact ⟨used ++ more, (List.append_assoc _ _ _).symm, by rw [allWithin?_append, hused]; exact hmore⟩

theorem orElse (hp : Spans s u p) (hq : Spans s u q) : Spans s u (p <|> q) :=
  fun ts a ts' h => (orElse_eq_some h).elim (hp ts a ts') (hq ts a ts')

theorem ite {c : Prop} [Decidable c] (hp : Spans s u p) (hq : Spans s u q) : Spans s u (if c then p else q) := by
  split
  · exact hp
  · exact hq

theorem map (g : α → β) (hp : Spans s u p) : Spans s u (g <$> p) := hp.bind fun a => .pure (g a)

theorem get : Spans s s (MonadState.get : Parser (List Token)) := fun ts a ts' h => by
  cases h
  exact ⟨[], rfl, rfl⟩

theorem peek : Spans s s peek := get.bind fun _ => .pure _

theorem sees (t : Token) : Spans s s (sees t) := peek.bind fun _ => .pure _

theorem seesOp (text : String) : Spans s s (seesOp text) := .sees _

theorem seesWord (text : String) : Spans s s (seesWord text) := .sees _

theorem seesBinding : Spans s s seesBinding := get.bind fun _ => by split <;> exact .pure _

theorem seesClause : Spans s s seesClause := (seesWord _).bind fun _ => (seesWord _).bind fun _ => .pure _

theorem check (b : Bool) : Spans s s (check b) := .ite (.pure _) .failure

theorem token {t : Token} (h : within? s t = some u) : Spans s u (token t) := by
  intro ts a ts' hread
  cases token_eq_some.mp hread
  exact ⟨[t], rfl, by rw [allWithin?_cons, h]; rfl⟩

theorem word (text : String) : Spans s s (word text) := .token rfl

theorem op {text : String} (h : isPlain text = true) : Spans s s (op text) := .token (within?_plain s h)

theorem colon {b : String} : Spans (b :: s) (b :: s) (Parser.op ":") := .token rfl

/-- A token that may be taken, with what is read after it and what is read without it. -/
theorem acceptThen {t : Token} {p q : Parser α} (h : within? s t = some u) (hp : Spans u v p) (hq : Spans s v q) :
    Spans s v (Parser.accept t >>= fun b => if b = true then p else q) := by
  intro ts a ts' hread
  rcases acceptThen_eq_some hread with ⟨mid, rfl, hafter⟩ | hwithout
  · obtain ⟨used, rfl, hused⟩ := hp _ _ _ hafter
    exact ⟨t :: used, rfl, by rw [allWithin?_cons, h]; exact hused⟩
  · exact hq _ _ _ hwithout

theorem accept {t : Token} (h : within? s t = some s) : Spans s s (accept t) := by
  intro ts b ts' hread
  rcases accept_eq_some hread with ⟨rfl, rfl⟩ | ⟨rfl, rfl⟩
  · exact ⟨[t], rfl, by rw [allWithin?_cons, h]; rfl⟩
  · exact ⟨[], rfl, rfl⟩

theorem acceptOp {text : String} (h : isPlain text = true) : Spans s s (acceptOp text) := .accept (within?_plain s h)

theorem acceptColon {b : String} : Spans (b :: s) (b :: s) (Parser.acceptOp ":") := .accept rfl

theorem acceptWord (text : String) : Spans s s (acceptWord text) := .accept rfl

theorem identifier : Spans s s identifier := by
  intro ts a ts' h
  match ts, h with
  | .name text :: rest, h =>
    simp only [Parser.identifier] at h
    split at h
    · cases h
    · cases h
      exact ⟨[.name text], rfl, rfl⟩

theorem operatorOf {ops : List (String × BinaryOp)} (h : ∀ o ∈ ops, isPlain o.1 = true) :
    Spans s s (operatorOf ops) := by
  intro ts a ts' hread
  unfold Parser.operatorOf at hread
  split at hread
  · rename_i text rest
    obtain ⟨o, hfound, heq⟩ := Option.map_eq_some_iff.mp hread
    obtain ⟨before, after, rfl, -⟩ := List.lookup_eq_some_iff.mp hfound
    cases heq
    exact ⟨[.operator text], rfl, by rw [allWithin?_cons, within?_plain s (h (text, a) (by simp))]; rfl⟩
  · cases hread

theorem compareOp : Spans s s compareOp := by
  intro ts a ts' h
  unfold Parser.compareOp at h
  split at h <;> cases h
  case h_1 => exact ⟨[.operator "=="], rfl, rfl⟩
  case h_2 => exact ⟨[.operator "!="], rfl, rfl⟩
  case h_3 => exact ⟨[.operator "<="], rfl, rfl⟩
  case h_4 => exact ⟨[.operator "<"], rfl, rfl⟩
  case h_5 => exact ⟨[.operator ">="], rfl, rfl⟩
  case h_6 => exact ⟨[.operator ">"], rfl, rfl⟩
  case h_7 => exact ⟨[.name "not", .name "in"], rfl, rfl⟩
  case h_8 => exact ⟨[.name "in"], rfl, rfl⟩
  case h_9 => exact ⟨[.name "is", .name "not"], rfl, rfl⟩
  case h_10 => exact ⟨[.name "is"], rfl, rfl⟩

theorem many (n : Nat) (hp : Spans s s p) : Spans s s (many n p) := by
  induction n with
  | zero => exact .pure _
  | succ n ih => exact .orElse (hp.bind fun _ => ih.bind fun _ => .pure _) (.pure _)

theorem moreItems (n : Nat) (hp : Spans s s p) : Spans s s (moreItems n p) :=
  .many n ((op (by decide)).bind fun _ => hp)

theorem items (n : Nat) (hp : Spans s s p) : Spans s s (items n p) :=
  hp.bind fun _ => (moreItems n hp).bind fun _ => .pure _

theorem stringPart (n : Nat) (s : List String) : Spans s s (stringPart n) := by
  intro ts r ts' h
  obtain ⟨markers, triple, body, rfl⟩ := stringPart_eq_some h
  exact ⟨[.string markers triple body], rfl, rfl⟩

/-- One item or several with commas between them. -/
theorem several {n : Nat} {p : Parser Expr} (hp : Spans s s p) (g : Expr → Expr) : Spans s s (do
    let first ← p
    if ← Parser.seesOp "," then
      let rest ← Parser.moreItems n p
      let _ ← Parser.acceptOp ","
      return .tuple (first :: rest)
    else return g first) :=
  hp.bind fun _ => (seesOp _).bind fun _ =>
    .ite ((moreItems n hp).bind fun _ => (acceptOp (by decide)).bind fun _ => .pure _) (.pure _)

end Spans

/-! ## The grammar of expressions -/

/-- An expression is a function, a chain of operators, or a choice between two. -/
theorem expression_eq_some {n : Nat} {ts ts' : List Token} {e : Expr} (h : expression (n + 1) ts = some (e, ts')) :
    (∃ mid mid' value, ts = .name "lambda" :: mid ∧ parameters n false mid = some ((), .operator ":" :: mid') ∧
        expression n mid' = some (value, ts') ∧ e = .foreign "Lambda") ∨
      disjunction n ts = some (e, ts') ∨
      ∃ body test orElse mid mid', disjunction n ts = some (body, .name "if" :: mid) ∧
        disjunction n mid = some (test, .name "else" :: mid') ∧ expression n mid' = some (orElse, ts') ∧
        e = .conditional test body orElse := by
  rw [expression] at h
  rcases acceptThen_eq_some h with ⟨mid, rfl, hlambda⟩ | hchoice
  · obtain ⟨_, _, hparameters, hcolon⟩ := bind_eq_some.mp hlambda
    obtain ⟨mid', rfl, hbody⟩ := tokenThen_eq_some.mp hcolon
    obtain ⟨value, last, hvalue, hreturn⟩ := bind_eq_some.mp hbody
    cases hreturn
    exact .inl ⟨mid, mid', value, rfl, hparameters, hvalue, rfl⟩
  · obtain ⟨body, _, hbody, hrest⟩ := bind_eq_some.mp hchoice
    obtain ⟨_, _, hget, hif⟩ := bind_eq_some.mp hrest
    cases hget
    rcases acceptThen_eq_some hif with ⟨mid, rfl, hthen⟩ | hreturn
    · rcases orElse_eq_some hthen with hwhole | hback
      · obtain ⟨test, _, htest, helse⟩ := bind_eq_some.mp hwhole
        obtain ⟨mid', rfl, hlast⟩ := tokenThen_eq_some.mp helse
        obtain ⟨orElse, _, horElse, hreturn⟩ := bind_eq_some.mp hlast
        cases hreturn
        exact .inr (.inr ⟨body, test, orElse, mid, mid', hbody, htest, horElse, rfl⟩)
      · cases hback
        exact .inr (.inl hbody)
    · cases hreturn
      exact .inr (.inl hbody)

theorem binaryLevels_plain : ∀ ops ∈ binaryLevels, ∀ o ∈ ops, isPlain o.1 = true := by decide

/-- Every parser of the grammar of expressions leaves the brackets as they were, in the depth `n`: those without a
colon of their own anywhere, the others inside brackets. -/
structure Spanning (n : Nat) : Prop where
  strings (s : List String) : Spans s s (strings n)
  expression (b : String) (s : List String) : Spans (b :: s) (b :: s) (expression n)
  disjunction (s : List String) : Spans s s (disjunction n)
  conjunction (s : List String) : Spans s s (conjunction n)
  inversion (s : List String) : Spans s s (inversion n)
  binary (s : List String) {levels : List (List (String × BinaryOp))}
    (h : ∀ ops ∈ levels, ∀ o ∈ ops, isPlain o.1 = true) : Spans s s (binary n levels)
  factor (s : List String) : Spans s s (factor n)
  primary (s : List String) : Spans s s (primary n)
  trailer (s : List String) : Spans s s (trailer n)
  subscripts (b : String) (s : List String) : Spans (b :: s) (b :: s) (subscripts n)
  slice (b : String) (s : List String) : Spans (b :: s) (b :: s) (slice n)
  named (b : String) (s : List String) : Spans (b :: s) (b :: s) (named n)
  starNamed (b : String) (s : List String) : Spans (b :: s) (b :: s) (starNamed n)
  starExpression (b : String) (s : List String) : Spans (b :: s) (b :: s) (starExpression n)
  starExpressions (b : String) (s : List String) : Spans (b :: s) (b :: s) (starExpressions n)
  yielded (b : String) (s : List String) : Spans (b :: s) (b :: s) (yielded n)
  target (s : List String) : Spans s s (target n)
  targets (s : List String) : Spans s s (targets n)
  clauses (s : List String) : Spans s s (clauses n)
  arguments (b : String) (s : List String) : Spans (b :: s) (b :: s) (arguments n)
  argument (b : String) (s : List String) : Spans (b :: s) (b :: s) (argument n)
  parameters (b : String) (s : List String) (annotated : Bool) : Spans (b :: s) (b :: s) (parameters n annotated)
  atom (s : List String) : Spans s s (atom n)
  bracketed (s : List String) : Spans ("(" :: s) s (bracketed n)
  braced (s : List String) : Spans ("\x7b" :: s) s (braced n)

namespace Spanning

variable {n : Nat}

theorem zero : Spanning 0 := by
  constructor <;> intros <;> exact .failure

theorem strings_succ (n : Nat) (s : List String) : Spans s s (Parser.strings (n + 1)) := by
  rw [Parser.strings]
  refine (Spans.stringPart n s).bind fun _ => (Spans.many n (.stringPart n s)).bind fun _ => ?_
  exact .ite (.pure _) (.ite .failure (.ite (.pure _) (.pure _)))

theorem expression_succ (h : Spanning n) (b : String) (s : List String) :
    Spans (b :: s) (b :: s) (Parser.expression (n + 1)) := by
  intro ts e ts' hread
  rcases expression_eq_some hread with ⟨mid, mid', value, rfl, hparameters, hvalue, -⟩ | hchain |
    ⟨body, test, orElse, mid, mid', hbody, htest, horElse, -⟩
  · obtain ⟨used, rfl, hused⟩ := h.parameters b s false _ _ _ hparameters
    obtain ⟨more, rfl, hmore⟩ := h.expression b s _ _ _ hvalue
    exact ⟨.name "lambda" :: (used ++ .operator ":" :: more), by simp, by simp [allWithin?_append, hused, hmore]⟩
  · exact h.disjunction _ _ _ _ hchain
  · obtain ⟨used, rfl, hused⟩ := h.disjunction (b :: s) _ _ _ hbody
    obtain ⟨more, rfl, hmore⟩ := h.disjunction (b :: s) _ _ _ htest
    obtain ⟨last, rfl, hlast⟩ := h.expression b s _ _ _ horElse
    exact ⟨used ++ .name "if" :: (more ++ .name "else" :: last), by simp,
      by simp [allWithin?_append, hused, hmore, hlast]⟩

theorem disjunction_succ (h : Spanning n) (s : List String) : Spans s s (Parser.disjunction (n + 1)) := by
  rw [Parser.disjunction]
  exact (h.conjunction s).bind fun _ =>
    (Spans.many n ((Spans.word _).bind fun _ => h.conjunction s)).bind fun _ => .pure _

theorem conjunction_succ (h : Spanning n) (s : List String) : Spans s s (Parser.conjunction (n + 1)) := by
  rw [Parser.conjunction]
  exact (h.inversion s).bind fun _ => (Spans.many n ((Spans.word _).bind fun _ => h.inversion s)).bind fun _ => .pure _

theorem inversion_succ (h : Spanning n) (s : List String) : Spans s s (Parser.inversion (n + 1)) := by
  rw [Parser.inversion]
  refine (Spans.acceptWord _).bind fun _ => .ite ((h.inversion s).bind fun _ => .pure _) ?_
  have hoperand := h.binary s binaryLevels_plain
  exact hoperand.bind fun _ =>
    (Spans.many n (Spans.compareOp.bind fun _ => hoperand.bind fun _ => .pure _)).bind fun _ => .pure _

theorem binary_succ (h : Spanning n) (s : List String) {levels : List (List (String × BinaryOp))}
    (hplain : ∀ ops ∈ levels, ∀ o ∈ ops, isPlain o.1 = true) : Spans s s (Parser.binary (n + 1) levels) := by
  cases levels with
  | nil =>
    rw [Parser.binary]
    exact h.factor s
  | cons ops levels =>
    rw [Parser.binary]
    obtain ⟨hops, hlevels⟩ := List.forall_mem_cons.mp hplain
    have hoperand := h.binary s hlevels
    exact hoperand.bind fun _ =>
      (Spans.many n ((Spans.operatorOf hops).bind fun _ => hoperand.bind fun _ => .pure _)).bind fun _ => .pure _

theorem factor_succ (h : Spanning n) (s : List String) : Spans s s (Parser.factor (n + 1)) := by
  rw [Parser.factor]
  have hfactor := h.factor s
  refine (Spans.acceptOp (by decide)).bind fun _ => .ite (hfactor.bind fun _ => .pure _) ?_
  refine (Spans.acceptOp (by decide)).bind fun _ => .ite (hfactor.bind fun _ => .pure _) ?_
  refine (Spans.acceptOp (by decide)).bind fun _ => .ite (hfactor.bind fun _ => .pure _) ?_
  have hpower (base : Expr) : Spans s s (do
      if ← acceptOp "**" then return .binary .pow base (← Parser.factor n) else return base) :=
    (Spans.acceptOp (by decide)).bind fun _ => .ite (hfactor.bind fun _ => .pure _) (.pure _)
  exact (Spans.acceptWord _).bind fun _ =>
    .ite (((h.primary s).bind fun _ => .pure _).bind hpower) ((h.primary s).bind hpower)

theorem primary_succ (h : Spanning n) (s : List String) : Spans s s (Parser.primary (n + 1)) := by
  rw [Parser.primary]
  exact (h.atom s).bind fun _ => (Spans.many n (h.trailer s)).bind fun _ => .pure _

theorem trailer_succ (h : Spanning n) (s : List String) : Spans s s (Parser.trailer (n + 1)) := by
  rw [Parser.trailer]
  refine (Spans.acceptOp (by decide)).bind fun _ => .ite (Spans.identifier.bind fun _ => .pure _) ?_
  refine .acceptThen (u := "[" :: s) rfl ?_ ?_
  · exact (h.subscripts "[" s).bind fun _ => (Spans.token rfl).bind fun _ => .pure _
  · refine (Spans.token (u := "(" :: s) rfl).bind fun _ => (h.arguments "(" s).bind fun _ => ?_
    exact (Spans.token rfl).bind fun _ => .pure _

theorem subscripts_succ (h : Spanning n) (b : String) (s : List String) :
    Spans (b :: s) (b :: s) (Parser.subscripts (n + 1)) := by
  rw [Parser.subscripts]
  have hone : Spans (b :: s) (b :: s) (do
      if ← acceptOp "*" then return .starred (← Parser.expression n) else Parser.slice n) :=
    (Spans.acceptOp (by decide)).bind fun _ => .ite ((h.expression b s).bind fun _ => .pure _) (h.slice b s)
  exact .several hone _

theorem slice_succ (h : Spanning n) (b : String) (s : List String) :
    Spans (b :: s) (b :: s) (Parser.slice (n + 1)) := by
  rw [Parser.slice]
  have hbound : Spans (b :: s) (b :: s) ((some <$> Parser.expression n) <|> pure none : Parser (Option Expr)) :=
    .orElse (.map _ (h.expression b s)) (.pure _)
  have hslicing (lower : Option Expr) : Spans (b :: s) (b :: s) (do
      op ":"
      let upper ← (some <$> Parser.expression n) <|> pure none
      let step ← if ← acceptOp ":" then (some <$> Parser.expression n) <|> pure none else pure none
      return Expr.slice lower upper step) :=
    Spans.colon.bind fun _ => hbound.bind fun _ => Spans.acceptColon.bind fun _ =>
      .ite (hbound.bind fun _ => .pure _) ((Spans.pure _).bind fun _ => .pure _)
  refine (Spans.seesOp _).bind fun _ => .ite (hslicing _) ?_
  exact Spans.seesBinding.bind fun _ => (h.named b s).bind fun _ => (Spans.seesOp _).bind fun _ =>
    .ite (hslicing _) (.pure _)

theorem named_succ (h : Spanning n) (b : String) (s : List String) :
    Spans (b :: s) (b :: s) (Parser.named (n + 1)) := by
  rw [Parser.named]
  refine .orElse ?_ ?_
  · exact Spans.identifier.bind fun _ => (Spans.op (by decide)).bind fun _ => (h.expression b s).bind fun _ => .pure _
  · exact (h.expression b s).bind fun _ => (Spans.seesOp _).bind fun _ => (Spans.check _).bind fun _ => .pure _

theorem starNamed_succ (h : Spanning n) (b : String) (s : List String) :
    Spans (b :: s) (b :: s) (Parser.starNamed (n + 1)) := by
  rw [Parser.starNamed]
  exact (Spans.acceptOp (by decide)).bind fun _ =>
    .ite ((h.binary _ binaryLevels_plain).bind fun _ => .pure _) (h.named b s)

theorem starExpression_succ (h : Spanning n) (b : String) (s : List String) :
    Spans (b :: s) (b :: s) (Parser.starExpression (n + 1)) := by
  rw [Parser.starExpression]
  exact (Spans.acceptOp (by decide)).bind fun _ =>
    .ite ((h.binary _ binaryLevels_plain).bind fun _ => .pure _) (h.expression b s)

theorem starExpressions_succ (h : Spanning n) (b : String) (s : List String) :
    Spans (b :: s) (b :: s) (Parser.starExpressions (n + 1)) := by
  rw [Parser.starExpressions]
  exact .several (h.starExpression b s) id

theorem yielded_succ (h : Spanning n) (b : String) (s : List String) :
    Spans (b :: s) (b :: s) (Parser.yielded (n + 1)) := by
  rw [Parser.yielded]
  refine (Spans.word _).bind fun _ => (Spans.acceptWord _).bind fun _ => .ite ?_ ?_
  · exact (h.expression b s).bind fun _ => .pure _
  · exact (Spans.orElse (.map _ (h.starExpressions b s)) (.pure _)).bind fun _ => .pure _

theorem target_succ (h : Spanning n) (s : List String) : Spans s s (Parser.target (n + 1)) := by
  rw [Parser.target]
  exact (Spans.acceptOp (by decide)).bind fun _ => (h.primary s).bind fun _ => (Spans.check _).bind fun _ => .pure _

theorem targets_succ (h : Spanning n) (s : List String) : Spans s s (Parser.targets (n + 1)) := by
  rw [Parser.targets]
  exact .several (h.target s) id

theorem clauses_succ (h : Spanning n) (s : List String) : Spans s s (Parser.clauses (n + 1)) := by
  rw [Parser.clauses]
  have hclause : Spans s s (do
      let _ ← acceptWord "async"
      word "for"
      let _ ← Parser.targets n
      word "in"
      let _ ← Parser.disjunction n
      let _ ← many n (do word "if"; Parser.disjunction n)) :=
    (Spans.acceptWord _).bind fun _ => (Spans.word _).bind fun _ => (h.targets s).bind fun _ =>
      (Spans.word _).bind fun _ => (h.disjunction s).bind fun _ =>
        (Spans.many n ((Spans.word _).bind fun _ => h.disjunction s)).bind fun _ => .pure _
  exact hclause.bind fun _ => (Spans.many n hclause).bind fun _ => .pure _

theorem arguments_succ (h : Spanning n) (b : String) (s : List String) :
    Spans (b :: s) (b :: s) (Parser.arguments (n + 1)) := by
  rw [Parser.arguments]
  refine (Spans.seesOp _).bind fun _ => .ite (.pure _) ?_
  refine (h.argument b s).bind fun first => Spans.seesClause.bind fun _ => .ite ?_ ?_
  · split
    · exact .failure
    · exact (h.clauses _).bind fun _ => (Spans.seesOp _).bind fun _ => (Spans.check _).bind fun _ => .pure _
    · exact .failure
  · exact (Spans.moreItems n (h.argument b s)).bind fun _ => (Spans.acceptOp (by decide)).bind fun _ =>
      (Spans.check _).bind fun _ => .pure _

theorem argument_succ (h : Spanning n) (b : String) (s : List String) :
    Spans (b :: s) (b :: s) (Parser.argument (n + 1)) := by
  rw [Parser.argument]
  have hvalue := h.expression b s
  refine (Spans.acceptOp (by decide)).bind fun _ => .ite (hvalue.bind fun _ => .pure _) ?_
  refine (Spans.acceptOp (by decide)).bind fun _ => .ite (hvalue.bind fun _ => .pure _) (.orElse ?_ ?_)
  · exact Spans.identifier.bind fun _ => (Spans.op (by decide)).bind fun _ => hvalue.bind fun _ => .pure _
  · exact (h.named b s).bind fun _ => (Spans.seesOp _).bind fun _ => (Spans.check _).bind fun _ => .pure _

theorem parameters_succ (h : Spanning n) (b : String) (s : List String) (annotated : Bool) :
    Spans (b :: s) (b :: s) (Parser.parameters (n + 1) annotated) := by
  rw [Parser.parameters]
  have hexpression := h.expression b s
  have hannotation : Spans (b :: s) (b :: s) (do
      if annotated then
        if ← acceptOp ":" then
          let _ ← Parser.expression n : Parser Unit) :=
    .ite (Spans.acceptColon.bind fun _ => .ite (hexpression.bind fun _ => .pure _) (.pure _)) (.pure _)
  have hstarAnnotation : Spans (b :: s) (b :: s) (do
      if annotated then
        if ← acceptOp ":" then
          let _ ← Parser.starExpression n : Parser Unit) :=
    .ite (Spans.acceptColon.bind fun _ => .ite ((h.starExpression b s).bind fun _ => .pure _) (.pure _)) (.pure _)
  have hseparator : Spans (b :: s) (b :: s) (do
      if ← seesOp (if annotated = true then ")" else ":") then pure () else op "," : Parser Unit) :=
    (Spans.seesOp _).bind fun _ => .ite (.pure _) (.op (by decide))
  have hplain : Spans (b :: s) (b :: s) (do
      let _ ← identifier
      (do
        if annotated then
          if ← acceptOp ":" then
            let _ ← Parser.expression n : Parser Unit)
      if ← acceptOp "=" then (do let _ ← Parser.expression n; pure true) else pure false) :=
    Spans.identifier.bind fun _ => hannotation.bind fun _ => (Spans.acceptOp (by decide)).bind fun _ =>
      .ite (hexpression.bind fun _ => .pure _) (.pure _)
  have hmany := Spans.many n (hplain.bind fun d => hseparator.bind fun _ => .pure d)
  extract_lets ending stars
  have hending (c : Unit) : Spans (b :: s) (b :: s) (ending c) := (Spans.seesOp _).bind fun _ => .check _
  have hstars (c : Unit) : Spans (b :: s) (b :: s) (stars c) :=
    (Spans.acceptOp (by decide)).bind fun _ => .ite (Spans.identifier.bind fun _ => hannotation.bind fun _ =>
      hseparator.bind hending) (hending ())
  refine hmany.bind fun _ => (Spans.acceptOp (by decide)).bind fun _ => ?_
  extract_lets middle slashed
  have hmiddle (later : List Bool) : Spans (b :: s) (b :: s) (middle later) := by
    refine (Spans.check _).bind fun _ => (Spans.acceptOp (by decide)).bind fun _ => .ite ?_ (hstars ())
    refine (Spans.acceptOp (by decide)).bind fun _ => .ite (hmany.bind fun _ => (Spans.check _).bind hstars) ?_
    exact Spans.identifier.bind fun _ => hstarAnnotation.bind fun _ => hseparator.bind fun _ =>
      hmany.bind fun _ => hstars ()
  have hslashed (c : Unit) : Spans (b :: s) (b :: s) (slashed c) :=
    .ite (hmany.bind hmiddle) ((Spans.pure _).bind hmiddle)
  exact .ite ((Spans.check _).bind fun _ => hseparator.bind hslashed) (hslashed ())

theorem atom_succ (h : Spanning n) (s : List String) : Spans s s (Parser.atom (n + 1)) := by
  rw [Parser.atom]
  refine Spans.peek.bind fun next => ?_
  split
  · exact (Spans.word _).bind fun _ => .pure _
  · exact (Spans.word _).bind fun _ => .pure _
  · exact (Spans.word _).bind fun _ => .pure _
  · exact Spans.identifier.bind fun _ => .pure _
  · exact h.strings s
  · refine (Spans.token rfl).bind fun _ => ?_
    split
    · exact .pure _
    · exact .failure
  · exact (Spans.op (by decide)).bind fun _ => .pure _
  · exact (Spans.token rfl).bind fun _ => h.bracketed s
  · refine (Spans.token (u := "[" :: s) rfl).bind fun _ => ?_
    refine .acceptThen (u := s) rfl (.pure _) ((h.starNamed "[" s).bind fun _ => Spans.seesClause.bind fun _ => ?_)
    have hclose (e : Expr) : Spans ("[" :: s) s (do op "]"; return e) := (Spans.token rfl).bind fun _ => .pure _
    refine .ite ?_ ?_
    · exact (Spans.check _).bind fun _ => (h.clauses _).bind fun _ => hclose _
    · exact (Spans.moreItems n (h.starNamed "[" s)).bind fun _ => (Spans.acceptOp (by decide)).bind fun _ => hclose _
  · exact (Spans.token rfl).bind fun _ => h.braced s
  · exact .failure

theorem bracketed_succ (h : Spanning n) (s : List String) : Spans ("(" :: s) s (Parser.bracketed (n + 1)) := by
  rw [Parser.bracketed]
  have hclose (e : Expr) : Spans ("(" :: s) s (do op ")"; return e) := (Spans.token rfl).bind fun _ => .pure _
  refine .acceptThen (u := s) rfl (.pure _) ((Spans.seesWord _).bind fun _ => .ite ?_ ?_)
  · exact (h.yielded "(" s).bind fun _ => hclose _
  · refine (h.starNamed "(" s).bind fun first => Spans.seesClause.bind fun _ => .ite ?_ ?_
    · exact (Spans.check _).bind fun _ => (h.clauses _).bind fun _ => hclose _
    · refine .acceptThen (u := s) rfl ((Spans.check _).bind fun _ => .pure _) ?_
      refine (Spans.op (by decide)).bind fun _ =>
        (Spans.orElse (.items n (h.starNamed "(" s)) (.pure _)).bind fun rest => ?_
      extract_lets k
      have hk (c : Bool) : Spans ("(" :: s) s (k c) := hclose _
      exact .ite ((Spans.pure _).bind hk) ((Spans.acceptOp (by decide)).bind hk)

theorem braced_succ (h : Spanning n) (s : List String) : Spans ("\x7b" :: s) s (Parser.braced (n + 1)) := by
  rw [Parser.braced]
  have hclose (e : Expr) : Spans ("\x7b" :: s) s (do op "\x7d"; return e) := (Spans.token rfl).bind fun _ => .pure _
  have hentry : Spans ("\x7b" :: s) ("\x7b" :: s) (do
      if ← acceptOp "**" then return ((none : Option Expr), ← Parser.binary n binaryLevels)
      else
        let key ← Parser.expression n
        op ":"
        return (some key, ← Parser.expression n)) :=
    (Spans.acceptOp (by decide)).bind fun _ => .ite ((h.binary _ binaryLevels_plain).bind fun _ => .pure _)
      ((h.expression _ s).bind fun _ => Spans.colon.bind fun _ => (h.expression _ s).bind fun _ => .pure _)
  refine .acceptThen (u := s) rfl (.pure _) ((Spans.seesOp _).bind fun _ => .ite ?_ ?_)
  · exact (Spans.items n hentry).bind fun _ => (Spans.acceptOp (by decide)).bind fun _ => hclose _
  · refine Spans.seesBinding.bind fun _ => (h.starNamed _ s).bind fun _ => Spans.acceptColon.bind fun _ => .ite ?_ ?_
    · refine (Spans.check _).bind fun _ => (h.expression _ s).bind fun _ => Spans.seesClause.bind fun _ => .ite ?_ ?_
      · exact (h.clauses _).bind fun _ => hclose _
      · exact (Spans.moreItems n hentry).bind fun _ => (Spans.acceptOp (by decide)).bind fun _ => hclose _
    · refine Spans.seesClause.bind fun _ => .ite ?_ ?_
      · exact (Spans.check _).bind fun _ => (h.clauses _).bind fun _ => hclose _
      · exact (Spans.moreItems n (h.starNamed _ s)).bind fun _ => (Spans.acceptOp (by decide)).bind fun _ => hclose _

theorem succ (h : Spanning n) : Spanning (n + 1) where
  strings := strings_succ n
  expression := h.expression_succ
  disjunction := h.disjunction_succ
  conjunction := h.conjunction_succ
  inversion := h.inversion_succ
  binary := h.binary_succ
  factor := h.factor_succ
  primary := h.primary_succ
  trailer := h.trailer_succ
  subscripts := h.subscripts_succ
  slice := h.slice_succ
  named := h.named_succ
  starNamed := h.starNamed_succ
  starExpression := h.starExpression_succ
  starExpressions := h.starExpressions_succ
  yielded := h.yielded_succ
  target := h.target_succ
  targets := h.targets_succ
  clauses := h.clauses_succ
  arguments := h.arguments_succ
  argument := h.argument_succ
  parameters := h.parameters_succ
  atom := h.atom_succ
  bracketed := h.bracketed_succ
  braced := h.braced_succ

end Spanning

theorem spanning : ∀ n, Spanning n
  | 0 => .zero
  | n + 1 => (spanning n).succ

/-! ## Expressions outside brackets -/

/-- An expression without faults has no colon outside brackets. -/
def Colonless (p : Parser Expr) : Prop :=
  ∀ ts e ts', p ts = some (e, ts') → e.faults = [] → ∃ used, ts = used ++ ts' ∧ allWithin? [] used = some []

theorem expression_colonless (n : Nat) : Colonless (expression n) := by
  induction n with
  | zero => exact fun ts e ts' h => by cases h
  | succ n ih =>
    intro ts e ts' h hfaults
    rcases expression_eq_some h with ⟨_, _, _, -, -, -, rfl⟩ | hchain |
      ⟨body, test, orElse, mid, mid', hbody, htest, horElse, rfl⟩
    · exact absurd (Expr.ownFaults_of_faults hfaults) (List.cons_ne_nil _ _)
    · exact (spanning n).disjunction [] _ _ _ hchain
    · obtain ⟨used, rfl, hused⟩ := (spanning n).disjunction [] _ _ _ hbody
      obtain ⟨more, rfl, hmore⟩ := (spanning n).disjunction [] _ _ _ htest
      obtain ⟨last, rfl, hlast⟩ := ih _ _ _ horElse (Expr.faults_part hfaults _ (by simp [Expr.parts]))
      exact ⟨used ++ .name "if" :: (more ++ .name "else" :: last), by simp,
        by simp [allWithin?_append, hused, hmore, hlast]⟩

theorem named_colonless (n : Nat) : Colonless (named n) := by
  cases n with
  | zero => exact fun ts e ts' h => by cases h
  | succ n =>
    intro ts e ts' h hfaults
    rw [named] at h
    rcases orElse_eq_some h with hbinding | hplain
    · obtain ⟨_, _, -, hop⟩ := bind_eq_some.mp hbinding
      obtain ⟨_, -, hvalue⟩ := tokenThen_eq_some.mp hop
      obtain ⟨_, _, -, hreturn⟩ := bind_eq_some.mp hvalue
      cases hreturn
      exact absurd (Expr.ownFaults_of_faults hfaults) (List.cons_ne_nil _ _)
    · obtain ⟨value, mid, hvalue, hsees⟩ := bind_eq_some.mp hplain
      obtain ⟨_, _, hseen, hcheck⟩ := bind_eq_some.mp hsees
      obtain ⟨_, _, hchecked, hreturn⟩ := bind_eq_some.mp hcheck
      cases hseen
      cases (check_eq_some.mp hchecked).2
      cases hreturn
      exact expression_colonless n _ _ _ hvalue hfaults

theorem starExpression_colonless (n : Nat) : Colonless (starExpression n) := by
  cases n with
  | zero => exact fun ts e ts' h => by cases h
  | succ n =>
    intro ts e ts' h hfaults
    rw [starExpression] at h
    rcases acceptThen_eq_some h with ⟨mid, rfl, hstarred⟩ | hplain
    · obtain ⟨value, _, -, hreturn⟩ := bind_eq_some.mp hstarred
      cases hreturn
      exact absurd (Expr.ownFaults_of_faults hfaults) (List.cons_ne_nil _ _)
    · exact expression_colonless n _ _ _ hplain hfaults

theorem many_colonless {n : Nat} {p : Parser Expr} (hp : Colonless p) :
    ∀ {ts : List Token} {es : List Expr} {ts' : List Token}, many n (do op ","; p) ts = some (es, ts') →
      (∀ e ∈ es, e.faults = []) → ∃ used, ts = used ++ ts' ∧ allWithin? [] used = some [] := by
  induction n with
  | zero =>
    intro ts es ts' h _
    cases h
    exact ⟨[], rfl, rfl⟩
  | succ n ih =>
    intro ts es ts' h hes
    rcases orElse_eq_some h with hmore | hnone
    · obtain ⟨e, mid, hitem, hrest⟩ := bind_eq_some.mp hmore
      obtain ⟨others, _, hmany, hreturn⟩ := bind_eq_some.mp hrest
      cases hreturn
      obtain ⟨after, rfl, he⟩ := tokenThen_eq_some.mp hitem
      obtain ⟨hfirst, hothers⟩ := List.forall_mem_cons.mp hes
      obtain ⟨used, rfl, hused⟩ := hp _ _ _ he hfirst
      obtain ⟨last, rfl, hlast⟩ := ih hmany hothers
      exact ⟨.operator "," :: (used ++ last), by simp, by
        simp [allWithin?_append, within?_plain [] (by decide : isPlain "," = true), hused, hlast]⟩
    · cases hnone
      exact ⟨[], rfl, rfl⟩

theorem starExpressions_colonless (n : Nat) : Colonless (starExpressions n) := by
  cases n with
  | zero => exact fun ts e ts' h => by cases h
  | succ n =>
    intro ts e ts' h hfaults
    rw [starExpressions] at h
    obtain ⟨first, mid, hfirst, hsees⟩ := bind_eq_some.mp h
    obtain ⟨_, _, hseen, hchoice⟩ := bind_eq_some.mp hsees
    cases hseen
    split at hchoice
    · obtain ⟨others, _, hmore, haccept⟩ := bind_eq_some.mp hchoice
      obtain ⟨_, _, hcomma, hreturn⟩ := bind_eq_some.mp haccept
      cases hreturn
      have hall := Expr.faults_part hfaults
      obtain ⟨used, rfl, hused⟩ := starExpression_colonless n _ _ _ hfirst (hall _ (by simp [Expr.parts]))
      obtain ⟨more, rfl, hothers⟩ := many_colonless (starExpression_colonless n) hmore
        fun e he => hall e (by simp [Expr.parts, he])
      obtain ⟨last, rfl, hlast⟩ := Spans.acceptOp (s := []) (by decide) _ _ _ hcomma
      exact ⟨used ++ (more ++ last), by simp, by simp [allWithin?_append, hused, hothers, hlast]⟩
    · cases hchoice
      exact starExpression_colonless n _ _ _ hfirst hfaults

end Parser

end NestedSite.Template
