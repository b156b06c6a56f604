import NestedSite.Proofs.Template.Bracket

/-!
# Statements with a block

What the first statement of a program is, if it is a condition or a loop (`Parser.statement_condition`,
`Parser.statement_loop`): the word, what is read up to the colon, and what belongs to the statement after it
(`Parser.afterTest`, `Parser.afterIterable`). Nothing but these two begins with a header (`Parser.statement_eq_some`).
The body that a header is given when it is read is such a body (`Parser.block_addedBody`).
-/

namespace NestedSite.Template

open Token

/-- Whether a statement begins with the header of a block that templates know. -/
def Statement.isHeader : Statement → Bool
  | .condition _ | .loop .. => true
  | _ => false

namespace Parser

variable {α β : Type} {p q : Parser α} {ts : List Token}

theorem bind_eq_none {f : α → Parser β} (h : p ts = none) : (p >>= f) ts = none := by
  show (p ts).bind _ = none
  rw [h]
  rfl

theorem bind_of_some {f : α → Parser β} {a : α} {mid : List Token} (h : p ts = some (a, mid)) :
    (p >>= f) ts = f a mid := by
  show (p ts).bind _ = _
  rw [h]
  rfl

theorem orElse_of_none (h : p ts = none) : (p <|> q) ts = q ts := by
  simp [HOrElse.hOrElse, OrElse.orElse, Alternative.orElse, StateT.orElse, h]

theorem orElse_of_some {r : α × List Token} (h : p ts = some r) : (p <|> q) ts = some r := by
  simp [HOrElse.hOrElse, OrElse.orElse, Alternative.orElse, StateT.orElse, h]

theorem many_of_none (n : Nat) (h : p ts = none) : many n p ts = some ([], ts) := by
  cases n with
  | zero => rfl
  | succ n => exact (orElse_of_none (bind_eq_none h)).trans rfl

theorem many_eq_cons {n : Nat} {x : α} {xs : List α} {ts' : List Token} :
    many (n + 1) p ts = some (x :: xs, ts') ↔ ∃ mid, p ts = some (x, mid) ∧ many n p mid = some (xs, ts') := by
  constructor
  · intro h
    rcases orElse_eq_some h with hmore | hnone
    · obtain ⟨_, mid, hx, hrest⟩ := bind_eq_some.mp hmore
      obtain ⟨_, _, hxs, hreturn⟩ := bind_eq_some.mp hrest
      cases hreturn
      exact ⟨mid, hx, hxs⟩
    · cases hnone
  · rintro ⟨mid, hx, hxs⟩
    exact orElse_of_some (bind_eq_some.mpr ⟨x, mid, hx, bind_eq_some.mpr ⟨xs, ts', hxs, rfl⟩⟩)

theorem accept_of_ne {t : Token} (h : ts.head? ≠ some t) : accept t ts = some (false, ts) := by
  cases ts with
  | nil => rfl
  | cons u rest =>
    have hne : u ≠ t := fun heq => h (by rw [heq]; rfl)
    simp [accept, hne]

theorem accept_self (t : Token) : accept t (t :: ts) = some (true, ts) := by simp [accept]

theorem acceptThen_of_ne {t : Token} (h : ts.head? ≠ some t) :
    (accept t >>= fun b => if b = true then p else q) ts = q ts := by
  show (accept t ts).bind _ = _
  rw [accept_of_ne h]
  rfl

theorem acceptThen_self (t : Token) : (accept t >>= fun b => if b = true then p else q) (t :: ts) = p ts :=
  bind_of_some (accept_self t)

theorem seesThen {f : Bool → Parser α} (t : Token) : (sees t >>= f) ts = f (ts.head? == some t) ts := rfl

theorem token_of_ne {t : Token} (h : ts.head? ≠ some t) : token t ts = none := by
  cases ts with
  | nil => rfl
  | cons u rest =>
    have hne : u ≠ t := fun heq => h (by rw [heq]; rfl)
    simp [token, hne]

/-- All that a parser reads satisfies `P`. -/
def Yields (P : α → Prop) (p : Parser α) : Prop := ∀ ts a ts', p ts = some (a, ts') → P a

namespace Yields

variable {P : α → Prop} {Q : β → Prop} {f : α → Parser β}

theorem of_read {ts ts' : List Token} {a : α} (hp : Yields P p) (h : p ts = some (a, ts')) : P a := hp _ _ _ h

theorem mono {P' : α → Prop} (hp : Yields P p) (h : ∀ a, P a → P' a) : Yields P' p :=
  fun ts a ts' hread => h a (hp ts a ts' hread)

theorem pure {a : α} (h : P a) : Yields P (Pure.pure a) := fun _ _ _ hread => by
  cases hread
  exact h

theorem failure : Yields P failure := fun _ _ _ hread => by cases hread

theorem bindOf (hp : Yields P p) (hf : ∀ a, P a → Yields Q (f a)) : Yields Q (p >>= f) := by
  intro ts b ts' h
  obtain ⟨a, mid, ha, hb⟩ := bind_eq_some.mp h
  exact hf a (hp _ _ _ ha) _ _ _ hb

theorem bind (hf : ∀ a, Yields Q (f a)) : Yields Q (p >>= f) :=
  bindOf (P := fun _ => True) (fun _ _ _ _ => trivial) fun a _ => hf a

theorem orElse (hp : Yields P p) (hq : Yields P q) : Yields P (p <|> q) :=
  fun ts a ts' h => (orElse_eq_some h).elim (hp ts a ts') (hq ts a ts')

theorem ite {c : Prop} [Decidable c] (hp : Yields P p) (hq : Yields P q) : Yields P (if c then p else q) := by
  split
  · exact hp
  · exact hq

end Yields

/-! ## The first statement -/

/-- Of a statement of one line that begins with a keyword the kind alone is kept. -/
theorem keywordStatement_foreign (n : Nat) (keyword : String) :
    Yields (fun s => ∃ kind, s = .foreign kind) (keywordStatement n keyword) := by
  unfold keywordStatement
  refine .bind fun _ => ?_
  split
  case h_12 => exact .failure
  all_goals repeat' first
    | exact .pure ⟨_, rfl⟩
    | refine .bind fun _ => ?_
    | refine .ite ?_ ?_

theorem keywordStatement_yields (n : Nat) (keyword : String) :
    Yields (fun s => s.isHeader = false) (keywordStatement n keyword) :=
  (keywordStatement_foreign n keyword).mono fun _ ⟨_, hs⟩ => hs ▸ rfl

theorem plainStatement_yields (n : Nat) : Yields (fun s => s.isHeader = false) (plainStatement n) := by
  unfold plainStatement
  refine .bind fun _ => .ite (.bind fun _ => .pure rfl) ?_
  refine .bind fun first => .bind fun _ => .ite ?_ (.bind fun _ => .ite ?_ ?_)
  · refine .bind fun rest => ?_
    split
    · exact .bind fun _ => .pure rfl
    · exact .failure
  · refine .bind fun _ => .bind fun _ => .bind fun _ => ?_
    extract_lets k
    have hk (c : Unit) : Yields (fun s => s.isHeader = false) (k c) := .pure rfl
    exact .ite (.bind fun _ => hk ()) (hk ())
  · exact .orElse (.bind fun _ => .bind fun _ => .bind fun _ => .pure rfl) (.pure rfl)

theorem simpleStatement_yields (n : Nat) : Yields (fun s => s.isHeader = false) (simpleStatement n) := by
  unfold simpleStatement
  refine .bind fun _ => ?_
  split
  · exact .ite (keywordStatement_yields n _) (plainStatement_yields n)
  · exact plainStatement_yields n

/-- Statements of which the first is no header. -/
def BeginsPlainly (l : List Statement) : Prop := ∃ first rest, l = first :: rest ∧ first.isHeader = false

theorem lineStatements_yields (n : Nat) : Yields BeginsPlainly (lineStatements n) := by
  unfold lineStatements
  exact (simpleStatement_yields n).bindOf fun first hfirst => .bind fun rest => .bind fun _ => .bind fun _ =>
    .pure ⟨first, rest, rfl, hfirst⟩

theorem attemptRest_foreign (n : Nat) : Yields (fun s => ∃ kind, s = .foreign kind) (attemptRest n) := by
  cases n with
  | zero => exact .failure
  | succ n =>
    rw [attemptRest]
    refine .bind fun _ => .bind fun _ => .bind fun _ => .ite (.pure ⟨_, rfl⟩) ?_
    refine .bind fun _ => .ite (.bind fun _ => .bind fun _ => ?_) ?_
    · exact .bind fun _ => .pure ⟨_, rfl⟩
    · exact .bind fun _ => .pure ⟨_, rfl⟩

/-- A statement is a condition, a loop or something that begins with no header. -/
theorem statement_eq_some {n : Nat} {ts ts' : List Token} {l : List Statement}
    (h : statement (n + 1) ts = some (l, ts')) :
    (∃ mid s, ts = .name "if" :: mid ∧ conditionRest n mid = some (s, ts') ∧ l = [s]) ∨
      (∃ mid s, ts = .name "for" :: mid ∧ loopRest n mid = some (s, ts') ∧ l = [s]) ∨
      BeginsPlainly l := by
  rw [statement] at h
  rcases acceptThen_eq_some h with ⟨mid, rfl, hcondition⟩ | h
  · obtain ⟨s, _, hs, hreturn⟩ := bind_eq_some.mp hcondition
    cases hreturn
    exact .inl ⟨mid, s, rfl, hs, rfl⟩
  rcases acceptThen_eq_some h with ⟨mid, rfl, hloop⟩ | h
  · obtain ⟨s, _, hs, hreturn⟩ := bind_eq_some.mp hloop
    cases hreturn
    exact .inr (.inl ⟨mid, s, rfl, hs, rfl⟩)
  refine .inr (.inr (Yields.of_read ?_ h))
  have hforeign (kind : String) : Yields BeginsPlainly (pure [.foreign kind]) := .pure ⟨_, _, rfl, rfl⟩
  refine .bind fun _ => .ite (.bind fun _ => .bind fun _ => .bind fun _ => .bind fun _ => hforeign "While") ?_
  refine .bind fun _ => .ite (.bind fun _ => hforeign "With") ?_
  refine .bind fun _ => .ite ((attemptRest_foreign n).bindOf fun s hs => .pure ⟨s, [], rfl, ?_⟩) ?_
  · obtain ⟨kind, rfl⟩ := hs
    rfl
  refine .bind fun _ => .ite (.bind fun _ => .ite ?_ (.bind fun _ => .ite ?_ ?_)) ?_
  · exact .bind fun _ => hforeign "AsyncFunctionDef"
  · exact .bind fun _ => hforeign "AsyncFor"
  · exact .bind fun _ => .bind fun _ => hforeign "AsyncWith"
  refine .bind fun _ => .bind fun _ => .ite (.bind fun _ => hforeign "FunctionDef") ?_
  refine .bind fun _ => .ite (.bind fun _ => hforeign "ClassDef") ?_
  refine .bind fun _ => .ite (.bind fun _ => .bind fun _ => .bind fun _ => hforeign "AsyncFunctionDef") ?_
  exact .bind fun _ => .orElse (.bind fun _ => .bind fun _ => hforeign "Match") (lineStatements_yields n)

/-- What stands after the colon of a condition: a body and further branches. -/
def afterTest (n : Nat) : Parser Unit := do
  block n
  if ← acceptWord "elif" then
    let _ ← conditionRest n
  else
    let _ ← optionalBlock n "else"

/-- What stands after the colon of a loop: a body, and one for the case that there is no item. -/
def afterIterable (n : Nat) : Parser Unit := do
  block n
  let _ ← optionalBlock n "else"

theorem conditionRest_eq_some {n : Nat} {ts ts' : List Token} {s : Statement} :
    conditionRest (n + 1) ts = some (s, ts') ↔ ∃ e tail, named n ts = some (e, .operator ":" :: tail) ∧
      afterTest n tail = some ((), ts') ∧ s = .condition e := by
  have hrun : conditionRest (n + 1) = (do
      let e ← named n
      op ":"
      afterTest n
      return .condition e) := by
    rw [conditionRest]
    unfold afterTest
    simp only [bind_assoc]
    exact bind_congr fun e => bind_congr fun _ => bind_congr fun _ => bind_congr fun b => by cases b <;> simp
  rw [hrun]
  constructor
  · intro h
    obtain ⟨e, _, hnamed, hcolon⟩ := bind_eq_some.mp h
    obtain ⟨tail, rfl, hbody⟩ := tokenThen_eq_some.mp hcolon
    obtain ⟨_, _, hafter, hreturn⟩ := bind_eq_some.mp hbody
    cases hreturn
    exact ⟨e, tail, hnamed, hafter, rfl⟩
  · rintro ⟨e, tail, hnamed, hafter, rfl⟩
    exact bind_eq_some.mpr ⟨e, _, hnamed, tokenThen_eq_some.mpr ⟨tail, rfl, bind_eq_some.mpr ⟨(), ts', hafter, rfl⟩⟩⟩

theorem loopRest_eq_some {n : Nat} {ts ts' : List Token} {s : Statement} :
    loopRest (n + 1) ts = some (s, ts') ↔ ∃ t mid e tail, targets n ts = some (t, .name "in" :: mid) ∧
      starExpressions n mid = some (e, .operator ":" :: tail) ∧ afterIterable n tail = some ((), ts') ∧
      s = .loop t e := by
  have hrun : loopRest (n + 1) = (do
      let t ← targets n
      word "in"
      let e ← starExpressions n
      op ":"
      afterIterable n
      return .loop t e) := by
    rw [loopRest]
    unfold afterIterable
    simp only [bind_assoc, pure_bind]
  rw [hrun]
  constructor
  · intro h
    obtain ⟨t, _, htargets, hin⟩ := bind_eq_some.mp h
    obtain ⟨mid, rfl, hiterable⟩ := tokenThen_eq_some.mp hin
    obtain ⟨e, _, hvalue, hcolon⟩ := bind_eq_some.mp hiterable
    obtain ⟨tail, rfl, hbody⟩ := tokenThen_eq_some.mp hcolon
    obtain ⟨_, _, hafter, hreturn⟩ := bind_eq_some.mp hbody
    cases hreturn
    exact ⟨t, mid, e, tail, htargets, hvalue, hafter, rfl⟩
  · rintro ⟨t, mid, e, tail, htargets, hvalue, hafter, rfl⟩
    exact bind_eq_some.mpr ⟨t, _, htargets, tokenThen_eq_some.mpr ⟨mid, rfl, bind_eq_some.mpr ⟨e, _, hvalue,
      tokenThen_eq_some.mpr ⟨tail, rfl, bind_eq_some.mpr ⟨(), ts', hafter, rfl⟩⟩⟩⟩⟩

theorem statement_condition {n : Nat} {ts ts' : List Token} {e : Expr} :
    statement (n + 2) ts = some ([.condition e], ts') ↔ ∃ mid tail, ts = .name "if" :: mid ∧
      named n mid = some (e, .operator ":" :: tail) ∧ afterTest n tail = some ((), ts') := by
  constructor
  · intro h
    rcases statement_eq_some h with ⟨mid, s, rfl, hs, hl⟩ | ⟨mid, s, rfl, hs, hl⟩ | ⟨_, _, hl, hplain⟩
    · cases hl
      obtain ⟨_, tail, hnamed, hafter, heq⟩ := conditionRest_eq_some.mp hs
      cases heq
      exact ⟨mid, tail, rfl, hnamed, hafter⟩
    · cases hl
      obtain ⟨_, _, _, _, -, -, -, heq⟩ := loopRest_eq_some.mp hs
      cases heq
    · cases hl
      cases hplain
  · rintro ⟨mid, tail, rfl, hnamed, hafter⟩
    rw [statement]
    exact (acceptThen_self _).trans
      (bind_eq_some.mpr ⟨_, ts', conditionRest_eq_some.mpr ⟨e, tail, hnamed, hafter, rfl⟩, rfl⟩)

theorem statement_loop {n : Nat} {ts ts' : List Token} {t e : Expr} :
    statement (n + 2) ts = some ([.loop t e], ts') ↔ ∃ mid after tail, ts = .name "for" :: mid ∧
      targets n mid = some (t, .name "in" :: after) ∧ starExpressions n after = some (e, .operator ":" :: tail) ∧
      afterIterable n tail = some ((), ts') := by
  constructor
  · intro h
    rcases statement_eq_some h with ⟨mid, s, rfl, hs, hl⟩ | ⟨mid, s, rfl, hs, hl⟩ | ⟨_, _, hl, hplain⟩
    · cases hl
      obtain ⟨_, _, -, -, heq⟩ := conditionRest_eq_some.mp hs
      cases heq
    · cases hl
      obtain ⟨_, after, _, tail, htargets, hvalue, hafter, heq⟩ := loopRest_eq_some.mp hs
      cases heq
      exact ⟨mid, after, tail, rfl, htargets, hvalue, hafter⟩
    · cases hl
      cases hplain
  · rintro ⟨mid, after, tail, rfl, htargets, hvalue, hafter⟩
    rw [statement]
    exact (acceptThen_of_ne (by simp)).trans <| (acceptThen_self _).trans
      (bind_eq_some.mpr ⟨_, ts', loopRest_eq_some.mpr ⟨t, after, e, tail, htargets, hvalue, hafter, rfl⟩, rfl⟩)

/-! ## The body that is added -/

/-- Where the statements of a block or of a program are over. -/
def Ends (ts : List Token) : Prop := ts = [] ∨ ts = [.dedent]

theorem Ends.head?_ne (h : Ends ts) {t : Token} (ht : t ≠ .dedent) : ts.head? ≠ some t := by
  rcases h with rfl | rfl
  · nofun
  · exact fun heq => ht (Option.some.inj heq).symm

theorem Ends.acceptOp (h : Ends ts) (text : String) :
    (acceptOp text >>= fun b => if b = true then p else q) ts = q ts :=
  acceptThen_of_ne (h.head?_ne nofun)

theorem Ends.acceptWord (h : Ends ts) (text : String) :
    (acceptWord text >>= fun b => if b = true then p else q) ts = q ts :=
  acceptThen_of_ne (h.head?_ne nofun)

section

variable (hts : Ends ts) (n : Nat)
include hts

theorem atom_ends : atom n ts = none := by
  cases n with
  | zero => rfl
  | succ n =>
    rw [atom]
    rcases hts with rfl | rfl <;> rfl

theorem primary_ends : primary n ts = none := by
  cases n with
  | zero => rfl
  | succ n =>
    rw [primary]
    exact bind_eq_none (atom_ends hts n)

theorem factor_ends : factor n ts = none := by
  cases n with
  | zero => rfl
  | succ n =>
    rw [factor]
    refine (hts.acceptOp _).trans ((hts.acceptOp _).trans ((hts.acceptOp _).trans ((hts.acceptWord _).trans ?_)))
    exact bind_eq_none (primary_ends hts n)

theorem binary_ends (levels : List (List (String × BinaryOp))) : binary n levels ts = none := by
  induction n generalizing levels with
  | zero => cases levels <;> rfl
  | succ n ih =>
    cases levels with
    | nil =>
      rw [binary]
      exact factor_ends hts n
    | cons ops levels =>
      rw [binary]
      exact bind_eq_none (ih levels)

theorem inversion_ends : inversion n ts = none := by
  cases n with
  | zero => rfl
  | succ n =>
    rw [inversion]
    exact (hts.acceptWord _).trans (bind_eq_none (binary_ends hts n _))

theorem conjunction_ends : conjunction n ts = none := by
  cases n with
  | zero => rfl
  | succ n =>
    rw [conjunction]
    exact bind_eq_none (inversion_ends hts n)

theorem disjunction_ends : disjunction n ts = none := by
  cases n with
  | zero => rfl
  | succ n =>
    rw [disjunction]
    exact bind_eq_none (conjunction_ends hts n)

theorem expression_ends : expression n ts = none := by
  cases n with
  | zero => rfl
  | succ n =>
    rw [expression]
    exact (hts.acceptWord _).trans (bind_eq_none (disjunction_ends hts n))

theorem starExpressions_ends : starExpressions n ts = none := by
  cases n with
  | zero => rfl
  | succ n =>
    rw [starExpressions]
    refine bind_eq_none ?_
    cases n with
    | zero => rfl
    | succ n =>
      rw [starExpression]
      exact (hts.acceptOp _).trans (expression_ends hts n)

theorem lineStatements_ends : lineStatements n ts = none := by
  have hplain : plainStatement n ts = none := by
    refine (seesThen _).trans ?_
    rw [if_neg (by simpa using hts.head?_ne (by nofun : Token.name "yield" ≠ .dedent))]
    exact bind_eq_none (starExpressions_ends hts n)
  refine bind_eq_none ?_
  rcases hts with rfl | rfl <;> exact hplain

end

/-- The words that begin a statement with a block. -/
def blockWords : List String := ["if", "for", "while", "with", "try", "async", "def", "class", "match"]

theorem statement_eq_lineStatements (n : Nat) (hwords : ∀ w ∈ blockWords, ts.head? ≠ some (.name w))
    (hop : ts.head? ≠ some (.operator "@")) : statement (n + 1) ts = lineStatements n ts := by
  rw [statement]
  have hword {w : String} (hw : w ∈ blockWords) {p q : Parser (List Statement)} :
      (acceptWord w >>= fun b => if b = true then p else q) ts = q ts := acceptThen_of_ne (hwords w hw)
  refine (hword (by decide)).trans ((hword (by decide)).trans ((hword (by decide)).trans ((hword (by decide)).trans
    ((hword (by decide)).trans ((hword (by decide)).trans ?_)))))
  have hdecorators : many n (do
      op "@"
      let _ ← named n
      token .lineEnd) ts = some ([], ts) := many_of_none n (bind_eq_none (token_of_ne hop))
  refine (bind_of_some hdecorators).trans ?_
  refine (hword (by decide)).trans ((hword (by decide)).trans ((hword (by decide)).trans ?_))
  exact orElse_of_none (bind_eq_none (token_of_ne (hwords "match" (by decide))))

theorem statement_ends (hts : Ends ts) (n : Nat) : statement n ts = none := by
  cases n with
  | zero => rfl
  | succ n =>
    rw [statement_eq_lineStatements n (fun w _ => hts.head?_ne nofun) (hts.head?_ne nofun)]
    exact lineStatements_ends hts n

theorem statement_pass (n : Nat) : statement (n + 1) [.name "pass", .lineEnd, .dedent] =
    some ([.foreign "Pass"], [.dedent]) := by
  rw [statement_eq_lineStatements n (by decide) (by decide)]
  have hpass : simpleStatement n [.name "pass", .lineEnd, .dedent] = some (.foreign "Pass", [.lineEnd, .dedent]) := rfl
  refine (bind_of_some hpass).trans ?_
  refine (bind_of_some (many_of_none n (bind_eq_none rfl))).trans ?_
  rfl

/-- The tokens of the body that a header is given. -/
def addedBody : List Token := [.lineEnd, .indent, .name "pass", .lineEnd, .dedent]

theorem block_addedBody (n : Nat) : block (n + 2) addedBody = some ((), []) := by
  rw [block]
  refine (acceptThen_self _).trans ((bind_of_some (token_eq_some.mpr rfl)).trans ?_)
  refine (bind_of_some (statement_pass n)).trans ?_
  refine (bind_of_some (many_of_none (n + 1) (statement_ends (.inr rfl) (n + 1)))).trans ?_
  exact token_eq_some.mpr rfl

theorem afterTest_addedBody (n : Nat) : afterTest (n + 2) addedBody = some ((), []) := by
  refine (bind_of_some (block_addedBody n)).trans ?_
  refine (Ends.acceptWord (.inl rfl) _).trans ?_
  rw [optionalBlock]
  rfl

theorem afterIterable_addedBody (n : Nat) : afterIterable (n + 2) addedBody = some ((), []) := by
  refine (bind_of_some (block_addedBody n)).trans ?_
  rw [optionalBlock]
  rfl

end Parser

end NestedSite.Template
