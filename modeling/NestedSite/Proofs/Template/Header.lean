import NestedSite.Proofs.Template.Clause

/-!
# The headers of blocks

A header is read as the beginning of a program: a colon and a body are put after it, and of the statements of that text
the first is taken. So the tokens before the first colon outside brackets are all of a header that counts, and they are
what the grammar of headers asks for (`TestHeader`, `LoopHeader`). What comes after that colon must complete a program
and is dropped. Where the header has no such colon of its own, that is the body which is added (`testHeader_iff`,
`loopHeader_iff`). `Nesting.step_header` says what the headers of a template are accepted for.
-/

namespace NestedSite.Template

open Token

/-- The text of the program that a header is read in, where it is given a body. -/
def headerText (keyword rest : String) : List Char :=
  (mangle (if rest.isEmpty then keyword else keyword ++ " " ++ rest) ++ ":\n    pass").toList

def headerTokens? (keyword rest : String) : Option (List Token) := Token.lex? true (headerText keyword rest)

/-- The depth that is left for what stands after the keyword. -/
def headerDepth (keyword rest : String) : Nat := Parser.fuelFor (headerText keyword rest) - 2

theorem fuelFor_headerText (keyword rest : String) :
    Parser.fuelFor (headerText keyword rest) = headerDepth keyword rest + 2 := by
  unfold headerDepth Parser.fuelFor
  omega

theorem le_headerDepth (keyword rest : String) : 2 ≤ headerDepth keyword rest := by
  unfold headerDepth Parser.fuelFor
  omega

/-- After the colon of a header stands what belongs to its statement, and then statements to the end. -/
def Completes (keyword rest : String) (after : Nat → Parser Unit) (tail : List Token) : Prop :=
  ∃ mid more, after (headerDepth keyword rest) tail = some ((), mid) ∧
    Parser.many (headerDepth keyword rest + 1) (Parser.statement (headerDepth keyword rest + 2)) mid = some (more, [])

/-- The header of a condition: the tokens before its colon, which is the first outside brackets, are a test that
templates may contain, and those after it complete a program. -/
structure TestHeader (rest : String) (e : Expr) (test tail : List Token) : Prop where
  tokens : headerTokens? "if" rest = some (.name "if" :: (test ++ .operator ":" :: tail))
  outside : allWithin? [] test = some []
  read : Parser.named (headerDepth "if" rest) (test ++ .operator ":" :: tail) = some (e, .operator ":" :: tail)
  allowed : e.faults = []
  completes : Completes "if" rest Parser.afterTest tail

/-- The header of a loop: the tokens before its colon, which is the first outside brackets, are a target, the word `in`
and an expression that templates may contain, and those after it complete a program. -/
structure LoopHeader (rest : String) (target iterable : Expr) (names values tail : List Token) : Prop where
  tokens : headerTokens? "for" rest =
    some (.name "for" :: (names ++ .name "in" :: (values ++ .operator ":" :: tail)))
  outside : allWithin? [] (names ++ .name "in" :: values) = some []
  readTarget : Parser.targets (headerDepth "for" rest) (names ++ .name "in" :: (values ++ .operator ":" :: tail)) =
    some (target, .name "in" :: (values ++ .operator ":" :: tail))
  readIterable : Parser.starExpressions (headerDepth "for" rest) (values ++ .operator ":" :: tail) =
    some (iterable, .operator ":" :: tail)
  targetAllowed : targetFault? target = none
  iterableAllowed : iterable.faults = []
  completes : Completes "for" rest Parser.afterIterable tail

theorem statements?_eq_some {text : List Char} {l : List Statement} : statements? text = some l ↔ ∃ ts all,
    Token.lex? true text = some ts ∧
      Parser.many (Parser.fuelFor text) (Parser.statement (Parser.fuelFor text)) ts = some (all, []) ∧
      all.flatten = l := by
  unfold statements?
  rw [Option.bind_eq_some_iff]
  refine exists_congr fun ts => ?_
  dsimp only
  rw [exists_and_left]
  refine and_congr_right fun _ => ?_
  cases Parser.many (Parser.fuelFor text) (Parser.statement (Parser.fuelFor text)) ts with
  | none => simp
  | some r =>
    obtain ⟨all, rest⟩ := r
    cases rest <;> simp

/-- The first of the statements that are read. -/
theorem flatten_statements {n : Nat} {ts mid : List Token} {l : List Statement} {more : List (List Statement)}
    {s : Statement} {others : List Statement} (hs : s.isHeader = true)
    (hl : Parser.statement (n + 1) ts = some (l, mid)) (hflat : (l :: more).flatten = s :: others) : l = [s] := by
  rcases Parser.statement_eq_some hl with ⟨_, _, -, -, rfl⟩ | ⟨_, _, -, -, rfl⟩ | ⟨first, rest, rfl, hplain⟩
  · exact congrArg (fun x => [x]) (List.cons.inj hflat).1
  · exact congrArg (fun x => [x]) (List.cons.inj hflat).1
  · rw [(List.cons.inj hflat).1, hs] at hplain
    cases hplain

/-- A header is the first statement of the program that it is read in. -/
theorem parseHeader_eq_ok {keyword rest code : String} {s : Statement} (hs : s.isHeader = true) :
    parseHeader keyword rest code = .ok s ↔ ∃ ts mid more, headerTokens? keyword rest = some ts ∧
      Parser.statement (headerDepth keyword rest + 2) ts = some ([s], mid) ∧
      Parser.many (headerDepth keyword rest + 1) (Parser.statement (headerDepth keyword rest + 2)) mid =
        some (more, []) := by
  have hfirst : parseHeader keyword rest code = .ok s ↔
      ∃ others, statements? (headerText keyword rest) = some (s :: others) := by
    unfold parseHeader headerText
    dsimp only
    split
    · rename_i first others hstatements
      rw [hstatements]
      refine ⟨fun h => ⟨others, ?_⟩, fun ⟨_, h⟩ => ?_⟩
      · cases h
        rfl
      · cases h
        rfl
    · rename_i hnone
      exact ⟨nofun, fun ⟨others, h⟩ => absurd h (hnone s others)⟩
  rw [hfirst]
  constructor
  · rintro ⟨others, hothers⟩
    obtain ⟨ts, all, hts, hmany, hflat⟩ := statements?_eq_some.mp hothers
    rw [fuelFor_headerText] at hmany
    cases all with
    | nil => cases hflat
    | cons l more =>
      obtain ⟨mid, hl, hmore⟩ := Parser.many_eq_cons.mp hmany
      exact ⟨ts, mid, more, hts, flatten_statements hs hl hflat ▸ hl, hmore⟩
  · rintro ⟨ts, mid, more, hts, hstatement, hmore⟩
    refine ⟨more.flatten, statements?_eq_some.mpr ⟨ts, [s] :: more, hts, ?_, rfl⟩⟩
    rw [fuelFor_headerText]
    exact Parser.many_eq_cons.mpr ⟨mid, hstatement, hmore⟩

theorem bind_eq_ok {α β : Type} {m : Except Fault α} {k : α → Except Fault β} {b : β} :
    m >>= k = .ok b ↔ ∃ a, m = .ok a ∧ k a = .ok b := by
  cases m with
  | error f => exact ⟨nofun, nofun⟩
  | ok a => exact ⟨fun h => ⟨a, rfl, h⟩, fun ⟨_, ha, h⟩ => by cases ha; exact h⟩

theorem checkExpr_eq_ok {fragment : String} {e : Expr} {u : Unit} :
    checkExpr fragment e = .ok u ↔ e.faults = [] := by
  unfold checkExpr
  cases e.faults with
  | nil => exact ⟨fun _ => rfl, fun _ => rfl⟩
  | cons f fs => exact ⟨nofun, nofun⟩

theorem checkTarget_eq_ok {fragment : String} {e : Expr} {u : Unit} :
    checkTarget fragment e = .ok u ↔ targetFault? e = none := by
  unfold checkTarget
  cases targetFault? e with
  | none => exact ⟨fun _ => rfl, fun _ => rfl⟩
  | some f => exact ⟨nofun, nofun⟩

/-- What the header of a condition is read as. -/
theorem parseTest_eq_ok {rest code : String} {e : Expr} :
    parseTest rest code = .ok e ↔ ∃ test tail, TestHeader rest e test tail := by
  have hparse : parseTest rest code = .ok e ↔ parseHeader "if" rest code = .ok (.condition e) ∧ e.faults = [] := by
    unfold parseTest
    rw [bind_eq_ok]
    constructor
    · rintro ⟨s, hs, hcheck⟩
      split at hcheck
      · obtain ⟨_, hchecked, hreturn⟩ := bind_eq_ok.mp hcheck
        cases hreturn
        exact ⟨hs, checkExpr_eq_ok.mp hchecked⟩
      · cases hcheck
    · rintro ⟨hs, hfaults⟩
      exact ⟨_, hs, bind_eq_ok.mpr ⟨(), checkExpr_eq_ok.mpr hfaults, rfl⟩⟩
  rw [hparse, parseHeader_eq_ok rfl]
  constructor
  · rintro ⟨⟨ts, mid, more, hts, hstatement, hmore⟩, hfaults⟩
    obtain ⟨after, tail, rfl, hnamed, hbody⟩ := Parser.statement_condition.mp hstatement
    obtain ⟨test, rfl, htest⟩ := Parser.named_colonless _ _ _ _ hnamed hfaults
    exact ⟨test, tail, hts, htest, hnamed, hfaults, mid, more, hbody, hmore⟩
  · rintro ⟨test, tail, htokens, -, hread, hallowed, mid, more, hbody, hmore⟩
    exact ⟨⟨_, mid, more, htokens, Parser.statement_condition.mpr ⟨_, tail, rfl, hread, hbody⟩, hmore⟩, hallowed⟩

/-- What the header of a loop is read as. -/
theorem parseLoop_eq_ok {rest code : String} {target iterable : Expr} :
    parseLoop rest code = .ok (target, iterable) ↔
      ∃ names values tail, LoopHeader rest target iterable names values tail := by
  have hparse : parseLoop rest code = .ok (target, iterable) ↔
      parseHeader "for" rest code = .ok (.loop target iterable) ∧ targetFault? target = none ∧
        iterable.faults = [] := by
    unfold parseLoop
    rw [bind_eq_ok]
    constructor
    · rintro ⟨s, hs, hcheck⟩
      split at hcheck
      · obtain ⟨_, htarget, hrest⟩ := bind_eq_ok.mp hcheck
        obtain ⟨_, hiterable, hreturn⟩ := bind_eq_ok.mp hrest
        cases hreturn
        exact ⟨hs, checkTarget_eq_ok.mp htarget, checkExpr_eq_ok.mp hiterable⟩
      · cases hcheck
    · rintro ⟨hs, htarget, hiterable⟩
      exact ⟨_, hs, bind_eq_ok.mpr ⟨(), checkTarget_eq_ok.mpr htarget,
        bind_eq_ok.mpr ⟨(), checkExpr_eq_ok.mpr hiterable, rfl⟩⟩⟩
  rw [hparse, parseHeader_eq_ok rfl]
  constructor
  · rintro ⟨⟨ts, mid, more, hts, hstatement, hmore⟩, htarget, hiterable⟩
    obtain ⟨_, _, tail, rfl, htargets, hvalue, hbody⟩ := Parser.statement_loop.mp hstatement
    obtain ⟨values, rfl, hvalues⟩ := Parser.starExpressions_colonless _ _ _ _ hvalue hiterable
    obtain ⟨names, rfl, hnames⟩ := (Parser.spanning _).targets [] _ _ _ htargets
    refine ⟨names, values, tail, hts, ?_, htargets, hvalue, htarget, hiterable, mid, more, hbody, hmore⟩
    rw [allWithin?_append, hnames]
    exact hvalues
  · rintro ⟨names, values, tail, htokens, -, htargets, hvalue, htarget, hiterable, mid, more, hbody, hmore⟩
    exact ⟨⟨_, mid, more, htokens, Parser.statement_loop.mpr ⟨_, _, tail, rfl, htargets, hvalue, hbody⟩, hmore⟩,
      htarget, hiterable⟩

/-- The body that is added completes a program. -/
theorem completes_addedBody {keyword rest : String} {after : Nat → Parser Unit}
    (h : ∀ n, after (n + 2) Parser.addedBody = some ((), [])) : Completes keyword rest after Parser.addedBody := by
  obtain ⟨n, hn⟩ := Nat.exists_eq_add_of_le' (le_headerDepth keyword rest)
  refine ⟨[], [], ?_, Parser.many_of_none _ (Parser.statement_ends (.inl rfl) _)⟩
  rw [hn]
  exact h n

/-- Where a header has no colon outside brackets of its own, nothing but the body that is added stands after it. -/
theorem testHeader_iff {rest : String} {e : Expr} {r : List Token}
    (htokens : headerTokens? "if" rest = some (.name "if" :: (r ++ .operator ":" :: Parser.addedBody)))
    (hr : allWithin? [] r = some []) : (∃ test tail, TestHeader rest e test tail) ↔
      Parser.named (headerDepth "if" rest) (r ++ .operator ":" :: Parser.addedBody) =
        some (e, .operator ":" :: Parser.addedBody) ∧ e.faults = [] := by
  constructor
  · rintro ⟨test, tail, h⟩
    have hsame := (List.cons.inj (Option.some.inj (htokens.symm.trans h.tokens))).2
    obtain ⟨rfl, rfl⟩ := append_colon_inj hr h.outside hsame
    exact ⟨h.read, h.allowed⟩
  · rintro ⟨hread, hallowed⟩
    exact ⟨r, Parser.addedBody, htokens, hr, hread, hallowed, completes_addedBody Parser.afterTest_addedBody⟩

theorem loopHeader_iff {rest : String} {target iterable : Expr} {r : List Token}
    (htokens : headerTokens? "for" rest = some (.name "for" :: (r ++ .operator ":" :: Parser.addedBody)))
    (hr : allWithin? [] r = some []) : (∃ names values tail, LoopHeader rest target iterable names values tail) ↔
      ∃ names values, r = names ++ .name "in" :: values ∧
        Parser.targets (headerDepth "for" rest) (names ++ .name "in" :: (values ++ .operator ":" :: Parser.addedBody)) =
          some (target, .name "in" :: (values ++ .operator ":" :: Parser.addedBody)) ∧
        Parser.starExpressions (headerDepth "for" rest) (values ++ .operator ":" :: Parser.addedBody) =
          some (iterable, .operator ":" :: Parser.addedBody) ∧
        targetFault? target = none ∧ iterable.faults = [] := by
  constructor
  · rintro ⟨names, values, tail, h⟩
    have hsame := (List.cons.inj (Option.some.inj (htokens.symm.trans h.tokens))).2
    rw [← List.cons_append, ← List.append_assoc] at hsame
    obtain ⟨rfl, rfl⟩ := append_colon_inj hr h.outside hsame
    exact ⟨names, values, rfl, h.readTarget, h.readIterable, h.targetAllowed, h.iterableAllowed⟩
  · rintro ⟨names, values, rfl, htarget, hiterable, htargetAllowed, hiterableAllowed⟩
    exact ⟨names, values, Parser.addedBody, by rw [htokens, List.append_assoc, List.cons_append], hr, htarget,
      hiterable, htargetAllowed, hiterableAllowed, completes_addedBody Parser.afterIterable_addedBody⟩

theorem bind_parseTest_eq_ok {rest code : String} {g : Expr → Nesting} {n : Nesting} :
    (parseTest rest code >>= fun e => .ok (g e)) = .ok n ↔ ∃ e test tail, TestHeader rest e test tail ∧ n = g e := by
  rw [bind_eq_ok]
  constructor
  · rintro ⟨e, he, hn⟩
    obtain ⟨test, tail, h⟩ := parseTest_eq_ok.mp he
    exact ⟨e, test, tail, h, (Except.ok.inj hn).symm⟩
  · rintro ⟨e, test, tail, h, rfl⟩
    exact ⟨e, parseTest_eq_ok.mpr ⟨test, tail, h⟩, rfl⟩

/-- A statement that begins with `if`, `elif` or `for` is refused, or its tokens up to the first colon outside brackets
are a test, or a target, the word `in` and an expression, that templates may contain. What the rest of the program holds
after that colon is parsed and then dropped. In a header without such a colon of its own that is the body which is
added, and so nothing of it is dropped. -/
theorem Nesting.step_header (n n' : Nesting) (code rest : String) :
    Refuses (n.step (.statement code)) ∧
    (Turn.ofCode code = .condition rest →
      (n.step (.statement code) = .ok n' ↔
        ∃ e test tail, TestHeader rest e test tail ∧ n' = n.enter (.branch [] e))) ∧
    (Turn.ofCode code = .elif rest → ∀ earlier last outer opened, n.opened = (.branch earlier last, outer) :: opened →
      (n.step (.statement code) = .ok n' ↔ ∃ e test tail, TestHeader rest e test tail ∧
        n' = ⟨(.branch (earlier ++ [(last, n.current.reverse)]) e, outer) :: opened, []⟩)) ∧
    (Turn.ofCode code = .loop rest →
      (n.step (.statement code) = .ok n' ↔ ∃ target iterable names values tail,
        LoopHeader rest target iterable names values tail ∧ n' = n.enter (.loopBody target iterable))) ∧
    (∀ r, headerTokens? "if" rest = some (.name "if" :: (r ++ .operator ":" :: Parser.addedBody)) →
      allWithin? [] r = some [] → ∀ e, (∃ test tail, TestHeader rest e test tail) ↔
        Parser.named (headerDepth "if" rest) (r ++ .operator ":" :: Parser.addedBody) =
          some (e, .operator ":" :: Parser.addedBody) ∧ e.faults = []) ∧
    ∀ r, headerTokens? "for" rest = some (.name "for" :: (r ++ .operator ":" :: Parser.addedBody)) →
      allWithin? [] r = some [] → ∀ target iterable,
      (∃ names values tail, LoopHeader rest target iterable names values tail) ↔
        ∃ names values, r = names ++ .name "in" :: values ∧
          Parser.targets (headerDepth "for" rest)
              (names ++ .name "in" :: (values ++ .operator ":" :: Parser.addedBody)) =
            some (target, .name "in" :: (values ++ .operator ":" :: Parser.addedBody)) ∧
          Parser.starExpressions (headerDepth "for" rest) (values ++ .operator ":" :: Parser.addedBody) =
            some (iterable, .operator ":" :: Parser.addedBody) ∧
          targetFault? target = none ∧ iterable.faults = [] := by
  refine ⟨n.step_refuses _, fun hturn => ?_, fun hturn earlier last outer opened hopened => ?_, fun hturn => ?_,
    fun r htokens hr e => testHeader_iff htokens hr, fun r htokens hr target iterable => loopHeader_iff htokens hr⟩
  · have hstep : n.step (.statement code) = (parseTest rest code >>= fun e => .ok (n.enter (.branch [] e))) := by
      unfold Nesting.step
      dsimp only
      rw [hturn]
      rfl
    rw [hstep]
    exact bind_parseTest_eq_ok
  · have hstep : n.step (.statement code) = (parseTest rest code >>= fun e =>
        .ok ⟨(.branch (earlier ++ [(last, n.current.reverse)]) e, outer) :: opened, []⟩) := by
      unfold Nesting.step
      dsimp only
      rw [hturn, hopened]
      rfl
    rw [hstep]
    exact bind_parseTest_eq_ok
  · have hstep : n.step (.statement code) = (parseLoop rest code >>= fun r =>
        .ok (n.enter (.loopBody r.1 r.2))) := by
      unfold Nesting.step
      dsimp only
      rw [hturn]
      rfl
    rw [hstep, bind_eq_ok]
    constructor
    · rintro ⟨⟨target, iterable⟩, hr, hn⟩
      obtain ⟨names, values, tail, h⟩ := parseLoop_eq_ok.mp hr
      exact ⟨target, iterable, names, values, tail, h, (Except.ok.inj hn).symm⟩
    · rintro ⟨target, iterable, names, values, tail, h, rfl⟩
      exact ⟨(target, iterable), parseLoop_eq_ok.mpr ⟨names, values, tail, h⟩, rfl⟩

/-- Of `if x` the test is all there is. Of a header that goes on after its colon the test alone counts as well, and the
body and the other branch that it holds are dropped. -/
theorem Nesting.step_header_drops :
    (⟨[], []⟩ : Nesting).step (.statement "if x") = .ok ⟨[(.branch [] (.name "x"), [])], []⟩ ∧
      (⟨[], []⟩ : Nesting).step (.statement "if x:\n  y\nelse") = .ok ⟨[(.branch [] (.name "x"), [])], []⟩ := by
  constructor
  · obtain ⟨-, hstep, -, -, hexact, -⟩ := Nesting.step_header ⟨[], []⟩ ⟨[(.branch [] (.name "x"), [])], []⟩ "if x" "x"
    obtain ⟨test, tail, hread⟩ := (hexact [.name "x"] (by decide +kernel) rfl (.name "x")).mpr ⟨rfl, by decide +kernel⟩
    exact (hstep rfl).mpr ⟨.name "x", test, tail, hread, rfl⟩
  · obtain ⟨-, hstep, -⟩ := Nesting.step_header ⟨[], []⟩ ⟨[(.branch [] (.name "x"), [])], []⟩ "if x:\n  y\nelse"
      "x:\n  y\nelse"
    refine (hstep rfl).mpr ⟨.name "x", [.name "x"], [.lineEnd, .indent, .name "y", .lineEnd, .dedent, .name "else",
      .operator ":", .lineEnd, .indent, .name "pass", .lineEnd, .dedent], ⟨?_, rfl, rfl, ?_, ?_⟩, rfl⟩
    · decide +kernel
    · decide +kernel
    · exact ⟨[], [], rfl, rfl⟩

end NestedSite.Template
