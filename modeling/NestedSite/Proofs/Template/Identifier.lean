import Mathlib.Data.List.Infix
import NestedSite.Proofs.Template.Binding
import NestedSite.Proofs.Template.Header
import NestedSite.Proofs.Template.Spelling

/-!
# Identifiers of fragments

What an accepted fragment is read as (`ReadAs`), and what its identifiers are: words of the fragment, in which `$` is a
letter (`ReadAs.names`). They are spelled in code with `_dollar_` for each `$`, wherever they stand. A variable, an
attribute or a target that is written `$n` means the key `$n` all the same; but an argument is passed under its name as
it is spelled (`ReadAs.goesByKeys`).
-/

namespace NestedSite.Template

open Text Token

/-! ## Statements -/

/-- The identifiers of a statement satisfy `P`. -/
def Statement.Names (P : String → Prop) (s : Statement) : Prop := ∀ u ∈ s.uses, P u.name

section Statements

variable {P : String → Prop}

@[simp] theorem Statement.names_expression {e : Expr} : (expression e).Names P ↔ e.Names P := Iff.rfl

@[simp] theorem Statement.names_condition {e : Expr} : (condition e).Names P ↔ e.Names P := Iff.rfl

@[simp] theorem Statement.names_assign {targets : List Expr} {e : Expr} :
    (assign targets e).Names P ↔ (∀ t ∈ targets, t.Names P) ∧ e.Names P := by
  simp only [Names, uses, List.forall_mem_append, forall_listUses, Expr.Names]

@[simp] theorem Statement.names_augmented {target e : Expr} {op : BinaryOp} :
    (augmented target op e).Names P ↔ target.Names P ∧ e.Names P := List.forall_mem_append

@[simp] theorem Statement.names_loop {target e : Expr} : (loop target e).Names P ↔ target.Names P ∧ e.Names P :=
  List.forall_mem_append

@[simp] theorem Statement.names_foreign {kind : String} : (foreign kind).Names P := by simp [Names, uses]

namespace Parser

variable {α β : Type} {R : α → Prop} {S : β → Prop} {p q : Parser α} {f : α → Parser β}

/-- From tokens whose names satisfy `P` the parser reads a value with `R`. -/
def Gives (P : String → Prop) (R : α → Prop) (p : Parser α) : Prop :=
  ∀ ts a ts', (∀ t ∈ ts, t.HasWords P) → p ts = some (a, ts') → R a

namespace Gives

theorem of_reads (h : Reads P R p) : Gives P R p := fun _ _ _ hts hread => (h _ _ _ hts hread).1

theorem of_yields (h : Yields R p) : Gives P R p := fun _ _ _ _ hread => h _ _ _ hread

theorem bind (hp : Reads P R p) (hf : ∀ a, R a → Gives P S (f a)) : Gives P S (p >>= f) := by
  intro ts b ts' hts h
  obtain ⟨a, mid, ha, hb⟩ := bind_eq_some.mp h
  obtain ⟨hR, hmid⟩ := hp _ _ _ hts ha
  exact hf a hR _ _ _ hmid hb

theorem orElse (hp : Gives P R p) (hq : Gives P R q) : Gives P R (p <|> q) :=
  fun ts a ts' hts h => (orElse_eq_some h).elim (hp ts a ts' hts) (hq ts a ts' hts)

theorem ite {c : Prop} [Decidable c] (hp : Gives P R p) (hq : Gives P R q) : Gives P R (if c then p else q) := by
  split
  · exact hp
  · exact hq

end Gives

theorem plainStatement_names (n : Nat) : Reads P (Statement.Names P) (plainStatement n) := by
  unfold plainStatement
  have h := spelling P n
  refine (Reads.seesWord _).bind fun _ _ => .ite (h.yielded.bind fun _ he => .pure he) ?_
  refine h.starExpressions.bind fun first hfirst => (Reads.seesOp _).bind fun _ _ => .ite ?_
    ((Reads.acceptOp _).bind fun _ _ => .ite ?_ (.orElse ?_ (.pure hfirst)))
  · refine (Reads.many n ((Reads.op _).bind fun _ _ => h.assigned)).bind fun rest hrest => ?_
    split
    · rename_i value hvalue
      refine (Reads.check _).bind fun _ _ => .pure (Statement.names_assign.mpr ⟨?_, ?_⟩)
      · exact List.forall_mem_cons.mpr ⟨hfirst, fun e he => hrest e (List.dropLast_subset _ he)⟩
      · exact hrest value (List.mem_of_getLast? hvalue)
    · exact .failure
  · refine (Reads.check _).bind fun _ _ => h.expression.bind fun _ _ => (Reads.acceptOp _).bind fun _ _ => ?_
    extract_lets k
    have hk (c : Unit) : Reads P (Statement.Names P) (k c) := .pure Statement.names_foreign
    exact .ite (h.assigned.bind fun _ _ => hk ()) (hk ())
  · exact (Reads.operatorOf _).bind fun _ _ => (Reads.check _).bind fun _ _ => h.assigned.bind fun _ he =>
      .pure (Statement.names_augmented.mpr ⟨hfirst, he⟩)

theorem simpleStatement_names (n : Nat) : Gives P (Statement.Names P) (simpleStatement n) := by
  have hkeyword (w : String) : Gives P (Statement.Names P) (keywordStatement n w) :=
    .of_yields fun ts s ts' h => by
      obtain ⟨kind, rfl⟩ := keywordStatement_foreign n w ts s ts' h
      exact Statement.names_foreign
  unfold simpleStatement
  refine .bind Reads.peek fun _ _ => ?_
  split
  · exact .ite (hkeyword _) (.of_reads (plainStatement_names n))
  · exact .of_reads (plainStatement_names n)

/-- Statements of which the first has identifiers that satisfy `P`. -/
def BeginsNamed (P : String → Prop) (l : List Statement) : Prop := ∃ first rest, l = first :: rest ∧ first.Names P

theorem lineStatements_names (n : Nat) : Gives P (BeginsNamed P) (lineStatements n) := by
  intro ts l ts' hts h
  obtain ⟨first, mid, hfirst, hrest⟩ := bind_eq_some.mp h
  obtain ⟨rest, _, -, hrest⟩ := bind_eq_some.mp hrest
  obtain ⟨_, _, -, hrest⟩ := bind_eq_some.mp hrest
  obtain ⟨_, _, -, hreturn⟩ := bind_eq_some.mp hrest
  cases hreturn
  exact ⟨first, rest, rfl, simpleStatement_names n _ _ _ hts hfirst⟩

theorem conditionRest_names (n : Nat) : Gives P (Statement.Names P) (conditionRest n) := by
  cases n with
  | zero => exact fun _ _ _ _ h => by cases h
  | succ n =>
    intro ts s ts' hts h
    obtain ⟨e, tail, hnamed, -, rfl⟩ := conditionRest_eq_some.mp h
    exact ((spelling P n).named _ _ _ hts hnamed).1

theorem loopRest_names (n : Nat) : Gives P (Statement.Names P) (loopRest n) := by
  cases n with
  | zero => exact fun _ _ _ _ h => by cases h
  | succ n =>
    intro ts s ts' hts h
    obtain ⟨t, mid, e, tail, htargets, hvalue, -, rfl⟩ := loopRest_eq_some.mp h
    obtain ⟨ht, hmid⟩ := (spelling P n).targets _ _ _ hts htargets
    exact Statement.names_loop.mpr
      ⟨ht, ((spelling P n).starExpressions _ _ _ (List.forall_mem_cons.mp hmid).2 hvalue).1⟩

theorem statement_names (n : Nat) : Gives P (BeginsNamed P) (statement n) := by
  cases n with
  | zero => exact fun _ _ _ _ h => by cases h
  | succ n =>
    rw [statement]
    have hforeign (kind : String) : Yields (BeginsNamed P) (pure [.foreign kind]) :=
      .pure ⟨_, _, rfl, Statement.names_foreign⟩
    have hone {p : Parser Statement} (hp : Gives P (Statement.Names P) p) :
        Gives P (BeginsNamed P) (do return [← p]) := by
      intro ts l ts' hts h
      obtain ⟨s, mid, hs, hreturn⟩ := bind_eq_some.mp h
      cases hreturn
      exact ⟨s, [], rfl, hp _ _ _ hts hs⟩
    refine .bind (Reads.acceptWord _) fun _ _ => .ite (hone (conditionRest_names n)) ?_
    refine .bind (Reads.acceptWord _) fun _ _ => .ite (hone (loopRest_names n)) ?_
    refine .bind (Reads.acceptWord _) fun _ _ => .ite (.of_yields ?_) ?_
    · exact .bind fun _ => .bind fun _ => .bind fun _ => .bind fun _ => hforeign "While"
    refine .bind (Reads.acceptWord _) fun _ _ => .ite (.of_yields (.bind fun _ => hforeign "With")) ?_
    refine .bind (Reads.acceptWord _) fun _ _ => .ite (.of_yields ?_) ?_
    · refine (attemptRest_foreign n).bindOf fun s hs => ?_
      obtain ⟨kind, rfl⟩ := hs
      exact hforeign kind
    refine .bind (Reads.acceptWord _) fun _ _ => .ite (.of_yields ?_) ?_
    · refine .bind fun _ => .ite (.bind fun _ => hforeign "AsyncFunctionDef") (.bind fun _ => .ite ?_ ?_)
      · exact .bind fun _ => hforeign "AsyncFor"
      · exact .bind fun _ => .bind fun _ => hforeign "AsyncWith"
    have hdecorators : Reads P (fun _ => True) (many n (do
        op "@"
        let _ ← named n
        token .lineEnd)) :=
      (Reads.many n ((Reads.op _).bind fun _ _ => (spelling P n).named.bind fun _ _ => Reads.token _)).any
    refine .bind hdecorators fun _ _ => ?_
    refine .bind (Reads.acceptWord _) fun _ _ => .ite (.of_yields (.bind fun _ => hforeign "FunctionDef")) ?_
    refine .bind (Reads.acceptWord _) fun _ _ => .ite (.of_yields (.bind fun _ => hforeign "ClassDef")) ?_
    refine .bind (Reads.acceptWord _) fun _ _ => .ite (.of_yields ?_) ?_
    · exact .bind fun _ => .bind fun _ => .bind fun _ => hforeign "AsyncFunctionDef"
    refine .bind (Reads.check _) fun _ _ => .orElse (.of_yields ?_) (lineStatements_names n)
    exact .bind fun _ => .bind fun _ => hforeign "Match"

end Parser

end Statements

/-! ## The texts of fragments -/

section Texts

variable {P : String → Prop} {cs : List Char} {fragment rest code : String}

theorem dropEndWhile_append (p : Char → Bool) (cs : List Char) :
    ∃ y, cs = dropEndWhile p cs ++ y ∧ ∀ c ∈ y, p c = true := by
  induction cs with
  | nil => exact ⟨[], rfl, by simp⟩
  | cons c cs ih =>
    obtain ⟨y, hy, hblank⟩ := ih
    unfold dropEndWhile
    split
    · rename_i hnil
      rw [hnil, List.nil_append] at hy
      split
      · rename_i hc
        exact ⟨c :: cs, rfl, List.forall_mem_cons.mpr ⟨hc, hy ▸ hblank⟩⟩
      · exact ⟨cs, rfl, hy ▸ hblank⟩
    · rename_i d ds hds
      exact ⟨y, by rw [← hds, List.cons_append, ← hy], hblank⟩

theorem Words.strip (h : Words P cs) : Words P (strip cs) := by
  obtain ⟨y, hy, hafter⟩ := dropEndWhile_append isBlank (cs.dropWhile isBlank)
  have hseparates {c : Char} (hc : isBlank c = true) : separates c = true := by simp [separates, hc]
  have hcs : cs = cs.takeWhile isBlank ++ (Text.strip cs ++ y) := by
    rw [Text.strip, Text.trim, ← hy, List.takeWhile_append_dropWhile]
  rw [hcs] at h
  exact h.part (isCut_of_separates (fun c hc => hseparates (List.mem_takeWhile_imp hc)) _)
    fun c hc => hseparates (hafter c (List.mem_of_mem_head? hc))

theorem Words.mangle (h : Words P fragment.toList) : Words P (mangle fragment).toList :=
  h.of_respells (respells_mangle fragment)

/-- The words of a text with another part that has none but keywords. -/
theorem Words.append {other : List Char} (h : Words P cs)
    (hother : ∀ w, IsWordIn w other → String.ofList (spelled w) ∈ Parser.keywords)
    (hhead : ∀ c ∈ other.head?, isNameChar c = false) : Words P (cs ++ other) :=
  fun w hw hkeyword => (hw.of_append hhead).elim (fun hcs => h w hcs hkeyword)
    fun hrest => absurd (hother w hrest) hkeyword

/-- A word of letters alone is the whole of it, or an end of it that may follow a number. -/
theorem IsWordIn.of_letters {w word : List Char} (h : IsWordIn w word) (hword : ∀ c ∈ word, separates c = false) :
    w ∈ word.tails ∧ (w = word ∨ followsNumber w = true) := by
  obtain ⟨before, after, rfl, -, -, hafter, hbefore⟩ := h
  cases after with
  | cons c after =>
    have hc := hword c (by simp)
    rw [hafter c rfl] at hc
    cases hc
  | nil =>
    rw [List.append_nil] at hbefore ⊢
    refine ⟨(List.mem_tails _ _).mpr (List.suffix_append before w), hbefore.imp (fun hseparates => ?_) id⟩
    rcases List.eq_nil_or_concat before with rfl | ⟨others, c, rfl⟩
    · rfl
    · have hc := hword c (by simp)
      rw [hseparates c (by simp)] at hc
      cases hc

theorem keyword_words {keyword : String} (h : keyword ∈ ["if", "for", "pass"]) {w : List Char}
    (hw : IsWordIn w keyword.toList) : String.ofList (spelled w) ∈ Parser.keywords := by
  have hletters : ["if", "for", "pass"].all (fun k => k.toList.all fun c => !separates c) = true := by decide
  have htails : ∀ k ∈ ["if", "for", "pass"], ∀ v ∈ k.toList.tails, (v = k.toList ∨ followsNumber v = true) →
      String.ofList (spelled v) ∈ Parser.keywords := by decide
  obtain ⟨htail, hends⟩ := hw.of_letters fun c hc => by
    simpa using List.all_eq_true.mp (List.all_eq_true.mp hletters keyword h) c hc
  exact htails keyword h w htail hends

theorem words_headerText {keyword : String} (hkeyword : keyword ∈ ["if", "for"]) (h : Words P rest.toList) :
    Words P (headerText keyword rest) := by
  have hmem : keyword ∈ ["if", "for", "pass"] := List.mem_append_left ["pass"] hkeyword
  have hheader : Words P (if rest.isEmpty then keyword else keyword ++ " " ++ rest).toList := by
    split
    · exact fun w hw hne => absurd (keyword_words hmem hw) hne
    · intro w hw hne
      rw [String.toList_append, String.toList_append, List.append_assoc] at hw
      rcases hw.of_append (y := ' ' :: rest.toList) (by simp; decide) with hfirst | hrest
      · exact absurd (keyword_words hmem hfirst) hne
      · exact h w (hrest.of_cons (by decide)) hne
  rw [headerText, String.toList_append]
  refine hheader.mangle.append (fun w hw => ?_) fun c hc => ?_
  · have hpass : IsWordIn w "pass".toList := by
      have hspace : isNameChar ' ' = false := by decide
      exact (((((hw.of_cons (c := ':') (by decide)).of_cons (c := '\n') (by decide)).of_cons hspace).of_cons
        hspace).of_cons hspace).of_cons hspace
    exact keyword_words (by decide) hpass
  · obtain rfl : c = ':' := (Option.some.inj hc).symm
    decide

end Texts

/-! ## Accepted fragments -/

/-- What a fragment is read as, where it is accepted: an expression that is put out, an action, or what stands after
the word that opens a condition or a loop. -/
inductive ReadAs : String → Statement → Prop
  | expression {fragment : String} {e : Expr} : parseExpression fragment = .ok e → ReadAs fragment (.expression e)
  | action {fragment : String} {s : Statement} : parseAction fragment = .ok s → ReadAs fragment s
  | condition {fragment code : String} {e : Expr} : parseTest fragment code = .ok e → ReadAs fragment (.condition e)
  | loop {fragment code : String} {t e : Expr} : parseLoop fragment code = .ok (t, e) → ReadAs fragment (.loop t e)

section Accepted

variable {P : String → Prop} {text : List Char} {fragment code : String}

theorem expression?_names {e : Expr} (htext : Words P text) (h : expression? text = some e) : e.Names P := by
  obtain ⟨ts, hts, hwhole⟩ := Option.bind_eq_some_iff.mp h
  split at hwhole
  · rename_i first rest hread
    split at hwhole
    · cases hwhole
      have hreads : Parser.Reads P (Expr.Names P) (expression?.whole (Parser.fuelFor text)) :=
        .several (Parser.spelling P _).expression fun _ he => he
      exact (hreads _ _ _ (lex?_hasWords htext hts) hread).1
    · cases hwhole
  · cases hwhole

/-- The first statement of a text. -/
theorem statements?_names {s : Statement} {others : List Statement} (htext : Words P text)
    (h : statements? text = some (s :: others)) : s.Names P := by
  obtain ⟨ts, all, hts, hmany, hflat⟩ := statements?_eq_some.mp h
  cases all with
  | nil => cases hflat
  | cons l more =>
    have hfuel : Parser.fuelFor text = 60 * (text.length + 3) + 59 + 1 := by
      unfold Parser.fuelFor
      omega
    rw [hfuel] at hmany
    obtain ⟨mid, hl, -⟩ := Parser.many_eq_cons.mp hmany
    obtain ⟨first, rest, rfl, hfirst⟩ := Parser.statement_names _ _ _ _ (lex?_hasWords htext hts) hl
    obtain rfl : first = s := (List.cons.inj hflat).1
    exact hfirst

theorem parseExpression_names {e : Expr} (hfragment : Words P fragment.toList)
    (h : parseExpression fragment = .ok e) : e.Names P := by
  unfold parseExpression at h
  split at h
  · cases h
  · rename_i e' hread
    obtain ⟨_, -, hreturn⟩ := bind_eq_ok.mp h
    cases hreturn
    exact expression?_names hfragment.mangle.strip hread

/-- An action is the one statement of its text. -/
theorem statements?_of_parseAction {s : Statement} (h : parseAction code = .ok s) :
    statements? (mangle code).toList = some [s] := by
  unfold parseAction at h
  extract_lets refuse at h
  split at h
  · cases h
  · rename_i s' hread
    rw [hread]
    have hsame : s' = s := by
      split at h
      · obtain ⟨_, -, hreturn⟩ := bind_eq_ok.mp h
        cases hreturn
        rfl
      · obtain ⟨_, -, hmore⟩ := bind_eq_ok.mp h
        obtain ⟨_, -, hreturn⟩ := bind_eq_ok.mp hmore
        cases hreturn
        rfl
      · split at h
        · obtain ⟨_, -, hmore⟩ := bind_eq_ok.mp h
          obtain ⟨_, -, hreturn⟩ := bind_eq_ok.mp hmore
          cases hreturn
          rfl
        · cases h
      · cases h
    rw [hsame]
  · cases h

/-- The identifiers of an accepted fragment are words of the fragment. -/
theorem ReadAs.names {s : Statement} (h : ReadAs fragment s) (hfragment : Words P fragment.toList) : s.Names P := by
  cases h with
  | expression h => exact parseExpression_names hfragment h
  | action h => exact statements?_names hfragment.mangle (statements?_of_parseAction h)
  | condition h =>
    obtain ⟨test, tail, hread⟩ := parseTest_eq_ok.mp h
    have hts := lex?_hasWords (words_headerText (by simp) hfragment) hread.tokens
    exact ((Parser.spelling P _).named _ _ _ (List.forall_mem_cons.mp hts).2 hread.read).1
  | loop h =>
    obtain ⟨names, values, tail, hread⟩ := parseLoop_eq_ok.mp h
    have hts := lex?_hasWords (words_headerText (by simp) hfragment) hread.tokens
    obtain ⟨ht, hmid⟩ := (Parser.spelling P _).targets _ _ _ (List.forall_mem_cons.mp hts).2 hread.readTarget
    exact Statement.names_loop.mpr
      ⟨ht, ((Parser.spelling P _).starExpressions _ _ _ (List.forall_mem_cons.mp hmid).2 hread.readIterable).1⟩

end Accepted


/-! ## Names with a dollar -/

/-- A letter, a digit or a low line. -/
def isPlainChar (c : Char) : Bool := isAsciiLetter c || isAsciiDigit c || c == '_'

theorem toNat_lt_of_isPlainChar {c : Char} (h : isPlainChar c = true) : c.toNat < 128 ∧ c ≠ '$' := by
  have hbelow {d : Char} (hle : c ≤ d) (hd : d.toNat < 128) : c.toNat < 128 := Nat.lt_of_le_of_lt hle hd
  simp only [isPlainChar, isAsciiLetter, isAsciiDigit, Bool.or_eq_true, Bool.and_eq_true, decide_eq_true_eq,
    beq_iff_eq] at h
  refine ⟨?_, by rintro rfl; revert h; decide⟩
  rcases h with ((⟨-, h⟩ | ⟨-, h⟩) | ⟨-, h⟩) | rfl
  · exact hbelow h (by decide)
  · exact hbelow h (by decide)
  · exact hbelow h (by decide)
  · decide

/-- A word with `$` before a plain one is spelled with `_dollar_` before it. -/
theorem nameOf_dollar {n : String} (hn : ∀ c ∈ n.toList, isPlainChar c = true) :
    nameOf ('$' :: n.toList) = dollarMark ++ n := by
  have hspelled : spelled ('$' :: n.toList) = (dollarMark ++ n).toList := by
    rw [spelled_dollar, spelled_of_not_mem fun hmem => (toNat_lt_of_isPlainChar (hn _ hmem)).2 rfl,
      String.toList_append]
  have hmark : dollarMark.toList.all (fun c => c.toNat < 128) = true := by decide
  have hascii : (dollarMark ++ n).toList.all (fun c => c.toNat < 128) = true := by
    simp only [List.all_eq_true, decide_eq_true_eq, String.toList_append]
    exact List.forall_mem_append.mpr ⟨by simpa using List.all_eq_true.mp hmark, fun c hc => (toNat_lt_of_isPlainChar (hn c hc)).1⟩
  rw [nameOf, hspelled, compatible, if_pos hascii, String.ofList_toList]

/-- The name of a variable or an attribute that is written with `$` stands for just that. -/
theorem scopeKey_mark (n : String) : scopeKey (dollarMark ++ n) = "$" ++ n := by
  have h := scopeKey_marked n.toList
  rw [← String.toList_append, String.ofList_toList] at h
  rw [h]
  exact String.ext_iff.mpr (by simp)

/-! ## What identifiers mean -/

/-- The statements that a block holds itself, apart from those of the blocks in it. -/
def Block.statements : Block → List Statement
  | .text _ => []
  | .output e => [.expression e]
  | .action s => [s]
  | .loop target iterable _ _ => [.loop target iterable]
  | .choice branches _ => branches.map fun b => .condition b.1

theorem mem_branchesKeyed {s : Statement} : ∀ {branches : List (Expr × List Block)},
    s ∈ branches.map (fun b => Statement.condition b.1) →
      s.keyed ∈ (branchesKeyed branches).map fun b => Statement.condition b.1
  | (test, body) :: rest, h => by
    rcases List.mem_cons.mp h with rfl | h
    · exact List.mem_cons_self
    · exact List.mem_cons_of_mem _ (mem_branchesKeyed h)

theorem Block.keyed_mem_statements {s : Statement} {b : Block} (h : s ∈ b.statements) :
    s.keyed ∈ b.keyed.statements := by
  cases b with
  | text => exact absurd h List.not_mem_nil
  | output | action | loop =>
    obtain rfl := List.mem_singleton.mp h
    exact List.mem_singleton_self _
  | choice branches => exact mem_branchesKeyed h

/-- What a statement assigns to. -/
def Statement.targets : Statement → List Expr
  | .assign targets _ => targets
  | .augmented target _ _ | .loop target _ => [target]
  | .expression _ | .condition _ | .foreign _ => []

/-- A function that is called receives its named arguments under the names as they are. -/
theorem Expr.eval_call_named (host : Host) (scope : Scope) (f : Expr) (arguments : List Expr) {us : List Use}
    {es : List Expr} (hnames : ∀ u ∈ us, u.position = .argument) (hlength : us.length = es.length) :
    (Expr.call f arguments ((us.map fun u => some u.name).zip es)).eval host scope = (do
      let g ← f.eval host scope
      Run.guardCall g
      let positional ← evalAll host scope arguments
      let vs ← evalAll host scope es
      Run.call host g ⟨positional, Bindings.bindAll [] ((us.map Use.key).zip vs)⟩) := by
  have hkeys : us.map Use.key = us.map Use.name := List.map_congr_left fun u hu => by
    rw [Use.key, hnames u hu]
  have hzip : (us.map fun u => some u.name) = (us.map Use.name).map some := by rw [List.map_map]; rfl
  simp only [Expr.eval, hzip, hkeys, evalNamed_zip host scope _ es [] ((List.length_map _).trans hlength), bind_assoc,
    pure_bind]

/-- An attribute of a mapping is its entry, where there is one. -/
theorem outcome_readAttribute {w : World} {p : Nat} {key : String} {v : Value}
    (h : (w.store.dict p).find? (.text key) = some v) : (Run.readAttribute (.dict p) key).outcome w = .ok v := by
  have hrecord : (Run.record (.read (.dict p) key)).run.run w =
      (.ok (), { w with deeds := .read (.dict p) key :: w.deeds }) := rfl
  have hdict (u : World) : (Run.dict p).run.run u = (.ok (u.store.dict p), u) := rfl
  rw [Run.outcome, Run.readAttribute, Run.run_bind, hrecord]
  simp only
  rw [Run.run_bind, hdict]
  simp only [h]
  rfl

/-- What the identifiers mean of a statement that a fragment is read as. -/
structure Statement.GoesByKeys (fragment : String) (s : Statement) : Prop where
  /-- They are words of the fragment. What is written `$n` stands for `$n`, but for `_dollar_n` as the name of an
  argument. -/
  written : ∀ u ∈ s.uses, ∃ w, IsWordIn w fragment.toList ∧ u.name = nameOf w ∧
    ∀ n : String, (∀ c ∈ n.toList, isPlainChar c = true) → w = '$' :: n.toList →
      u.key = if u.position = .argument then dollarMark ++ n else "$" ++ n
  unmarked : ∀ u ∈ s.uses, u.position ≠ .argument → ¬IsMarked u.key
  /-- A variable is looked up by its key. -/
  reads (host : Host) (scope : Scope) (w : World) : ∀ u ∈ s.uses, u.position = .variable →
    ((Expr.name u.name).eval host scope).outcome w = .ok ((scope.find? w.store u.key).getD .none)
  /-- An attribute of a mapping is its entry with the key. -/
  entries (host : Host) (scope : Scope) {base : Expr} {w w' : World} {p : Nat} {v : Value} :
    ∀ u ∈ s.uses, u.position = .attribute → (base.eval host scope).run.run w = (.ok (.dict p), w') →
      (w'.store.dict p).find? (.text u.key) = some v →
      ((Expr.attribute base u.name).eval host scope).outcome w = .ok v
  /-- To assign to a target is to bind the keys of its identifiers. -/
  assigns : ∀ t ∈ s.targets, ∀ v, Step.Turns (Bindings.Bound (t.uses.map Use.key)) (Step.assign t v)
  /-- Arguments are received under their keys. -/
  passes (host : Host) (scope : Scope) (f : Expr) (positional : List Expr) {us : List Use} {es : List Expr} :
    (∀ u ∈ us, u ∈ s.uses ∧ u.position = .argument) → us.length = es.length →
      (Expr.call f positional ((us.map fun u => some u.name).zip es)).eval host scope = do
        let g ← f.eval host scope
        Run.guardCall g
        let vs ← evalAll host scope positional
        let named ← evalAll host scope es
        Run.call host g ⟨vs, Bindings.bindAll [] ((us.map Use.key).zip named)⟩
  keyed : s.keyed.uses = s.uses.map Use.keyed
  /-- A block with the statement does what it does with the keys in place of the names, and binds no name that begins
  with `_dollar_`. -/
  blocks {b : Block} {setting setting' : Setting} : s ∈ b.statements → Step.Alike setting setting' →
    s.keyed ∈ b.keyed.statements ∧ Step.execute setting b = Step.execute setting' b.keyed ∧
      Step.Turns Bindings.Unmarked (Step.execute setting b)

/-- Wherever an identifier stands in a fragment, the name `$n` stands for the key `$n`, the names of arguments apart:
they are passed on as they are spelled in code. -/
theorem ReadAs.goesByKeys {fragment : String} {s : Statement} (h : ReadAs fragment s) : s.GoesByKeys fragment where
  written u hu := by
    have hwords : Words (fun name => ∃ w, IsWordIn w fragment.toList ∧ name = nameOf w) fragment.toList :=
      fun w hw _ => ⟨w, hw, rfl⟩
    obtain ⟨w, hw, hname⟩ := h.names hwords u hu
    refine ⟨w, hw, hname, fun n hn hdollar => ?_⟩
    rw [hdollar, nameOf_dollar hn] at hname
    rw [Use.key, hname]
    split <;> simp_all [scopeKey_mark]
  unmarked u _ hu := Use.key_unmarked hu
  reads host scope w u _ hu := by
    rw [Use.key, hu, Expr.eval]
    rfl
  entries host scope {base w w' p v} u _ hu hbase hentry := by
    rw [Use.key, hu] at hentry
    rw [Run.outcome, Expr.eval, Run.run_bind, hbase]
    exact outcome_readAttribute hentry
  assigns t _ v := Step.assign_turns t v
  passes host scope f positional {us es} hus hlength :=
    Expr.eval_call_named host scope f positional (fun u hu => (hus u hu).2) hlength
  keyed := s.uses_keyed
  blocks hb hsettings :=
    ⟨Block.keyed_mem_statements hb, Step.execute_keyed hsettings _, Step.execute_turns _ _⟩

/-- The argument that is written `$a` is passed under the name `_dollar_a`; all else goes by the names as written. -/
theorem goesByKeys_dict : ∃ s, ReadAs "$t = dict($a=f\x22\x7b$b.$c\x7d\x22)" s ∧
    s.uses.map Use.key = ["$t", "dict", "_dollar_a", "$b", "$c"] ∧
    s.GoesByKeys "$t = dict($a=f\x22\x7b$b.$c\x7d\x22)" := by
  have hread : (parseAction "$t = dict($a=f\x22\x7b$b.$c\x7d\x22)").toOption.map (fun s => s.uses.map Use.key) =
      some ["$t", "dict", "_dollar_a", "$b", "$c"] := by decide +kernel
  obtain ⟨s, hs, hkeys⟩ := exists_ok_of_map hread
  exact ⟨s, .action hs, hkeys, ReadAs.goesByKeys (.action hs)⟩

end NestedSite.Template
