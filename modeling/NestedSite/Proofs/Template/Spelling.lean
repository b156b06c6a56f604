import NestedSite.Proofs.Template.Clause
import NestedSite.Proofs.Template.Keyed
import NestedSite.Proofs.Template.Lexing

/-!
# Where identifiers come from

Every identifier of a tree is a name among the tokens that the tree was read from, or in a string literal among them.
`Parser.Reads P R p` says that `p` reads a value with `R` from tokens whose names satisfy `P`, and leaves such tokens.
All parsers of the expression grammar read trees whose identifiers satisfy `P` (`Parser.spelling`).
-/

namespace NestedSite.Template

open Text

/-! ## The identifiers of a tree -/

section Names

variable {P : String → Prop}

/-- The identifiers of an expression satisfy `P`. -/
def Expr.Names (P : String → Prop) (e : Expr) : Prop := ∀ u ∈ e.uses, P u.name

/-- An argument and its name, if it has one. -/
def NamedArgument (P : String → Prop) (a : Option String × Expr) : Prop := (∀ name ∈ a.1, P name) ∧ a.2.Names P

/-- An entry and its key, if it has one. -/
def NamedEntry (P : String → Prop) (a : Option Expr × Expr) : Prop := (∀ k ∈ a.1, k.Names P) ∧ a.2.Names P

theorem forall_optionUses {o : Option Expr} : (∀ u ∈ optionUses o, P u.name) ↔ ∀ e ∈ o, e.Names P := by
  cases o <;> simp [optionUses, Expr.Names]

theorem forall_listUses {es : List Expr} : (∀ u ∈ listUses es, P u.name) ↔ ∀ e ∈ es, e.Names P := by
  induction es with
  | nil => simp [listUses]
  | cons e es ih => rw [listUses, List.forall_mem_append, ih, List.forall_mem_cons, Expr.Names]

theorem forall_namedUses {named : List (Option String × Expr)} :
    (∀ u ∈ namedUses named, P u.name) ↔ ∀ a ∈ named, NamedArgument P a := by
  induction named with
  | nil => simp [namedUses]
  | cons a named ih =>
    obtain ⟨_ | name, e⟩ := a
    · rw [namedUses, List.forall_mem_append, ih, List.forall_mem_cons, NamedArgument, Expr.Names]
      simp
    · rw [namedUses, List.forall_mem_cons, List.forall_mem_append, ih, List.forall_mem_cons, NamedArgument, Expr.Names]
      simp [and_assoc]

theorem forall_compareUses {rest : List (CompareOp × Expr)} :
    (∀ u ∈ compareUses rest, P u.name) ↔ ∀ a ∈ rest, a.2.Names P := by
  induction rest with
  | nil => simp [compareUses]
  | cons a rest ih =>
    obtain ⟨op, e⟩ := a
    rw [compareUses, List.forall_mem_append, ih, List.forall_mem_cons, Expr.Names]

theorem forall_entriesUses {entries : List (Option Expr × Expr)} :
    (∀ u ∈ entriesUses entries, P u.name) ↔ ∀ a ∈ entries, NamedEntry P a := by
  induction entries with
  | nil => simp [entriesUses]
  | cons a entries ih =>
    obtain ⟨k, e⟩ := a
    rw [entriesUses, List.forall_mem_append, List.forall_mem_append, forall_optionUses, ih, List.forall_mem_cons,
      NamedEntry, Expr.Names]

namespace Expr

variable {e e' e'' : Expr} {es : List Expr}

@[simp] theorem names_literal {value : Literal} : (literal value).Names P := by simp [Names, uses]

@[simp] theorem names_foreign {kind : String} : (foreign kind).Names P := by simp [Names, uses]

@[simp] theorem names_name {id : String} : (name id).Names P ↔ P id := by simp [Names, uses]

@[simp] theorem names_attribute {attr : String} : («attribute» e attr).Names P ↔ e.Names P ∧ P attr := by
  rw [Names, uses, List.forall_mem_append, List.forall_mem_singleton, ← Names]

@[simp] theorem names_subscript : (subscript e e').Names P ↔ e.Names P ∧ e'.Names P := List.forall_mem_append

@[simp] theorem names_slice {lower upper step : Option Expr} : (slice lower upper step).Names P ↔
    (∀ e ∈ lower, e.Names P) ∧ (∀ e ∈ upper, e.Names P) ∧ ∀ e ∈ step, e.Names P := by
  simp only [Names, uses, List.forall_mem_append, forall_optionUses, and_assoc]

@[simp] theorem names_call {named : List (Option String × Expr)} : (call e es named).Names P ↔
    e.Names P ∧ (∀ e ∈ es, e.Names P) ∧ ∀ a ∈ named, NamedArgument P a := by
  simp only [Names, uses, List.forall_mem_append, forall_listUses, forall_namedUses, and_assoc]

@[simp] theorem names_binary {op : BinaryOp} : (binary op e e').Names P ↔ e.Names P ∧ e'.Names P :=
  List.forall_mem_append

@[simp] theorem names_unary {op : UnaryOp} : (unary op e).Names P ↔ e.Names P := Iff.rfl

@[simp] theorem names_boolean {b : Bool} : (boolean b es).Names P ↔ ∀ e ∈ es, e.Names P := forall_listUses

@[simp] theorem names_compare {rest : List (CompareOp × Expr)} :
    (compare e rest).Names P ↔ e.Names P ∧ ∀ a ∈ rest, a.2.Names P := by
  simp only [Names, uses, List.forall_mem_append, forall_compareUses]

@[simp] theorem names_conditional : (conditional e e' e'').Names P ↔ e'.Names P ∧ e.Names P ∧ e''.Names P := by
  simp only [Names, uses, List.forall_mem_append, and_assoc]

@[simp] theorem names_list : (list es).Names P ↔ ∀ e ∈ es, e.Names P := forall_listUses

@[simp] theorem names_tuple : (tuple es).Names P ↔ ∀ e ∈ es, e.Names P := forall_listUses

@[simp] theorem names_set : (set es).Names P ↔ ∀ e ∈ es, e.Names P := forall_listUses

@[simp] theorem names_joined : (joined es).Names P ↔ ∀ e ∈ es, e.Names P := forall_listUses

@[simp] theorem names_dict {entries : List (Option Expr × Expr)} :
    (dict entries).Names P ↔ ∀ a ∈ entries, NamedEntry P a := forall_entriesUses

@[simp] theorem names_formatted {conversion : Option Conversion} {spec : Option Expr} :
    (formatted e conversion spec).Names P ↔ e.Names P ∧ ∀ e ∈ spec, e.Names P := by
  simp only [Names, uses, List.forall_mem_append, forall_optionUses]

@[simp] theorem names_starred : (starred e).Names P ↔ e.Names P := Iff.rfl

end Expr

end Names

namespace Parser

open Token

variable {P : String → Prop} {α β : Type} {R : α → Prop} {S : β → Prop} {p q : Parser α} {f : α → Parser β}

/-- From tokens whose names satisfy `P` the parser reads a value with `R`, and it leaves such tokens. -/
def Reads (P : String → Prop) (R : α → Prop) (p : Parser α) : Prop :=
  ∀ ts a ts', (∀ t ∈ ts, t.HasWords P) → p ts = some (a, ts') → R a ∧ ∀ t ∈ ts', t.HasWords P

namespace Reads

theorem mono {R' : α → Prop} (h : Reads P R p) (hR : ∀ a, R a → R' a) : Reads P R' p :=
  fun ts a ts' hts hread => (h ts a ts' hts hread).imp_left (hR a)

theorem any (h : Reads P R p) : Reads P (fun _ => True) p := h.mono fun _ _ => trivial

theorem pure {a : α} (h : R a) : Reads P R (Pure.pure a : Parser α) := fun ts b ts' hts hread => by
  cases hread
  exact ⟨h, hts⟩

theorem failure : Reads P R (failure : Parser α) := fun _ _ _ _ hread => by cases hread

theorem bind (hp : Reads P R p) (hf : ∀ a, R a → Reads P S (f a)) : Reads P S (p >>= f) := by
  intro ts b ts' hts h
  obtain ⟨a, mid, ha, hb⟩ := bind_eq_some.mp h
  obtain ⟨hR, hmid⟩ := hp _ _ _ hts ha
  exact hf a hR _ _ _ hmid hb

theorem orElse (hp : Reads P R p) (hq : Reads P R q) : Reads P R (p <|> q) :=
  fun ts a ts' hts h => (orElse_eq_some h).elim (hp ts a ts' hts) (hq ts a ts' hts)

theorem ite {c : Prop} [Decidable c] (hp : Reads P R p) (hq : Reads P R q) : Reads P R (if c then p else q) := by
  split
  · exact hp
  · exact hq

theorem map (hp : Reads P R p) {g : α → β} (hg : ∀ a, R a → S (g a)) : Reads P S (g <$> p) :=
  hp.bind fun a ha => .pure (hg a ha)

theorem get : Reads P (fun ts => ∀ t ∈ ts, t.HasWords P) (MonadState.get : Parser (List Token)) := by
  intro ts a ts' hts h
  cases h
  exact ⟨hts, hts⟩

theorem peek : Reads P (fun _ => True) peek := get.bind fun _ _ => .pure trivial

theorem sees (t : Token) : Reads P (fun _ => True) (sees t) := peek.bind fun _ _ => .pure trivial

theorem seesOp (text : String) : Reads P (fun _ => True) (seesOp text) := .sees _

theorem seesWord (text : String) : Reads P (fun _ => True) (seesWord text) := .sees _

theorem seesBinding : Reads P (fun _ => True) seesBinding :=
  get.bind fun _ _ => by split <;> exact .pure trivial

theorem seesClause : Reads P (fun _ => True) seesClause :=
  (seesWord _).bind fun _ _ => (seesWord _).bind fun _ _ => .pure trivial

theorem check (b : Bool) : Reads P (fun _ => True) (check b) := .ite (.pure trivial) .failure

theorem token (t : Token) : Reads P (fun _ => True) (token t) := by
  intro ts a ts' hts h
  cases token_eq_some.mp h
  exact ⟨trivial, (List.forall_mem_cons.mp hts).2⟩

theorem word (text : String) : Reads P (fun _ => True) (word text) := .token _

theorem op (text : String) : Reads P (fun _ => True) (op text) := .token _

theorem accept (t : Token) : Reads P (fun _ => True) (accept t) := by
  intro ts b ts' hts h
  rcases accept_eq_some h with ⟨-, rfl⟩ | ⟨-, rfl⟩
  · exact ⟨trivial, (List.forall_mem_cons.mp hts).2⟩
  · exact ⟨trivial, hts⟩

theorem acceptOp (text : String) : Reads P (fun _ => True) (acceptOp text) := .accept _

theorem acceptWord (text : String) : Reads P (fun _ => True) (acceptWord text) := .accept _

theorem identifier : Reads P P identifier := by
  intro ts a ts' hts h
  match ts, h with
  | .name text :: rest, h =>
    simp only [Parser.identifier] at h
    obtain ⟨hname, hrest⟩ := List.forall_mem_cons.mp hts
    split at h
    · cases h
    · rename_i hkeyword
      cases h
      exact ⟨hname (by simpa using hkeyword), hrest⟩

theorem operatorOf (ops : List (String × BinaryOp)) : Reads P (fun _ => True) (operatorOf ops) := by
  intro ts a ts' hts h
  unfold Parser.operatorOf at h
  split at h
  · obtain ⟨o, -, heq⟩ := Option.map_eq_some_iff.mp h
    cases heq
    exact ⟨trivial, (List.forall_mem_cons.mp hts).2⟩
  · cases h

theorem compareOp : Reads P (fun _ => True) compareOp := by
  intro ts a ts' hts h
  refine ⟨trivial, fun t ht => hts t ?_⟩
  unfold Parser.compareOp at h
  split at h <;> cases h <;> simp [ht]

theorem many (n : Nat) (hp : Reads P R p) : Reads P (fun as => ∀ a ∈ as, R a) (many n p) := by
  induction n with
  | zero => exact .pure (by simp)
  | succ n ih =>
    refine .orElse (hp.bind fun a ha => ih.bind fun as has => ?_) (.pure (by simp))
    exact .pure (List.forall_mem_cons.mpr ⟨ha, has⟩)

theorem moreItems (n : Nat) (hp : Reads P R p) : Reads P (fun as => ∀ a ∈ as, R a) (moreItems n p) :=
  .many n ((op _).bind fun _ _ => hp)

theorem items (n : Nat) (hp : Reads P R p) : Reads P (fun as => ∀ a ∈ as, R a) (items n p) :=
  hp.bind fun _ ha => (moreItems n hp).bind fun _ has => .pure (List.forall_mem_cons.mpr ⟨ha, has⟩)

/-- One item or several with commas between them. -/
theorem several {n : Nat} {p : Parser Expr} (hp : Reads P (Expr.Names P) p) {g : Expr → Expr}
    (hg : ∀ e : Expr, e.Names P → (g e).Names P) : Reads P (Expr.Names P) (do
    let first ← p
    if ← Parser.seesOp "," then
      let rest ← Parser.moreItems n p
      let _ ← Parser.acceptOp ","
      return .tuple (first :: rest)
    else return g first) :=
  hp.bind fun first hfirst => (seesOp _).bind fun _ _ =>
    .ite ((moreItems n hp).bind fun rest hrest => (acceptOp _).bind fun _ _ => .pure (by simp [hfirst]; exact hrest))
      (.pure (hg first hfirst))

end Reads

/-! ## Replacement fields -/

section Fields

variable {cs rest : List Char}

theorem names_literalExpr (cs : List Char) : ∀ e ∈ literalExpr cs, e.Names P := by
  unfold literalExpr
  split <;> simp

/-- The text after the next character has names that satisfy `P`, if no word goes on over that character. -/
def WordsAfter (P : String → Prop) (cs : List Char) : Prop :=
  ∀ c rest, cs = c :: rest → separates c = true → Words P rest

theorem wordsAfter (h : Words P cs) : WordsAfter P cs := by
  rintro c rest rfl hc
  exact h.rest (x := [c]) (.inl (by simpa using hc))

theorem WordsAfter.skip {x : List Char} (h : Words P (x ++ cs)) : WordsAfter P cs := by
  rintro c rest rfl hc
  refine Words.rest (x := x ++ [c]) (by simpa using h) (.inl ?_)
  simpa using hc

theorem isNameChar_brace {c : Char} (h : (c == '\x7b' || c == '\x7d') = true) : isNameChar c = false := by
  simp only [Bool.or_eq_true, beq_iff_eq] at h
  rcases h with rfl | rfl <;> decide

/-- A literal part ends before a brace, or with one. -/
theorem literalPart?_ends {nested doubled : Bool} {literal : List Char}
    (h : literalPart? nested cs = some (literal, doubled, rest)) : ∃ x, cs = x ++ rest ∧
      ((∀ c ∈ rest.head?, isNameChar c = false) ∨ ∃ y c, x = y ++ [c] ∧ separates c = true) := by
  induction cs generalizing literal with
  | nil =>
    cases h
    exact ⟨[], rfl, .inl (by simp)⟩
  | cons c cs ih =>
    have hstop (hc : (c == '\x7b' || c == '\x7d') = true) : ∃ x, c :: cs = x ++ c :: cs ∧
        ((∀ d ∈ (c :: cs).head?, isNameChar d = false) ∨ ∃ y d, x = y ++ [d] ∧ separates d = true) :=
      ⟨[], rfl, .inl fun d hd => by cases hd; exact isNameChar_brace hc⟩
    unfold literalPart? at h
    split at h
    · rename_i hc
      split at h
      · cases h
        exact hstop hc
      · split at h
        · split at h
          · rename_i d more hd
            cases h
            exact ⟨[c, d], rfl, .inr ⟨[c], d, rfl, separates_of_not (beq_iff_eq.mp hd ▸ isNameChar_brace hc)⟩⟩
          · split at h <;> cases h
            exact hstop hc
        · split at h <;> cases h
          exact hstop hc
    · obtain ⟨⟨t, b, r⟩, hmore, heq⟩ := Option.map_eq_some_iff.mp h
      cases heq
      obtain ⟨x, rfl, hends⟩ := ih hmore
      exact ⟨c :: x, rfl, hends.imp_right fun ⟨y, d, hx, hd⟩ => ⟨c :: y, d, by rw [hx]; rfl, hd⟩⟩

theorem literalPart?_words {nested doubled : Bool} {literal : List Char} (hcs : Words P cs)
    (h : literalPart? nested cs = some (literal, doubled, rest)) : Words P rest := by
  obtain ⟨x, rfl, hends⟩ := literalPart?_ends h
  refine hcs.rest ?_
  rcases hends with hhead | ⟨y, c, rfl, hc⟩
  · exact .inr (.inl hhead)
  · exact .inl (by simpa using hc)

/-- The text of a field ends before a character that is no letter. -/
theorem fieldText?_ends {brackets quote : List Char} {taken : Nat} {text : List Char}
    (h : fieldText? brackets quote taken cs = some (text, rest)) :
    cs = text ++ rest ∧ ∀ c ∈ rest.head?, isNameChar c = false := by
  induction cs generalizing brackets quote taken text with
  | nil => cases h
  | cons c cs ih =>
    have hgo {brackets quote : List Char} {taken : Nat}
        (h : (fieldText? brackets quote taken cs).map (fun r => (c :: r.1, r.2)) = some (text, rest)) :
        c :: cs = text ++ rest ∧ ∀ c ∈ rest.head?, isNameChar c = false := by
      obtain ⟨⟨text, rest⟩, hmore, heq⟩ := Option.map_eq_some_iff.mp h
      cases heq
      obtain ⟨rfl, hhead⟩ := ih hmore
      exact ⟨rfl, hhead⟩
    unfold fieldText? at h
    dsimp only at h
    split at h
    · exact hgo h
    · split at h
      · cases h
      · split at h
        · split at h <;> exact hgo h
        · split at h
          · split at h <;> exact hgo h
          · split at h
            · exact hgo h
            · split at h
              · cases h
              · split at h
                · rename_i hends
                  split at h
                  · exact hgo h
                  · split at h
                    · exact hgo h
                    · cases h
                      refine ⟨rfl, fun d hd => ?_⟩
                      cases hd
                      have hletters : "!:\x7d=<>".toList.all (fun e => !isNameChar e) = true := by decide
                      have hc := List.contains_iff_mem.mp (Bool.and_eq_true _ _ |>.mp hends).2
                      simpa using List.all_eq_true.mp hletters c hc
                · split at h
                  · split at h
                    · split at h
                      · exact hgo h
                      · cases h
                    · cases h
                  · exact hgo h

/-- The text of a field, in the brackets that it is read in. -/
theorem fieldText?_words {text : List Char} (hcs : Words P cs) (h : fieldText? [] [] 0 cs = some (text, rest)) :
    Words P ('(' :: text ++ [')']) ∧ Words P rest := by
  obtain ⟨rfl, hhead⟩ := fieldText?_ends h
  refine ⟨fun w hw => ?_, hcs.rest (.inr (.inl hhead))⟩
  have htext : Words P text := hcs.part (x := []) (.inl (by simp)) fun c hc => separates_of_not (hhead c hc)
  rcases hw.of_append (by simp; decide) with hopen | hclose
  · exact htext w (hopen.of_cons (by decide))
  · exact absurd hclose (not_isWordIn (by simp; decide))

/-- An equals sign after the expression of a field, with the text that it shows. -/
def fieldEquals (text cs : List Char) : List Char × List Char :=
  match cs with
  | '=' :: rest => (text ++ '=' :: rest.takeWhile isFieldBlank, rest.dropWhile isFieldBlank)
  | rest => ([], rest)

/-- The conversion of a field. -/
def fieldConversion? (cs : List Char) : Option (Option Conversion × List Char) :=
  match cs with
  | '!' :: c :: rest => (conversion? c).map fun k => (some k, rest)
  | '!' :: [] => none
  | rest => some (none, rest)

/-- The format specification of a field. -/
def fieldSpec? (raw : Bool) (nested n : Nat) (cs : List Char) : Option (Option Expr × List Char) :=
  match cs with
  | ':' :: rest => (formatParts? raw (nested + 1) n rest).map fun (parts, rest) => (some (.joined parts), rest)
  | rest => some (none, rest)

/-- The end of a field, and what was read of it. -/
def fieldEnd? (value : Expr) (shown : List Char) (conversion : Option Conversion) (spec : Option Expr)
    (cs : List Char) : Option (List Expr × List Char) :=
  match cs with
  | '\x7d' :: rest =>
    let conversion := if !shown.isEmpty && spec.isNone && conversion.isNone then some Conversion.repr else conversion
    some (literalExpr shown ++ [.formatted value conversion spec], rest)
  | _ => none

/-- A replacement field, part by part. -/
theorem formatField?_succ (raw : Bool) (nested n : Nat) (cs : List Char) : formatField? raw nested (n + 1) cs =
    if 2 ≤ nested then none
    else (fieldText? [] [] 0 cs).bind fun text =>
      if text.1.all isFieldBlank then none
      else (lex? true ('(' :: text.1 ++ [')'])).bind fun ts => (starExpressions n ts).bind fun value =>
        (fieldConversion? (fieldEquals text.1 text.2).2).bind fun conversion =>
          (fieldSpec? raw nested n conversion.2).bind fun spec =>
            fieldEnd? value.1 (fieldEquals text.1 text.2).1 conversion.1 spec.1 spec.2 := by
  rw [formatField?]
  rfl

theorem fieldEquals_words {text : List Char} (hcs : Words P cs) : Words P (fieldEquals text cs).2 := by
  unfold fieldEquals
  split
  · rename_i rest
    have hblank : ∀ c ∈ '=' :: rest.takeWhile isFieldBlank, separates c = true := by
      refine List.forall_mem_cons.mpr ⟨by decide, fun c hc => ?_⟩
      have hspace : isFieldBlank c = true := List.mem_takeWhile_imp hc
      simp only [isFieldBlank, Bool.or_eq_true, beq_iff_eq] at hspace
      rcases hspace with ((rfl | rfl) | rfl) | rfl <;> decide
    refine Words.rest (x := '=' :: rest.takeWhile isFieldBlank) ?_ (isCut_of_separates hblank _)
    rwa [List.cons_append, List.takeWhile_append_dropWhile]
  · exact hcs

theorem fieldConversion?_words {conversion : Option Conversion} (hcs : Words P cs)
    (h : fieldConversion? cs = some (conversion, rest)) : WordsAfter P rest := by
  unfold fieldConversion? at h
  split at h
  · rename_i c after
    obtain ⟨k, -, heq⟩ := Option.map_eq_some_iff.mp h
    cases heq
    exact WordsAfter.skip (x := ['!', c]) hcs
  · cases h
  · cases h
    exact wordsAfter hcs

theorem fieldEnd?_words {value : Expr} {shown : List Char} {conversion : Option Conversion} {spec : Option Expr}
    {parts : List Expr} (hvalue : value.Names P) (hspec : ∀ e ∈ spec, e.Names P) (hcs : WordsAfter P cs)
    (h : fieldEnd? value shown conversion spec cs = some (parts, rest)) :
    (∀ e ∈ parts, e.Names P) ∧ Words P rest := by
  unfold fieldEnd? at h
  split at h
  · cases h
    refine ⟨List.forall_mem_append.mpr ⟨names_literalExpr _, ?_⟩, hcs _ _ rfl (by decide)⟩
    simpa using ⟨hvalue, hspec⟩
  · cases h

end Fields

/-! ## The grammar of expressions -/

/-- Whatever a parser of the grammar of expressions reads in the depth `n` from tokens whose names satisfy `P`, its
identifiers satisfy `P`. -/
structure Spelling (P : String → Prop) (n : Nat) : Prop where
  formatParts {raw : Bool} {nested : Nat} {cs rest : List Char} {parts : List Expr} (hcs : Words P cs)
    (h : formatParts? raw nested n cs = some (parts, rest)) : (∀ e ∈ parts, e.Names P) ∧ Words P rest
  formatField {raw : Bool} {nested : Nat} {cs rest : List Char} {parts : List Expr} (hcs : Words P cs)
    (h : formatField? raw nested n cs = some (parts, rest)) : (∀ e ∈ parts, e.Names P) ∧ Words P rest
  strings : Reads P (Expr.Names P) (strings n)
  stringPart : Reads P (fun r => ∀ e ∈ r.2, e.Names P) (stringPart n)
  expression : Reads P (Expr.Names P) (expression n)
  disjunction : Reads P (Expr.Names P) (disjunction n)
  conjunction : Reads P (Expr.Names P) (conjunction n)
  inversion : Reads P (Expr.Names P) (inversion n)
  binary (levels : List (List (String × BinaryOp))) : Reads P (Expr.Names P) (binary n levels)
  factor : Reads P (Expr.Names P) (factor n)
  primary : Reads P (Expr.Names P) (primary n)
  trailer : Reads P (fun t => ∀ e : Expr, e.Names P → (t e).Names P) (trailer n)
  subscripts : Reads P (Expr.Names P) (subscripts n)
  slice : Reads P (Expr.Names P) (slice n)
  named : Reads P (Expr.Names P) (named n)
  starNamed : Reads P (Expr.Names P) (starNamed n)
  starExpression : Reads P (Expr.Names P) (starExpression n)
  starExpressions : Reads P (Expr.Names P) (starExpressions n)
  yielded : Reads P (Expr.Names P) (yielded n)
  assigned : Reads P (Expr.Names P) (assigned n)
  target : Reads P (Expr.Names P) (target n)
  targets : Reads P (Expr.Names P) (targets n)
  clauses : Reads P (fun _ => True) (clauses n)
  arguments : Reads P (fun r => (∀ e ∈ r.1, e.Names P) ∧ ∀ a ∈ r.2, NamedArgument P a) (arguments n)
  argument : Reads P (Sum.elim (Expr.Names P) (NamedArgument P)) (argument n)
  parameters (annotated : Bool) : Reads P (fun _ => True) (parameters n annotated)
  atom : Reads P (Expr.Names P) (atom n)
  bracketed : Reads P (Expr.Names P) (bracketed n)
  braced : Reads P (Expr.Names P) (braced n)

namespace Spelling

variable {n : Nat}

theorem zero : Spelling P 0 := by
  constructor
  case formatParts => exact fun _ h => by cases h
  case formatField => exact fun _ h => by cases h
  all_goals intros; exact .failure

theorem formatParts_succ (h : Spelling P n) {raw : Bool} {nested : Nat} {cs rest : List Char} {parts : List Expr}
    (hcs : Words P cs) (hread : formatParts? raw nested (n + 1) cs = some (parts, rest)) :
    (∀ e ∈ parts, e.Names P) ∧ Words P rest := by
  rw [formatParts?] at hread
  obtain ⟨⟨literal, doubled, after⟩, hliteral, htext⟩ := Option.bind_eq_some_iff.mp hread
  obtain ⟨text, -, hchoice⟩ := Option.bind_eq_some_iff.mp htext
  have hafter : Words P after := literalPart?_words hcs hliteral
  dsimp only at hchoice
  clear hread htext
  split at hchoice
  · obtain ⟨⟨more, last⟩, hmore, heq⟩ := Option.map_eq_some_iff.mp hchoice
    cases heq
    obtain ⟨hparts, hlast⟩ := h.formatParts hafter hmore
    exact ⟨List.forall_mem_append.mpr ⟨names_literalExpr _, hparts⟩, hlast⟩
  · split at hchoice
    · rename_i field
      have hfield : Words P field := hafter.rest (x := ['\x7b']) (.inl (by simp; decide))
      obtain ⟨⟨fields, mid⟩, hfields, hrest⟩ := Option.bind_eq_some_iff.mp hchoice
      obtain ⟨⟨more, last⟩, hmore, heq⟩ := Option.map_eq_some_iff.mp hrest
      cases heq
      obtain ⟨hread, hmid⟩ := h.formatField hfield hfields
      obtain ⟨hparts, hlast⟩ := h.formatParts hmid hmore
      exact ⟨List.forall_mem_append.mpr ⟨List.forall_mem_append.mpr ⟨names_literalExpr _, hread⟩, hparts⟩, hlast⟩
    · cases hchoice
      exact ⟨names_literalExpr _, hafter⟩

theorem formatField_succ (h : Spelling P n) {raw : Bool} {nested : Nat} {cs rest : List Char} {parts : List Expr}
    (hcs : Words P cs) (hread : formatField? raw nested (n + 1) cs = some (parts, rest)) :
    (∀ e ∈ parts, e.Names P) ∧ Words P rest := by
  rw [formatField?_succ] at hread
  split at hread
  · cases hread
  obtain ⟨⟨text, after⟩, htext, hblank⟩ := Option.bind_eq_some_iff.mp hread
  obtain ⟨hwords, hafter⟩ := fieldText?_words hcs htext
  split at hblank
  · cases hblank
  obtain ⟨ts, hts, hstart⟩ := Option.bind_eq_some_iff.mp hblank
  obtain ⟨⟨value, others⟩, hvalue, hconverted⟩ := Option.bind_eq_some_iff.mp hstart
  obtain ⟨⟨conversion, mid⟩, hconversion, hspecified⟩ := Option.bind_eq_some_iff.mp hconverted
  obtain ⟨⟨spec, last⟩, hspec, hend⟩ := Option.bind_eq_some_iff.mp hspecified
  have hnames : value.Names P := (h.starExpressions _ _ _ (lex?_hasWords hwords hts) hvalue).1
  have hmid : WordsAfter P mid := fieldConversion?_words (fieldEquals_words hafter) hconversion
  obtain ⟨hspecNames, hlast⟩ : (∀ e ∈ spec, e.Names P) ∧ WordsAfter P last := by
    unfold fieldSpec? at hspec
    split at hspec
    · rename_i format heq
      obtain ⟨⟨more, left⟩, hmore, hsome⟩ := Option.map_eq_some_iff.mp hspec
      cases hsome
      obtain ⟨hparts, hleft⟩ := h.formatParts (hmid _ _ heq (by decide)) hmore
      exact ⟨by simpa using hparts, wordsAfter hleft⟩
    · cases hspec
      exact ⟨by simp, hmid⟩
  exact fieldEnd?_words hnames hspecNames hlast hend

theorem stringPart_succ (h : Spelling P n) : Reads P (fun r => ∀ e ∈ r.2, e.Names P) (Parser.stringPart (n + 1)) := by
  intro ts r ts' hts hread
  obtain ⟨markers, triple, body, rfl⟩ := stringPart_eq_some hread
  obtain ⟨hbody, hrest⟩ := List.forall_mem_cons.mp hts
  refine ⟨?_, hrest⟩
  rw [Parser.stringPart] at hread
  dsimp only at hread
  split at hread
  · obtain ⟨_, -, heq⟩ := Option.map_eq_some_iff.mp hread
    cases heq
    simp
  · split at hread
    · obtain ⟨⟨parts, after⟩, hparts, heq⟩ := Option.bind_eq_some_iff.mp hread
      dsimp only at heq
      split at heq <;> cases heq
      simpa using (h.formatParts hbody hparts).1
    · obtain ⟨_, -, heq⟩ := Option.map_eq_some_iff.mp hread
      cases heq
      simp

theorem strings_succ (h : Spelling P n) : Reads P (Expr.Names P) (Parser.strings (n + 1)) := by
  rw [Parser.strings]
  refine h.stringPart.bind fun first hfirst => (Reads.many n h.stringPart).bind fun rest hrest => ?_
  have hall : ∀ e ∈ (first :: rest).flatMap (·.2), e.Names P := by
    intro e he
    obtain ⟨r, hr, he⟩ := List.mem_flatMap.mp he
    exact List.forall_mem_cons.mpr ⟨hfirst, hrest⟩ r hr e he
  refine .ite (.pure (by simp)) (.ite .failure (.ite (.pure ?_) (.pure (by simp))))
  rw [Expr.names_joined]
  exact fun e he => hall e (List.mem_filter.mp he).1

theorem expression_succ (h : Spelling P n) : Reads P (Expr.Names P) (Parser.expression (n + 1)) := by
  intro ts e ts' hts hread
  rcases expression_eq_some hread with ⟨mid, mid', value, rfl, hparameters, hvalue, rfl⟩ | hchain |
    ⟨body, test, orElse, mid, mid', hbody, htest, horElse, rfl⟩
  · obtain ⟨-, hmid⟩ := h.parameters false _ _ _ (List.forall_mem_cons.mp hts).2 hparameters
    exact ⟨by simp, (h.expression _ _ _ (List.forall_mem_cons.mp hmid).2 hvalue).2⟩
  · exact h.disjunction _ _ _ hts hchain
  · obtain ⟨hbody, hmid⟩ := h.disjunction _ _ _ hts hbody
    obtain ⟨htest, hmid'⟩ := h.disjunction _ _ _ (List.forall_mem_cons.mp hmid).2 htest
    obtain ⟨horElse, hrest⟩ := h.expression _ _ _ (List.forall_mem_cons.mp hmid').2 horElse
    exact ⟨by simp [hbody, htest, horElse], hrest⟩

/-- A chain of one operator, or its only operand. -/
theorem chain {first : Expr} {rest : List Expr} (hfirst : first.Names P) (hrest : ∀ e ∈ rest, e.Names P) (b : Bool) :
    (if rest.isEmpty = true then first else .boolean b (first :: rest)).Names P := by
  split
  · exact hfirst
  · exact Expr.names_boolean.mpr (List.forall_mem_cons.mpr ⟨hfirst, hrest⟩)

theorem disjunction_succ (h : Spelling P n) : Reads P (Expr.Names P) (Parser.disjunction (n + 1)) := by
  rw [Parser.disjunction]
  exact h.conjunction.bind fun _ hfirst => (Reads.many n ((Reads.word _).bind fun _ _ => h.conjunction)).bind
    fun _ hrest => .pure (chain hfirst hrest true)

theorem conjunction_succ (h : Spelling P n) : Reads P (Expr.Names P) (Parser.conjunction (n + 1)) := by
  rw [Parser.conjunction]
  exact h.inversion.bind fun _ hfirst => (Reads.many n ((Reads.word _).bind fun _ _ => h.inversion)).bind
    fun _ hrest => .pure (chain hfirst hrest false)

theorem inversion_succ (h : Spelling P n) : Reads P (Expr.Names P) (Parser.inversion (n + 1)) := by
  rw [Parser.inversion]
  refine (Reads.acceptWord _).bind fun _ _ => .ite (h.inversion.bind fun _ he => .pure (by simpa using he)) ?_
  have hoperand := h.binary binaryLevels
  have hcompared : Reads P (fun a => a.2.Names P) (do let o ← compareOp; return (o, ← Parser.binary n binaryLevels)) :=
    Reads.compareOp.bind fun _ _ => hoperand.bind fun _ he => .pure he
  refine hoperand.bind fun first hfirst => (Reads.many n hcompared).bind fun rest hrest => .pure ?_
  split
  · exact hfirst
  · exact Expr.names_compare.mpr ⟨hfirst, hrest⟩

theorem binary_succ (h : Spelling P n) (levels : List (List (String × BinaryOp))) :
    Reads P (Expr.Names P) (Parser.binary (n + 1) levels) := by
  cases levels with
  | nil =>
    rw [Parser.binary]
    exact h.factor
  | cons ops levels =>
    rw [Parser.binary]
    have hoperand := h.binary levels
    have happlied : Reads P (fun a => a.2.Names P) (do let o ← operatorOf ops; return (o, ← Parser.binary n levels)) :=
      (Reads.operatorOf ops).bind fun _ _ => hoperand.bind fun _ he => .pure he
    refine hoperand.bind fun first hfirst => (Reads.many n happlied).bind fun rest hrest => .pure ?_
    induction rest generalizing first with
    | nil => exact hfirst
    | cons a rest ih =>
      obtain ⟨ha, hothers⟩ := List.forall_mem_cons.mp hrest
      exact ih _ (Expr.names_binary.mpr ⟨hfirst, ha⟩) hothers

theorem factor_succ (h : Spelling P n) : Reads P (Expr.Names P) (Parser.factor (n + 1)) := by
  rw [Parser.factor]
  have hunary (op : UnaryOp) : Reads P (Expr.Names P) (do return .unary op (← Parser.factor n)) :=
    h.factor.bind fun _ he => .pure (Expr.names_unary.mpr he)
  refine (Reads.acceptOp _).bind fun _ _ => .ite (hunary _) ?_
  refine (Reads.acceptOp _).bind fun _ _ => .ite (hunary _) ?_
  refine (Reads.acceptOp _).bind fun _ _ => .ite (hunary _) ?_
  have hpower (base : Expr) (hbase : base.Names P) : Reads P (Expr.Names P) (do
      if ← acceptOp "**" then return .binary .pow base (← Parser.factor n) else return base) :=
    (Reads.acceptOp _).bind fun _ _ =>
      .ite (h.factor.bind fun _ he => .pure (Expr.names_binary.mpr ⟨hbase, he⟩)) (.pure hbase)
  exact (Reads.acceptWord _).bind fun _ _ =>
    .ite ((h.primary.bind fun _ _ => .pure Expr.names_foreign).bind hpower) (h.primary.bind hpower)

theorem primary_succ (h : Spelling P n) : Reads P (Expr.Names P) (Parser.primary (n + 1)) := by
  rw [Parser.primary]
  refine h.atom.bind fun base hbase => (Reads.many n h.trailer).bind fun trailers htrailers => .pure ?_
  induction trailers generalizing base with
  | nil => exact hbase
  | cons t trailers ih =>
    obtain ⟨ht, hothers⟩ := List.forall_mem_cons.mp htrailers
    exact ih _ (ht base hbase) hothers

theorem trailer_succ (h : Spelling P n) :
    Reads P (fun t => ∀ e : Expr, e.Names P → (t e).Names P) (Parser.trailer (n + 1)) := by
  rw [Parser.trailer]
  refine (Reads.acceptOp _).bind fun _ _ => .ite ?_ ((Reads.acceptOp _).bind fun _ _ => .ite ?_ ?_)
  · exact Reads.identifier.bind fun _ hattr => .pure fun _ he => Expr.names_attribute.mpr ⟨he, hattr⟩
  · exact h.subscripts.bind fun _ hindex => (Reads.op _).bind fun _ _ =>
      .pure fun _ he => Expr.names_subscript.mpr ⟨he, hindex⟩
  · exact (Reads.op _).bind fun _ _ => h.arguments.bind fun _ harguments => (Reads.op _).bind fun _ _ =>
      .pure fun _ he => Expr.names_call.mpr ⟨he, harguments⟩

theorem subscripts_succ (h : Spelling P n) : Reads P (Expr.Names P) (Parser.subscripts (n + 1)) := by
  rw [Parser.subscripts]
  have hone : Reads P (Expr.Names P) (do
      if ← acceptOp "*" then return .starred (← Parser.expression n) else Parser.slice n) :=
    (Reads.acceptOp _).bind fun _ _ =>
      .ite (h.expression.bind fun _ he => .pure (Expr.names_starred.mpr he)) h.slice
  refine .several hone fun e he => ?_
  split
  · simpa using he
  · exact he

theorem slice_succ (h : Spelling P n) : Reads P (Expr.Names P) (Parser.slice (n + 1)) := by
  rw [Parser.slice]
  have hbound : Reads P (fun o : Option Expr => ∀ e ∈ o, e.Names P)
      ((some <$> Parser.expression n) <|> pure none) :=
    .orElse (h.expression.map fun e he => by simpa using he) (.pure (by simp))
  have hslicing (lower : Option Expr) (hlower : ∀ e ∈ lower, e.Names P) : Reads P (Expr.Names P) (do
      op ":"
      let upper ← (some <$> Parser.expression n) <|> pure none
      let step ← if ← acceptOp ":" then (some <$> Parser.expression n) <|> pure none else pure none
      return Expr.slice lower upper step) := by
    refine (Reads.op _).bind fun _ _ => hbound.bind fun upper hupper => (Reads.acceptOp _).bind fun _ _ => ?_
    have hreturn (step : Option Expr) (hstep : ∀ e ∈ step, e.Names P) :
        Reads P (Expr.Names P) (pure (Expr.slice lower upper step)) :=
      .pure (Expr.names_slice.mpr ⟨hlower, hupper, hstep⟩)
    have hnone : Reads P (fun o : Option Expr => ∀ e ∈ o, e.Names P) (pure none) := .pure (by simp)
    exact .ite (hbound.bind hreturn) (hnone.bind hreturn)
  refine (Reads.seesOp _).bind fun _ _ => .ite (hslicing none (by simp)) ?_
  exact Reads.seesBinding.bind fun _ _ => h.named.bind fun e he => (Reads.seesOp _).bind fun _ _ =>
    .ite (hslicing _ (by simpa using he)) (.pure he)

theorem named_succ (h : Spelling P n) : Reads P (Expr.Names P) (Parser.named (n + 1)) := by
  rw [Parser.named]
  refine .orElse ?_ ?_
  · exact Reads.identifier.bind fun _ _ => (Reads.op _).bind fun _ _ => h.expression.bind fun _ _ =>
      .pure Expr.names_foreign
  · exact h.expression.bind fun _ he => (Reads.seesOp _).bind fun _ _ => (Reads.check _).bind fun _ _ => .pure he

theorem starNamed_succ (h : Spelling P n) : Reads P (Expr.Names P) (Parser.starNamed (n + 1)) := by
  rw [Parser.starNamed]
  exact (Reads.acceptOp _).bind fun _ _ =>
    .ite ((h.binary _).bind fun _ he => .pure (Expr.names_starred.mpr he)) h.named

theorem starExpression_succ (h : Spelling P n) : Reads P (Expr.Names P) (Parser.starExpression (n + 1)) := by
  rw [Parser.starExpression]
  exact (Reads.acceptOp _).bind fun _ _ =>
    .ite ((h.binary _).bind fun _ he => .pure (Expr.names_starred.mpr he)) h.expression

theorem starExpressions_succ (h : Spelling P n) : Reads P (Expr.Names P) (Parser.starExpressions (n + 1)) := by
  rw [Parser.starExpressions]
  exact .several h.starExpression fun _ he => he

theorem yielded_succ (h : Spelling P n) : Reads P (Expr.Names P) (Parser.yielded (n + 1)) := by
  rw [Parser.yielded]
  refine (Reads.word _).bind fun _ _ => (Reads.acceptWord _).bind fun _ _ => .ite ?_ ?_
  · exact h.expression.bind fun _ _ => .pure Expr.names_foreign
  · exact (Reads.orElse (R := fun _ => True) (h.starExpressions.map fun _ _ => trivial) (.pure trivial)).bind fun _ _ =>
      .pure Expr.names_foreign

theorem assigned_succ (h : Spelling P n) : Reads P (Expr.Names P) (Parser.assigned (n + 1)) := by
  rw [Parser.assigned]
  exact (Reads.seesWord _).bind fun _ _ => .ite h.yielded h.starExpressions

theorem target_succ (h : Spelling P n) : Reads P (Expr.Names P) (Parser.target (n + 1)) := by
  rw [Parser.target]
  refine (Reads.acceptOp _).bind fun _ _ => h.primary.bind fun _ he => (Reads.check _).bind fun _ _ => .pure ?_
  split
  · exact Expr.names_starred.mpr he
  · exact he

theorem targets_succ (h : Spelling P n) : Reads P (Expr.Names P) (Parser.targets (n + 1)) := by
  rw [Parser.targets]
  exact .several h.target fun _ he => he

theorem clauses_succ (h : Spelling P n) : Reads P (fun _ => True) (Parser.clauses (n + 1)) := by
  rw [Parser.clauses]
  have hclause : Reads P (fun _ => True) (do
      let _ ← acceptWord "async"
      word "for"
      let _ ← Parser.targets n
      word "in"
      let _ ← Parser.disjunction n
      let _ ← many n (do word "if"; Parser.disjunction n)) :=
    (Reads.acceptWord _).bind fun _ _ => (Reads.word _).bind fun _ _ => h.targets.bind fun _ _ =>
      (Reads.word _).bind fun _ _ => h.disjunction.bind fun _ _ =>
        (Reads.many n ((Reads.word _).bind fun _ _ => h.disjunction)).bind fun _ _ => .pure trivial
  exact hclause.bind fun _ _ => (Reads.many n hclause).bind fun _ _ => .pure trivial

theorem arguments_succ (h : Spelling P n) :
    Reads P (fun r => (∀ e ∈ r.1, e.Names P) ∧ ∀ a ∈ r.2, NamedArgument P a) (Parser.arguments (n + 1)) := by
  rw [Parser.arguments]
  refine (Reads.seesOp _).bind fun _ _ => .ite (.pure (by simp)) ?_
  refine h.argument.bind fun first hfirst => Reads.seesClause.bind fun _ _ => .ite ?_ ?_
  · split
    · exact .failure
    · exact h.clauses.bind fun _ _ => (Reads.seesOp _).bind fun _ _ => (Reads.check _).bind fun _ _ => .pure (by simp)
    · exact .failure
  · refine (Reads.moreItems n h.argument).bind fun rest hrest => (Reads.acceptOp _).bind fun _ _ =>
      (Reads.check _).bind fun _ _ => .pure ⟨fun e he => ?_, fun a ha => ?_⟩
    · obtain ⟨b, hb, hleft⟩ := List.mem_filterMap.mp he
      have hnames := List.forall_mem_cons.mpr ⟨hfirst, hrest⟩ b hb
      rw [Sum.getLeft?_eq_some_iff.mp hleft] at hnames
      exact hnames
    · obtain ⟨b, hb, hright⟩ := List.mem_filterMap.mp ha
      have hnames := List.forall_mem_cons.mpr ⟨hfirst, hrest⟩ b hb
      rw [Sum.getRight?_eq_some_iff.mp hright] at hnames
      exact hnames

theorem argument_succ (h : Spelling P n) :
    Reads P (Sum.elim (Expr.Names P) (NamedArgument P)) (Parser.argument (n + 1)) := by
  rw [Parser.argument]
  refine (Reads.acceptOp _).bind fun _ _ => .ite (h.expression.bind fun _ he => .pure (Expr.names_starred.mpr he)) ?_
  refine (Reads.acceptOp _).bind fun _ _ => .ite (h.expression.bind fun _ he => .pure ⟨by simp, he⟩) (.orElse ?_ ?_)
  · exact Reads.identifier.bind fun _ hname => (Reads.op _).bind fun _ _ => h.expression.bind fun _ he =>
      .pure ⟨by simpa using hname, he⟩
  · exact h.named.bind fun _ he => (Reads.seesOp _).bind fun _ _ => (Reads.check _).bind fun _ _ => .pure he

theorem parameters_succ (h : Spelling P n) (annotated : Bool) :
    Reads P (fun _ => True) (Parser.parameters (n + 1) annotated) := by
  rw [Parser.parameters]
  have hannotation : Reads P (fun _ => True) (do
      if annotated then
        if ← acceptOp ":" then
          let _ ← Parser.expression n : Parser Unit) :=
    .ite ((Reads.acceptOp _).bind fun _ _ => .ite (h.expression.bind fun _ _ => .pure trivial) (.pure trivial))
      (.pure trivial)
  have hstarAnnotation : Reads P (fun _ => True) (do
      if annotated then
        if ← acceptOp ":" then
          let _ ← Parser.starExpression n : Parser Unit) :=
    .ite ((Reads.acceptOp _).bind fun _ _ => .ite (h.starExpression.bind fun _ _ => .pure trivial) (.pure trivial))
      (.pure trivial)
  have hseparator : Reads P (fun _ => True) (do
      if ← seesOp (if annotated = true then ")" else ":") then pure () else op "," : Parser Unit) :=
    (Reads.seesOp _).bind fun _ _ => .ite (.pure trivial) (.op _)
  have hplain : Reads P (fun _ => True) (do
      let _ ← identifier
      (do
        if annotated then
          if ← acceptOp ":" then
            let _ ← Parser.expression n : Parser Unit)
      if ← acceptOp "=" then (do let _ ← Parser.expression n; pure true) else pure false) :=
    Reads.identifier.bind fun _ _ => hannotation.bind fun _ _ => (Reads.acceptOp _).bind fun _ _ =>
      .ite (h.expression.bind fun _ _ => .pure trivial) (.pure trivial)
  have hmany : Reads P (fun _ => True) (many n _) := (Reads.many n (hplain.bind fun d _ => hseparator.bind fun _ _ =>
    Reads.pure (R := fun _ => True) (a := d) trivial)).any
  extract_lets ending stars
  have hending (c : Unit) : Reads P (fun _ => True) (ending c) := (Reads.seesOp _).bind fun _ _ => .check _
  have hstars (c : Unit) : Reads P (fun _ => True) (stars c) :=
    (Reads.acceptOp _).bind fun _ _ => .ite (Reads.identifier.bind fun _ _ => hannotation.bind fun _ _ =>
      hseparator.bind fun c _ => hending c) (hending ())
  refine hmany.bind fun _ _ => (Reads.acceptOp _).bind fun _ _ => ?_
  extract_lets middle slashed
  have hmiddle (later : List Bool) : Reads P (fun _ => True) (middle later) := by
    refine (Reads.check _).bind fun _ _ => (Reads.acceptOp _).bind fun _ _ => .ite ?_ (hstars ())
    refine (Reads.acceptOp _).bind fun _ _ =>
      .ite (hmany.bind fun _ _ => (Reads.check _).bind fun c _ => hstars c) ?_
    exact Reads.identifier.bind fun _ _ => hstarAnnotation.bind fun _ _ => hseparator.bind fun _ _ =>
      hmany.bind fun _ _ => hstars ()
  have hslashed (c : Unit) : Reads P (fun _ => True) (slashed c) :=
    .ite (hmany.bind fun later _ => hmiddle later)
      ((Reads.pure (R := fun _ => True) trivial).bind fun later _ => hmiddle later)
  exact .ite ((Reads.check _).bind fun _ _ => hseparator.bind fun c _ => hslashed c) (hslashed ())

theorem atom_succ (h : Spelling P n) : Reads P (Expr.Names P) (Parser.atom (n + 1)) := by
  rw [Parser.atom]
  refine Reads.peek.bind fun next _ => ?_
  split
  · exact (Reads.word _).bind fun _ _ => .pure Expr.names_literal
  · exact (Reads.word _).bind fun _ _ => .pure Expr.names_literal
  · exact (Reads.word _).bind fun _ _ => .pure Expr.names_literal
  · exact Reads.identifier.bind fun _ hid => .pure (Expr.names_name.mpr hid)
  · exact h.strings
  · refine (Reads.token _).bind fun _ _ => ?_
    split
    · exact .pure Expr.names_literal
    · exact .failure
  · exact (Reads.op _).bind fun _ _ => .pure Expr.names_literal
  · exact (Reads.op _).bind fun _ _ => h.bracketed
  · refine (Reads.op _).bind fun _ _ => (Reads.acceptOp _).bind fun _ _ => .ite (.pure (by simp)) ?_
    refine h.starNamed.bind fun first hfirst => Reads.seesClause.bind fun _ _ => .ite ?_ ?_
    · exact (Reads.check _).bind fun _ _ => h.clauses.bind fun _ _ => (Reads.op _).bind fun _ _ =>
        .pure Expr.names_foreign
    · exact (Reads.moreItems n h.starNamed).bind fun rest hrest => (Reads.acceptOp _).bind fun _ _ =>
        (Reads.op _).bind fun _ _ => .pure (Expr.names_list.mpr (List.forall_mem_cons.mpr ⟨hfirst, hrest⟩))
  · exact (Reads.op _).bind fun _ _ => h.braced
  · exact .failure

theorem bracketed_succ (h : Spelling P n) : Reads P (Expr.Names P) (Parser.bracketed (n + 1)) := by
  rw [Parser.bracketed]
  have hclose (e : Expr) (he : e.Names P) : Reads P (Expr.Names P) (do op ")"; return e) :=
    (Reads.op _).bind fun _ _ => .pure he
  refine (Reads.acceptOp _).bind fun _ _ => .ite (.pure (by simp)) ((Reads.seesWord _).bind fun _ _ => .ite ?_ ?_)
  · exact h.yielded.bind hclose
  · refine h.starNamed.bind fun first hfirst => Reads.seesClause.bind fun _ _ => .ite ?_ ?_
    · exact (Reads.check _).bind fun _ _ => h.clauses.bind fun _ _ => hclose _ Expr.names_foreign
    · refine (Reads.acceptOp _).bind fun _ _ => .ite ((Reads.check _).bind fun _ _ => .pure hfirst) ?_
      have hitems : Reads P (fun es => ∀ e ∈ es, e.Names P) ((items n (Parser.starNamed n)) <|> pure []) :=
        .orElse (.items n h.starNamed) (.pure (by simp))
      refine (Reads.op _).bind fun _ _ => hitems.bind fun rest hrest => ?_
      extract_lets k
      have hk (c : Bool) : Reads P (Expr.Names P) (k c) :=
        hclose _ (Expr.names_tuple.mpr (List.forall_mem_cons.mpr ⟨hfirst, hrest⟩))
      exact .ite ((Reads.pure (R := fun _ => True) trivial).bind fun c _ => hk c)
        ((Reads.acceptOp _).bind fun c _ => hk c)

theorem braced_succ (h : Spelling P n) : Reads P (Expr.Names P) (Parser.braced (n + 1)) := by
  rw [Parser.braced]
  have hclose (e : Expr) (he : e.Names P) : Reads P (Expr.Names P) (do op "\x7d"; return e) :=
    (Reads.op _).bind fun _ _ => .pure he
  have hentry : Reads P (NamedEntry P) (do
      if ← acceptOp "**" then return ((none : Option Expr), ← Parser.binary n binaryLevels)
      else
        let key ← Parser.expression n
        op ":"
        return (some key, ← Parser.expression n)) :=
    (Reads.acceptOp _).bind fun _ _ => .ite ((h.binary _).bind fun _ he => .pure ⟨by simp, he⟩)
      (h.expression.bind fun _ hkey => (Reads.op _).bind fun _ _ => h.expression.bind fun _ he =>
        .pure ⟨by simpa using hkey, he⟩)
  refine (Reads.acceptOp _).bind fun _ _ => .ite (.pure (by simp)) ((Reads.seesOp _).bind fun _ _ => .ite ?_ ?_)
  · exact (Reads.items n hentry).bind fun _ hes => (Reads.acceptOp _).bind fun _ _ =>
      hclose _ (Expr.names_dict.mpr hes)
  · refine Reads.seesBinding.bind fun _ _ => h.starNamed.bind fun first hfirst => (Reads.acceptOp _).bind fun _ _ =>
      .ite ?_ ?_
    · refine (Reads.check _).bind fun _ _ => h.expression.bind fun value hvalue => Reads.seesClause.bind fun _ _ =>
        .ite ?_ ?_
      · exact h.clauses.bind fun _ _ => hclose _ Expr.names_foreign
      · refine (Reads.moreItems n hentry).bind fun rest hrest => (Reads.acceptOp _).bind fun _ _ => hclose _ ?_
        exact Expr.names_dict.mpr (List.forall_mem_cons.mpr ⟨⟨by simpa using hfirst, hvalue⟩, hrest⟩)
    · refine Reads.seesClause.bind fun _ _ => .ite ?_ ?_
      · exact (Reads.check _).bind fun _ _ => h.clauses.bind fun _ _ => hclose _ Expr.names_foreign
      · exact (Reads.moreItems n h.starNamed).bind fun rest hrest => (Reads.acceptOp _).bind fun _ _ =>
          hclose _ (Expr.names_set.mpr (List.forall_mem_cons.mpr ⟨hfirst, hrest⟩))

theorem succ (h : Spelling P n) : Spelling P (n + 1) where
  formatParts := h.formatParts_succ
  formatField := h.formatField_succ
  strings := h.strings_succ
  stringPart := h.stringPart_succ
  expression := h.expression_succ
  disjunction := h.disjunction_succ
  conjunction := h.conjunction_succ
  inversion := h.inversion_succ
  binary := h.binary_succ
  factor := h.factor_succ
  primary := h.primary_succ
  trailer := h.trailer_succ
  subscripts := h.subscripts_succ
  slice := h.slice_succ
  named := h.named_succ
  starNamed := h.starNamed_succ
  starExpression := h.starExpression_succ
  starExpressions := h.starExpressions_succ
  yielded := h.yielded_succ
  assigned := h.assigned_succ
  target := h.target_succ
  targets := h.targets_succ
  clauses := h.clauses_succ
  arguments := h.arguments_succ
  argument := h.argument_succ
  parameters := h.parameters_succ
  atom := h.atom_succ
  bracketed := h.bracketed_succ
  braced := h.braced_succ

end Spelling

theorem spelling (P : String → Prop) : ∀ n, Spelling P n
  | 0 => .zero
  | n + 1 => (spelling P n).succ

end Parser
end NestedSite.Template
