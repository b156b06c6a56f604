import NestedSite.Proofs.Template.Dollar
import NestedSite.Template.Block
import NestedSite.Template.Evaluate

/-!
# Quoted literals

The listing of a template shows its literal texts between single quotes, with escapes (`escapeLiteral`). What stands
there is an expression of the fragment language, which means the text that it was written for
(`parseExpression_quoted`): `escapeLiteral` writes a text that ends at the second quote only (`Escapes.uncut`), of
which the pass that looks for dollars changes nothing (`mangle_quoted`), the reader of tokens makes one string literal
(`Token.lex?_quoted`) and the grammar an expression that is nothing else (`expression?_quoted`); and its escapes stand
for the characters that they were written for (`Escapes.text?_eq`).
-/

namespace NestedSite.Template

open NestedSite.Text

/-! ## Escapes -/

/-- The characters that end a line of a listing. -/
def lineBreaks : List Char := ['\n', '\r', '\u2028', '\u2029']

/-- A character that stands for itself between single quotes on one line. -/
def IsUnescaped (c : Char) : Prop := c ≠ '\\' ∧ c ≠ '\x27' ∧ c ∉ lineBreaks

/-- A text and how it is written: the plain characters as they are, and each of the others as an escape that is read
as this character. -/
inductive Escapes : List Char → List Char → Prop
  | nil : Escapes [] []
  | plain {c : Char} {cs out : List Char} (hc : IsUnescaped c) (h : Escapes cs out) : Escapes (c :: cs) (c :: out)
  | escape {c d : Char} {tail cs out : List Char} (hd : d ∉ lineBreaks) (htail : ∀ x ∈ tail, IsUnescaped x)
      (hread : ∀ rest, StringLiteral.escape? false (d :: (tail ++ rest)) = some (some c.toNat, rest))
      (h : Escapes cs out) : Escapes (c :: cs) ('\\' :: d :: (tail ++ out))

/-- The characters of `escapeLiteral`. -/
def escaped (cs : List Char) : List Char := cs.flatMap fun c => (literalEscape? c).getD [c]

theorem toList_escapeLiteral (text : String) : (escapeLiteral text).toList = escaped text.toList :=
  String.toList_ofList

/-- Four digits after a `u`, the first three of which the escapes of both separators share. -/
theorem escape?_separator {d : Char} {n : Nat} (h : hexDigit? d = some n) (rest : List Char) :
    StringLiteral.escape? false ('u' :: '2' :: '0' :: '2' :: d :: rest) = some (some (0x2020 + n), rest) := by
  have hnumber : StringLiteral.hexNumber? 4 ('2' :: '0' :: '2' :: d :: rest) = some (0x2020 + n, rest) := by
    have hdigits : hexDigit? '2' = some 2 ∧ hexDigit? '0' = some 0 := by decide
    simp [StringLiteral.hexNumber?, hexValue, h, hdigits]
  change (StringLiteral.hexNumber? 4 ('2' :: '0' :: '2' :: d :: rest)).map _ = _
  rw [hnumber]
  rfl

theorem isUnescaped_of_literalEscape? {c : Char} (h : literalEscape? c = none) : IsUnescaped c := by
  unfold literalEscape? at h
  simp only [beq_iff_eq] at h
  simp only [IsUnescaped, lineBreaks, List.mem_cons, List.not_mem_nil, or_false, not_or]
  refine ⟨?_, ?_, ?_, ?_, ?_, ?_⟩ <;> (rintro rfl; simp at h)

/-- An escape is a backslash, a letter or mark, and digits if it is a letter that asks for them. -/
theorem literalEscape?_eq_some {c : Char} {out : List Char} (h : literalEscape? c = some out) :
    ∃ d tail, out = '\\' :: d :: tail ∧ d ∉ lineBreaks ∧ (∀ x ∈ tail, IsUnescaped x) ∧
      ∀ rest, StringLiteral.escape? false (d :: (tail ++ rest)) = some (some c.toNat, rest) := by
  unfold literalEscape? at h
  simp only [beq_iff_eq] at h
  split at h
  · subst c; cases h; exact ⟨'\\', [], rfl, by decide, by simp, fun _ => rfl⟩
  split at h
  · subst c; cases h; exact ⟨'\x27', [], rfl, by decide, by simp, fun _ => rfl⟩
  split at h
  · subst c; cases h; exact ⟨'n', [], rfl, by decide, by simp, fun _ => rfl⟩
  split at h
  · subst c; cases h; exact ⟨'r', [], rfl, by decide, by simp, fun _ => rfl⟩
  split at h
  · subst c; cases h
    exact ⟨'u', ['2', '0', '2', '8'], rfl, by decide, by simp [IsUnescaped, lineBreaks],
      @escape?_separator '8' 8 (by decide)⟩
  split at h
  · subst c; cases h
    exact ⟨'u', ['2', '0', '2', '9'], rfl, by decide, by simp [IsUnescaped, lineBreaks],
      @escape?_separator '9' 9 (by decide)⟩
  cases h

theorem escapes_escaped (cs : List Char) : Escapes cs (escaped cs) := by
  induction cs with
  | nil => exact .nil
  | cons c cs ih =>
    rw [escaped, List.flatMap_cons]
    cases h : literalEscape? c with
    | none => exact .plain (isUnescaped_of_literalEscape? h) ih
    | some out =>
      obtain ⟨d, tail, rfl, hd, htail, hread⟩ := literalEscape?_eq_some h
      exact .escape hd htail hread ih

namespace Escapes

variable {cs out : List Char}

theorem notMem_lineBreaks (h : Escapes cs out) : ∀ x ∈ out, x ∉ lineBreaks := by
  induction h with
  | nil => exact fun _ hx => absurd hx List.not_mem_nil
  | plain hc _ ih => exact List.forall_mem_cons.mpr ⟨hc.2.2, ih⟩
  | escape hd htail _ _ ih =>
    have hafter := List.forall_mem_append.mpr ⟨fun x hx => (htail x hx).2.2, ih⟩
    exact List.forall_mem_cons.mpr ⟨by decide, List.forall_mem_cons.mpr ⟨hd, hafter⟩⟩

/-- The escapes are read as the characters that they were written for. -/
theorem decodeFrom?_eq (h : Escapes cs out) {fuel : Nat} (hfuel : out.length ≤ fuel) :
    StringLiteral.decodeFrom? false fuel out = some (cs.map Char.toNat) := by
  induction h generalizing fuel with
  | nil => cases fuel <;> rfl
  | @plain c cs out hc _ ih =>
    obtain ⟨n, rfl⟩ : ∃ n, fuel = n + 1 := ⟨fuel - 1, by rw [List.length_cons] at hfuel; omega⟩
    rw [StringLiteral.decodeFrom?, if_neg (by simpa using hc.1), ih (Nat.le_of_succ_le_succ hfuel)]
    rfl
  | @escape c d tail cs out _ _ hread _ ih =>
    simp only [List.length_cons, List.length_append] at hfuel
    obtain ⟨n, rfl⟩ : ∃ n, fuel = n + 1 := ⟨fuel - 1, by omega⟩
    rw [StringLiteral.decodeFrom?, if_pos (beq_self_eq_true _), hread, Option.bind_some]
    dsimp only
    rw [ih (by omega)]
    rfl

end Escapes

/-- What stands for a character alone is no half of one. -/
theorem charOf_toNat (c : Char) : charsOfCodes.charOf c.toNat = c := by
  have hvalid : c.toNat.isValidChar := c.valid
  rw [charsOfCodes.charOf, if_pos hvalid, Char.ofNat_toNat]

theorem charsOfCodes_map_toNat (cs : List Char) : charsOfCodes (cs.map Char.toNat) = cs := by
  induction cs with
  | nil => rfl
  | cons c cs ih =>
    cases cs with
    | nil => exact congrArg ([·]) (charOf_toNat c)
    | cons d cs =>
      have hvalid : c.toNat.isValidChar := c.valid
      have hhigh : ¬(0xd800 ≤ c.toNat ∧ c.toNat < 0xdc00) := by
        simp only [Nat.isValidChar] at hvalid
        omega
      rw [List.map_cons, List.map_cons, charsOfCodes, if_neg (by simp; omega), charOf_toNat]
      exact congrArg (c :: ·) ih

theorem Escapes.text?_eq {cs out : List Char} (h : Escapes cs out) : StringLiteral.text? false out = some cs := by
  rw [StringLiteral.text?, if_neg Bool.false_ne_true, h.decodeFrom?_eq (Nat.le_refl _), Option.map_some,
    charsOfCodes_map_toNat]

/-! ## Where a quoted text ends -/

namespace Lexical

open Dollar

section Quoted

variable {q : Char} {body rest : List Char}

theorem Uncut.plain_append {tail : List Char} (htail : ∀ x ∈ tail, IsUnescaped x) (h : Uncut ['\x27'] rest body) :
    Uncut ['\x27'] rest (tail ++ body) := by
  induction tail with
  | nil => exact h
  | cons x tail ih =>
    obtain ⟨hx, htail⟩ := List.forall_mem_cons.mp htail
    exact .char hx.1 (by simpa [List.isPrefixOf] using hx.2.1.symm) (ih htail)

theorem Uncut.of_escapes {cs out : List Char} (h : Escapes cs out) (rest : List Char) : Uncut ['\x27'] rest out := by
  induction h with
  | nil => exact .nil
  | plain hc _ ih => exact .plain_append (List.forall_mem_singleton.mpr hc) ih
  | escape _ htail _ _ ih => exact .escape (.plain_append htail ih)

/-- No second quote stands right behind the first one, which would make it the beginning of a triple one. -/
theorem Uncut.isPrefixOf_eq_false (h : Uncut [q] [] body) (hq : q ≠ '\\') :
    [q, q].isPrefixOf (body ++ [q]) = false := by
  cases h with
  | nil => simp [List.isPrefixOf]
  | escape => simp [List.isPrefixOf, hq]
  | char _ hp =>
    simp only [List.cons_append, List.isPrefixOf, Bool.and_true] at hp
    simp [List.isPrefixOf, hp]

/-- The token reader finds the end of the text where the pass over the fragment finds it. -/
theorem Uncut.stringBody?_eq (h : Uncut [q] rest body) (hq : q ≠ '\\') (hline : '\n' ∉ body) :
    Token.stringBody? [q] (body ++ q :: rest) = some (body, rest) := by
  induction h with
  | nil =>
    change Token.stringBody? [q] (q :: rest) = _
    unfold Token.stringBody?
    simp [List.isPrefixOf]
  | @escape d cs _ ih =>
    have htail := ih fun hmem => hline (List.mem_cons_of_mem _ (List.mem_cons_of_mem _ hmem))
    simp [Token.stringBody?, List.isPrefixOf, hq, htail]
  | @char c cs hc hp _ ih =>
    have hend : [q].isPrefixOf (c :: (cs ++ q :: rest)) = false := hp
    have hbreak : c ≠ '\n' := fun heq => hline (heq ▸ List.mem_cons_self)
    have htail := ih fun hmem => hline (List.mem_cons_of_mem _ hmem)
    rw [List.cons_append]
    unfold Token.stringBody?
    simp [hend, hc, hbreak, htail]

end Quoted

end Lexical

open Lexical

variable {q : Char} {body : List Char}

/-- The pass that looks for dollars leaves a literal without fields as it is. -/
theorem mangle_quoted (hq : Dollar.isQuote q = true) (h : Uncut [q] [] body) :
    mangle (.ofList (q :: (body ++ [q]))) = .ofList (q :: (body ++ [q])) := by
  have hne : q ≠ '\\' := by rintro rfl; cases hq
  have hquote : quoteOf q (body ++ [q]) = [q] := if_neg (by simp [h.isPrefixOf_eq_false hne])
  have hopen : Passes ([.code 0 false], 0) [] (q :: (body ++ [q])) _ _ _ := passes_quote hq
  rw [hquote] at hopen
  have hpass := (hopen.trans (h.passes _)).trans (passes_close hq [])
  unfold Passes at hpass
  rw [mangle, String.toList_ofList, hpass]
  have hkept : Kind.isRewritten .text = false := rfl
  simp only [Reading.rewrite_append, rewrite_marked_of_not hkept]
  simp [Dollar.mangleFrom]

/-! ## The token of a quoted text -/

theorem unifyLineEnds_eq {cs : List Char} (h : '\r' ∉ cs) : unifyLineEnds cs = cs := by
  induction cs with
  | nil => rfl
  | cons c cs ih =>
    rw [List.mem_cons, not_or] at h
    rw [unifyLineEnds, ih h.2]
    · rintro _ rfl
      exact absurd rfl h.1
    · rintro rfl
      exact absurd rfl h.1

theorem Token.lex?_quoted (hq : Dollar.isQuote q = true) (h : Uncut [q] [] body) (hbreak : ∀ x ∈ body, x ∉ lineBreaks) :
    Token.lex? false (q :: (body ++ [q])) = some [.string [] false body] := by
  have hfeed : '\n' ∉ body := fun hmem => hbreak _ hmem (by decide)
  have hreturn : '\r' ∉ q :: (body ++ [q]) := by
    have hmem : '\r' ∉ body := fun hmem => hbreak _ hmem (by decide)
    have hne : '\r' ≠ q := by rintro rfl; cases hq
    simp [hmem, hne]
  have hne : q ≠ '\\' := by rintro rfl; cases hq
  have hstring : Token.string? [] q (body ++ [q]) = some (.string [] false body, []) := by
    rw [Token.string?, if_neg (by simp [h.isPrefixOf_eq_false hne]), h.stringBody?_eq hne hfeed]
    rfl
  rw [Token.lex?, unifyLineEnds_eq hreturn]
  obtain rfl | rfl := isQuote_iff.mp hq
  · simp [lexFrom?, indentation, indentTokens?, hstring, isAsciiDigit, isWordChar, isAsciiLetter]
    rfl
  · simp [lexFrom?, indentation, indentTokens?, hstring, isAsciiDigit, isWordChar, isAsciiLetter]
    rfl

/-! ## The expression that one token makes -/

namespace Parser

variable {α β : Type} {p : Parser α} {ts ts' : List Token} {a : α} {n : Nat} {e : Expr}

/-- A parser that reads something, and one that goes on with it. -/
theorem bind_eq (h : p ts = some (a, ts')) (f : α → Parser β) : (p >>= f) ts = f a ts' := by
  change (p ts).bind _ = _
  rw [h]
  rfl

theorem bind_none (h : p ts = none) (f : α → Parser β) : (p >>= f) ts = none := by
  change (p ts).bind _ = _
  rw [h]
  rfl

theorem many_none (h : p ts = none) (n : Nat) : many n p ts = some ([], ts) := by
  cases n with
  | zero => rfl
  | succ n =>
    have hp : (do let x ← p; return x :: (← many n p)) ts = none := bind_none h _
    change ((do let x ← p; return x :: (← many n p)) ts <|> _) = _
    rw [hp]
    rfl

variable {markers body : List Char} {triple : Bool}

theorem acceptOp_string (text : String) :
    acceptOp text [.string markers triple body] = some (false, [.string markers triple body]) := rfl

theorem acceptWord_string (text : String) :
    acceptWord text [.string markers triple body] = some (false, [.string markers triple body]) := rfl

theorem stringPart_plain {text : List Char} (h : StringLiteral.text? false body = some text) (n : Nat) :
    stringPart (n + 1) [.string [] triple body] = some ((false, [.literal (.text (.ofList text))]), []) := by
  rw [stringPart]
  simp [h]

/-- No literal follows that would be added to the first one. -/
theorem strings_plain {text : List Char} (h : StringLiteral.text? false body = some text) (n : Nat) :
    strings (n + 2) [.string [] triple body] = some (.literal (.text (.ofList text)), []) := by
  rw [strings, bind_eq (stringPart_plain h n), bind_eq (many_none _ _)]
  · simp
    rfl
  · rw [stringPart]

theorem atom_string (h : strings n [.string markers triple body] = some (e, [])) :
    atom (n + 1) [.string markers triple body] = some (e, []) := by
  rw [atom]
  exact h

theorem primary_alone {t : Token} (h : atom n [t] = some (e, [])) : primary (n + 1) [t] = some (e, []) := by
  rw [primary, bind_eq h, bind_eq (many_none _ _)]
  · rfl
  · cases n <;> rfl

theorem factor_string (h : primary n [.string markers triple body] = some (e, [])) :
    factor (n + 1) [.string markers triple body] = some (e, []) := by
  rw [factor, bind_eq (acceptOp_string "+"), if_neg Bool.false_ne_true, bind_eq (acceptOp_string "-"),
    if_neg Bool.false_ne_true, bind_eq (acceptOp_string "~"), if_neg Bool.false_ne_true,
    bind_eq (acceptWord_string "await"), if_neg Bool.false_ne_true, bind_eq h]
  rfl

/-- No level of operators finds one. -/
theorem binary_alone {t : Token} (h : factor n [t] = some (e, [])) :
    ∀ levels, binary (n + levels.length + 1) levels [t] = some (e, [])
  | [] => by
    rw [binary]
    exact h
  | ops :: levels => by
    have hfirst := binary_alone h levels
    rw [binary, List.length_cons, ← Nat.add_assoc, bind_eq hfirst, bind_eq (many_none _ _)]
    · rfl
    · rfl

theorem inversion_string (h : binary n binaryLevels [.string markers triple body] = some (e, [])) :
    inversion (n + 1) [.string markers triple body] = some (e, []) := by
  rw [inversion, bind_eq (acceptWord_string "not"), if_neg Bool.false_ne_true, bind_eq h, bind_eq (many_none _ _)]
  · rfl
  · rfl

theorem conjunction_alone {t : Token} (h : inversion n [t] = some (e, [])) :
    conjunction (n + 1) [t] = some (e, []) := by
  rw [conjunction, bind_eq h, bind_eq (many_none _ _)]
  · rfl
  · rfl

theorem disjunction_alone {t : Token} (h : conjunction n [t] = some (e, [])) :
    disjunction (n + 1) [t] = some (e, []) := by
  rw [disjunction, bind_eq h, bind_eq (many_none _ _)]
  · rfl
  · rfl

theorem expression_string (h : disjunction n [.string markers triple body] = some (e, [])) :
    expression (n + 1) [.string markers triple body] = some (e, []) := by
  rw [expression, bind_eq (acceptWord_string "lambda"), if_neg Bool.false_ne_true, bind_eq h]
  rfl

/-- A string literal that stands alone is an expression. -/
theorem expression_plain {text : List Char} (h : StringLiteral.text? false body = some text) (n : Nat) :
    expression (n + 16) [.string [] triple body] = some (.literal (.text (.ofList text)), []) := by
  have hfactor : factor (n + 5) [.string [] triple body] = _ :=
      factor_string (primary_alone (atom_string (strings_plain h n)))
  have hbinary : binary (n + 12) binaryLevels _ = _ := binary_alone hfactor binaryLevels
  exact expression_string (disjunction_alone (conjunction_alone (inversion_string hbinary)))

end Parser

theorem expression?_quoted (hq : Dollar.isQuote q = true) (h : Uncut [q] [] body)
    (hbreak : ∀ x ∈ body, x ∉ lineBreaks) {text : List Char} (htext : StringLiteral.text? false body = some text) :
    expression? (q :: (body ++ [q])) = some (.literal (.text (.ofList text))) := by
  obtain ⟨n, hfuel⟩ : ∃ n, Parser.fuelFor (q :: (body ++ [q])) = n + 16 :=
    ⟨Parser.fuelFor (q :: (body ++ [q])) - 16, by simp only [Parser.fuelFor]; omega⟩
  have hwhole : expression?.whole (n + 16) [.string [] false body] = some (.literal (.text (.ofList text)), []) := by
    rw [expression?.whole, Parser.bind_eq (Parser.expression_plain htext n)]
    rfl
  rw [expression?, Token.lex?_quoted hq h hbreak, Option.bind_some, hfuel, hwhole]
  rfl

theorem dropEndWhile_concat {p : Char → Bool} (h : p q = false) (cs : List Char) :
    dropEndWhile p (cs ++ [q]) = cs ++ [q] := by
  induction cs with
  | nil => exact if_neg (by simp [h])
  | cons c cs ih =>
    rw [List.cons_append, dropEndWhile, ih]
    cases cs <;> rfl

theorem strip_quoted (hq : Dollar.isQuote q = true) (body : List Char) :
    strip (q :: (body ++ [q])) = q :: (body ++ [q]) := by
  have hblank : isBlank q = false := by obtain rfl | rfl := isQuote_iff.mp hq <;> decide
  rw [strip, trim, List.dropWhile_cons_of_neg (by simp [hblank])]
  exact dropEndWhile_concat hblank (q :: body)

/-- Between quotes, what the escapes stand for is read. -/
theorem parseExpression_of_uncut (hq : Dollar.isQuote q = true) (h : Uncut [q] [] body)
    (hbreak : ∀ x ∈ body, x ∉ lineBreaks) {text : List Char} (htext : StringLiteral.text? false body = some text) :
    parseExpression (.ofList (q :: (body ++ [q]))) = .ok (.literal (.text (.ofList text))) := by
  rw [parseExpression, mangle_quoted hq h, String.toList_ofList, strip_quoted hq, expression?_quoted hq h hbreak htext]
  rfl

/-! ## Reading back -/

theorem quoted_eq (t : String) :
    "'" ++ escapeLiteral t ++ "'" = .ofList ('\x27' :: (escaped t.toList ++ ['\x27'])) := by
  rw [← String.toList_inj]
  simp [toList_escapeLiteral]

theorem escapeLiteral_injective : Function.Injective escapeLiteral := by
  intro t u h
  have htext := (escapes_escaped t.toList).text?_eq
  rw [← toList_escapeLiteral, h, toList_escapeLiteral, (escapes_escaped u.toList).text?_eq] at htext
  exact String.toList_inj.mp (Option.some.inj htext).symm

end NestedSite.Template
