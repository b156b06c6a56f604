import Mathlib.Data.List.TakeWhile
import NestedSite.Proofs.Template.Word

/-!
# The words of tokens

The tokens of a text hold words of the text alone (`Token.lex?_isIn`): a name is a word of it, and the words between
the quotes of a string literal are words of it.
-/

namespace NestedSite.Template

open Text

namespace Token

/-- A name is a word of the text, and what stands in a string literal has its words from there. -/
def IsIn (cs : List Char) : Token → Prop
  | name text => IsWordIn text.toList cs ∧ '$' ∉ text.toList
  | string _ _ body => ∀ w, IsWordIn w body → IsWordIn w cs
  | _ => True

theorem IsIn.mono {cs gs : List Char} {t : Token} (h : t.IsIn cs) (hwords : ∀ w, IsWordIn w cs → IsWordIn w gs) :
    t.IsIn gs := by
  cases t
  case name => exact h.imp_left (hwords _)
  case string => exact fun w hw => hwords w (h w hw)
  all_goals trivial

/-! ## Numbers -/

section Numbers

variable {digits cs n rest : List Char}

/-- The digits go on with `cs` up to the end of a number. -/
def EndsNumber (digits cs n rest : List Char) : Prop := digits ++ cs = n ++ rest ∧ endsNumber rest = true

theorem digitRun?_eq_some {p : Char → Bool} {needed : Bool} {ds : List Char}
    (h : digitRun? p needed cs = some (ds, rest)) : cs = ds ++ rest := by
  induction cs generalizing needed ds with
  | nil =>
    unfold digitRun? at h
    split at h
    · cases h
    · cases h
      rfl
  | cons c cs ih =>
    have hmore {b : Bool} (h : (digitRun? p b cs).map (fun r => (c :: r.1, r.2)) = some (ds, rest)) :
        c :: cs = ds ++ rest := by
      obtain ⟨⟨ds, rest⟩, hrun, heq⟩ := Option.map_eq_some_iff.mp h
      cases heq
      rw [List.cons_append, ← ih hrun]
    unfold digitRun? at h
    split at h
    · exact hmore h
    · split at h
      · cases h
      · split at h
        · exact hmore h
        · cases h
          rfl

theorem numberEnd?_eq_some (h : numberEnd? digits cs = some (n, rest)) : EndsNumber digits cs n rest := by
  unfold numberEnd? at h
  split at h
  · cases h
    exact ⟨rfl, ‹_›⟩
  · cases h

theorem EndsNumber.of_append {more : List Char} (h : EndsNumber (digits ++ more) cs n rest) :
    EndsNumber digits (more ++ cs) n rest := ⟨by rw [← List.append_assoc]; exact h.1, h.2⟩

theorem EndsNumber.start (h : EndsNumber digits cs n rest) : EndsNumber [] (digits ++ cs) n rest := h

theorem imaginary?_eq_some (h : imaginary? digits cs = some (n, rest)) : EndsNumber digits cs n rest := by
  unfold imaginary? at h
  split at h
  · exact (numberEnd?_eq_some h).of_append
  · exact (numberEnd?_eq_some h).of_append
  · exact numberEnd?_eq_some h

theorem exponent?_eq_some (h : exponent? digits cs = some (n, rest)) : EndsNumber digits cs n rest := by
  unfold exponent? at h
  split at h
  · split at h
    · split at h
      · split at h
        · obtain ⟨⟨ds, after⟩, hrun, hend⟩ := Option.bind_eq_some_iff.mp h
          rw [digitRun?_eq_some hrun]
          exact (imaginary?_eq_some hend).of_append
        · split at h
          · obtain ⟨⟨ds, after⟩, hrun, hend⟩ := Option.bind_eq_some_iff.mp h
            rw [digitRun?_eq_some hrun]
            exact (imaginary?_eq_some hend).of_append
          · exact numberEnd?_eq_some h
      · exact numberEnd?_eq_some h
    · exact imaginary?_eq_some h
  · exact imaginary?_eq_some h

theorem fraction?_eq_some (h : fraction? digits cs = some (n, rest)) : EndsNumber digits ('.' :: cs) n rest := by
  unfold fraction? at h
  split at h
  · split at h
    · obtain ⟨⟨ds, after⟩, hrun, hend⟩ := Option.bind_eq_some_iff.mp h
      rw [digitRun?_eq_some hrun]
      exact (exponent?_eq_some hend).of_append
    · exact (exponent?_eq_some h).of_append
  · exact (exponent?_eq_some h).of_append

theorem based?_eq_some {p : Char → Bool} (h : based? p digits cs = some (n, rest)) : EndsNumber digits cs n rest := by
  unfold based? at h
  split at h
  rename_i mark after heq
  have hdigits : EndsNumber mark after n rest := by
    split at h
    · rename_i ds last hrun
      rw [digitRun?_eq_some hrun]
      split at h
      · split at h
        · cases h
        · exact (numberEnd?_eq_some h).of_append
      · exact (numberEnd?_eq_some h).of_append
    · cases h
  split at heq
  · cases heq
    exact hdigits.of_append
  · cases heq
    exact hdigits

theorem number?_eq_some (h : number? cs = some (n, rest)) : EndsNumber [] cs n rest := by
  unfold number? at h
  split at h
  case h_7 =>
    obtain ⟨⟨ds, after⟩, hrun, hend⟩ := Option.bind_eq_some_iff.mp h
    rw [digitRun?_eq_some hrun]
    have hplain (h : (if number?.isPlain ds then numberEnd? ds after else none) = some (n, rest)) :
        EndsNumber [] (ds ++ after) n rest := by
      split at h
      · exact (numberEnd?_eq_some h).start
      · cases h
    dsimp only at hend
    split at hend
    · exact (fraction?_eq_some hend).start
    · split at hend
      · exact (exponent?_eq_some hend).start
      · exact hplain hend
    · exact hplain hend
  all_goals exact (based?_eq_some h).start

/-- A number ends where no word goes on. -/
theorem EndsNumber.isCut (h : EndsNumber digits cs n rest) (hrest : rest.head? ≠ some '$') : IsCut n rest := by
  refine .inr ?_
  obtain ⟨-, hend⟩ := h
  cases rest with
  | nil => exact .inl (by simp)
  | cons c rest =>
    simp only [endsNumber, Bool.or_eq_true, Bool.not_eq_true'] at hend
    refine hend.imp (fun hc d hd => ?_) id
    obtain rfl : c = d := by simpa using hd
    have hne : c ≠ '$' := fun heq => hrest (by rw [heq]; rfl)
    simp [isNameChar, hc, hne]

end Numbers
/-! ## Words, strings and operators -/

section Readers

variable {cs rest : List Char} {t : Token}

/-- What is read from the front of a text: the token has its words from there, and no word goes on after it. -/
def Reads (cs : List Char) (t : Token) (rest : List Char) : Prop := t.IsIn cs ∧ ∃ x, cs = x ++ rest ∧ IsCut x rest

theorem stringBody?_eq_some {closer body : List Char} (hcloser : closer ≠ [])
    (h : stringBody? closer cs = some (body, rest)) : cs = body ++ (closer ++ rest) := by
  fun_induction stringBody? closer cs generalizing body with
  | case1 => cases h
  | case2 c cs hbegins =>
    cases h
    obtain ⟨d, closer, rfl⟩ := List.exists_cons_of_ne_nil hcloser
    obtain ⟨more, hmore⟩ := List.isPrefixOf_iff_prefix.mp hbegins
    cases hmore
    simp
  | case3 => cases h
  | case4 c hc d cs hbegins ih =>
    obtain ⟨⟨body, rest⟩, hbody, heq⟩ := Option.map_eq_some_iff.mp h
    cases heq
    rw [ih hbody]
    simp
  | case5 => cases h
  | case6 c cs hbegins hescape hline ih =>
    obtain ⟨⟨body, rest⟩, hbody, heq⟩ := Option.map_eq_some_iff.mp h
    cases heq
    rw [ih hbody]
    simp

theorem string?_reads {markers : List Char} {q : Char} (hq : separates q = true)
    (h : string? markers q cs = some (t, rest)) : Reads (markers ++ q :: cs) t rest := by
  -- the same quotes stand before and after the body
  have hquoted (quote : List Char) {body : List Char} {triple : Bool} (hquote : ∀ c ∈ quote, c = q) (hne : quote ≠ [])
      (htext : q :: cs = quote ++ (body ++ (quote ++ rest))) (ht : t = string markers triple body) :
      Reads (markers ++ q :: cs) t rest := by
    have hlast (before : List Char) : ∀ c ∈ (before ++ quote).getLast?, separates c = true := by
      intro c hc
      rw [List.getLast?_append_of_ne_nil _ hne] at hc
      rw [hquote c (List.mem_of_getLast? hc)]
      exact hq
    subst ht
    rw [htext]
    refine ⟨fun w hw => ?_, markers ++ (quote ++ (body ++ quote)), by simp, .inl ?_⟩
    · rw [← List.append_assoc]
      refine hw.within (.inl (hlast markers)) fun c hc => ?_
      obtain ⟨d, others, rfl⟩ := List.exists_cons_of_ne_nil hne
      cases hc
      rw [hquote c List.mem_cons_self]
      exact hq
    · rw [← List.append_assoc, ← List.append_assoc]
      exact hlast _
  unfold string? at h
  split at h
  · rename_i htriple
    obtain ⟨more, rfl⟩ := List.isPrefixOf_iff_prefix.mp htriple
    obtain ⟨⟨body, after⟩, hbody, heq⟩ := Option.map_eq_some_iff.mp h
    cases heq
    have hmore := stringBody?_eq_some (by simp) hbody
    exact hquoted [q, q, q] (by simp) (by simp) (congrArg ([q, q, q] ++ ·) hmore) rfl
  · obtain ⟨⟨body, after⟩, hbody, heq⟩ := Option.map_eq_some_iff.mp h
    cases heq
    have hmore := stringBody?_eq_some (by simp) hbody
    exact hquoted [q] (by simp) (by simp) (congrArg ([q] ++ ·) hmore) rfl

theorem not_isNameChar_head (h : rest.head? ≠ some '$') (hword : ∀ c ∈ rest.head?, isWordChar c = false) :
    ∀ c ∈ rest.head?, isNameChar c = false := by
  intro c hc
  have hne : c ≠ '$' := fun heq => h (by rw [← heq]; exact hc)
  simp [isNameChar, hword c hc, hne]

theorem plainWord_reads (h : word?.plainWord cs = some (t, rest)) (hrest : rest.head? ≠ some '$') :
    Reads cs t rest := by
  unfold word?.plainWord at h
  dsimp only at h
  split at h
  case isFalse => cases h
  case isTrue hidentifier =>
    cases h
    have hword : ∀ c ∈ cs.takeWhile isWordChar, isWordChar c = true := fun c hc => List.mem_takeWhile_imp hc
    have hafter := not_isNameChar_head hrest fun c hc => by
      have := List.head?_dropWhile_not isWordChar cs
      rw [Option.mem_def.mp hc] at this
      exact this
    refine ⟨⟨?_, ?_⟩, cs.takeWhile isWordChar, List.takeWhile_append_dropWhile.symm, .inr (.inl hafter)⟩
    · rw [String.toList_ofList]
      refine ⟨[], cs.dropWhile isWordChar, List.takeWhile_append_dropWhile.symm, ?_,
        fun c hc => by simp [isNameChar, hword c hc], fun c hc => separates_of_not (hafter c hc), .inl (by simp)⟩
      intro hnil
      rw [hnil] at hidentifier
      cases hidentifier
    · rw [String.toList_ofList]
      exact fun hdollar => absurd (hword '$' hdollar) (by decide)

theorem word?_reads (h : word? cs = some (t, rest)) (hrest : rest.head? ≠ some '$') : Reads cs t rest := by
  unfold word? at h
  extract_lets markers at h
  split at h
  · rename_i q after hafter
    split at h
    · rename_i hstring
      have hq : separates q = true := by
        have hquote : q = '\x27' ∨ q = '\x22' := by simpa using (Bool.and_eq_true _ _ |>.mp hstring).2
        rcases hquote with rfl | rfl <;> decide
      have hcs : cs = markers ++ q :: after := by
        have hbegins : markers <+: cs := (List.takeWhile_prefix _).trans (List.take_prefix 2 cs)
        rw [← hafter, List.prefix_iff_eq_append.mp hbegins]
      rw [hcs]
      exact string?_reads hq h
    · exact plainWord_reads h hrest
  · exact plainWord_reads h hrest

theorem operators_separate : ∀ op ∈ operators3 ++ operators2, ∀ c ∈ op.toList, separates c = true := by
  have hall : (operators3 ++ operators2).all (fun op => op.toList.all separates) = true := by decide
  exact fun op hop => List.all_eq_true.mp (List.all_eq_true.mp hall op hop)

theorem operator?_reads {op : String} (h : operator? cs = some (op, rest)) : ∃ x, cs = x ++ rest ∧ IsCut x rest := by
  unfold operator? at h
  split at h
  · rename_i hfound
    cases h
    have hbegins := List.find?_some hfound
    obtain ⟨more, rfl⟩ := List.isPrefixOf_iff_prefix.mp hbegins
    refine ⟨op.toList, by rw [← String.length_toList, List.drop_left], .inl fun c hc => ?_⟩
    exact operators_separate _ (List.mem_of_find?_eq_some hfound) c (List.mem_of_getLast? hc)
  · split at h
    · split at h
      · rename_i c more _ hc
        cases h
        refine ⟨[c], rfl, .inl ?_⟩
        have hsingle : operators1.all separates = true := by decide
        simpa using List.all_eq_true.mp hsingle c (List.contains_iff_mem.mp hc)
      · cases h
    · cases h

end Readers

/-! ## Texts -/

theorem indentation_append (first : Option Nat) (column narrow : Nat) (cs : List Char) :
    ∃ x, cs = x ++ (indentation first column narrow cs).2.2 ∧ ∀ c ∈ x, separates c = true := by
  fun_induction indentation first column narrow cs with
  | case1 _ _ _ cs ih | case2 _ _ _ cs ih | case3 _ _ _ cs ih =>
    obtain ⟨x, hx, hblank⟩ := ih
    exact ⟨_ :: x, by rw [List.cons_append, ← hx], List.forall_mem_cons.mpr ⟨by decide, hblank⟩⟩
  | case4 => exact ⟨[], rfl, by simp⟩
  | case5 _ _ _ rest hrest ih =>
    obtain ⟨x, hx, hblank⟩ := ih
    exact ⟨'\\' :: '\n' :: x, by rw [List.cons_append, List.cons_append, ← hx],
      List.forall_mem_cons.mpr ⟨by decide, List.forall_mem_cons.mpr ⟨by decide, hblank⟩⟩⟩
  | case6 => exact ⟨[], rfl, by simp⟩

/-- No token begins with a `$`. -/
theorem lexFrom?_dollar (fuel : Nat) {place : Place} (hplace : place.lineStart = false) (cs : List Char) :
    lexFrom? fuel place ('$' :: cs) = none := by
  cases fuel with
  | zero => rfl
  | succ fuel =>
    have hoperator : operator? ('$' :: cs) = none := rfl
    simp [lexFrom?, hplace, isAsciiDigit, isWordChar, isAsciiLetter, hoperator]

theorem head_of_lexFrom? {fuel : Nat} {place : Place} (hplace : place.lineStart = false) {cs : List Char}
    {ts : List Token} (h : lexFrom? fuel place cs = some ts) : cs.head? ≠ some '$' := by
  cases cs with
  | nil => simp
  | cons c cs =>
    intro heq
    obtain rfl : c = '$' := Option.some.inj heq
    rw [lexFrom?_dollar fuel hplace] at h
    cases h

theorem isIn_of_reads {cs rest : List Char} {t : Token} {ts : List Token} (h : Reads cs t rest)
    (hts : ∀ u ∈ ts, u.IsIn rest) : ∀ u ∈ t :: ts, u.IsIn cs := by
  obtain ⟨ht, x, rfl, hcut⟩ := h
  exact List.forall_mem_cons.mpr ⟨ht, fun u hu => (hts u hu).mono fun w hw => hw.after hcut⟩

theorem isCut_of_separates {x : List Char} (h : ∀ c ∈ x, separates c = true) (rest : List Char) : IsCut x rest :=
  .inl fun c hc => h c (List.mem_of_getLast? hc)

theorem isCut_of_all {x : List Char} (h : x.all separates = true) (rest : List Char) : IsCut x rest :=
  isCut_of_separates (List.all_eq_true.mp h) rest

/-- A comment ends where no word goes on. -/
theorem comment_isCut (cs : List Char) : ∃ x, '#' :: cs = x ++ cs.dropWhile (· ≠ '\n') ∧
    IsCut x (cs.dropWhile (· ≠ '\n')) := by
  refine ⟨'#' :: cs.takeWhile (· ≠ '\n'), by rw [List.cons_append, List.takeWhile_append_dropWhile],
    .inr (.inl fun c hc => ?_)⟩
  have hend := List.head?_dropWhile_not (· ≠ '\n') cs
  rw [Option.mem_def.mp hc] at hend
  obtain rfl : c = '\n' := by simpa using hend
  decide

/-- Tokens of the lines alone. -/
theorem isIn_of_indentTokens? {column narrow : Nat} {indents indents' : List (Nat × Nat)} {ts : List Token}
    (h : indentTokens? column narrow indents = some (ts, indents')) (cs : List Char) : ∀ t ∈ ts, t.IsIn cs := by
  have hshallower : ∀ {indents : List (Nat × Nat)} {ts : List Token},
      indentTokens?.shallower column narrow indents = some (ts, indents') → ∀ t ∈ ts, t.IsIn cs := by
    intro indents
    induction indents with
    | nil =>
      intro ts h
      unfold indentTokens?.shallower at h
      split at h <;> cases h
      simp [IsIn]
    | cons i outer ih =>
      intro ts h
      obtain ⟨c, a⟩ := i
      unfold indentTokens?.shallower at h
      split at h
      · split at h <;> cases h
        simp [IsIn]
      · split at h
        · cases h
        · obtain ⟨⟨us, indents⟩, hrest, heq⟩ := Option.map_eq_some_iff.mp h
          cases heq
          exact List.forall_mem_cons.mpr ⟨trivial, ih hrest⟩
  unfold indentTokens? at h
  split at h
  · split at h <;> cases h <;> simp [IsIn]
  · split at h
    · split at h <;> cases h
      simp
    · split at h
      · split at h <;> cases h
        simp [IsIn]
      · exact hshallower h

/-- All tokens of a text have their words from there. -/
theorem lexFrom?_isIn {fuel : Nat} {place : Place} {cs : List Char} {ts : List Token}
    (h : lexFrom? fuel place cs = some ts) : ∀ t ∈ ts, t.IsIn cs := by
  induction fuel generalizing place cs ts with
  | zero => cases h
  | succ fuel ih =>
    have hskip {place : Place} {x rest : List Char} {ts : List Token} (hcut : IsCut x rest)
        (hrest : lexFrom? fuel place rest = some ts) : ∀ t ∈ ts, t.IsIn (x ++ rest) :=
      fun t ht => (ih hrest t ht).mono fun w hw => hw.after hcut
    have hcomment {place : Place} {x rest : List Char} {ts : List Token} (hx : ∀ c ∈ x, separates c = true)
        (hrest : lexFrom? fuel place (rest.dropWhile (· ≠ '\n')) = some ts) : ∀ t ∈ ts, t.IsIn (x ++ '#' :: rest) := by
      obtain ⟨y, hy, hcut⟩ := comment_isCut rest
      rw [hy]
      exact fun t ht => (hskip hcut hrest t ht).mono fun w hw => hw.after (isCut_of_separates hx _)
    have hclose {place : Place} {ts : List Token} (h : (if place.brackets.isEmpty = true then
        some (place.indents.map fun _ => dedent) else none) = some ts) : ∀ t ∈ ts, t.IsIn cs := by
      split at h <;> cases h
      simp [IsIn]
    unfold lexFrom? at h
    split at h
    · -- at the beginning of a line
      obtain ⟨x, hx, hblank⟩ := indentation_append none 0 0 cs
      split at h
      rename_i column narrow rest heq
      rw [heq] at hx
      subst hx
      extract_lets inLine at h
      split at h
      · exact hclose h
      · rename_i rest
        rw [← List.singleton_append, ← List.append_assoc]
        refine hskip (isCut_of_separates ?_ _) h
        exact List.forall_mem_append.mpr ⟨hblank, List.all_eq_true.mp (by decide)⟩
      · exact hcomment hblank h
      · split at h
        · obtain ⟨⟨us, indents⟩, hindents, hrest⟩ := Option.bind_eq_some_iff.mp h
          obtain ⟨vs, hvs, rfl⟩ := Option.map_eq_some_iff.mp hrest
          exact List.forall_mem_append.mpr ⟨isIn_of_indentTokens? hindents _, hskip (isCut_of_separates hblank _) hvs⟩
        · exact hskip (isCut_of_separates hblank _) h
    · -- within a line
      rename_i hline
      have hplace : place.lineStart = false := by simpa using hline
      have hread {place : Place} {cs rest : List Char} {t : Token} {ts : List Token} (ht : Reads cs t rest)
          (hrest : (lexFrom? fuel place rest).map (t :: ·) = some ts) : ∀ u ∈ ts, u.IsIn cs := by
        obtain ⟨us, hus, rfl⟩ := Option.map_eq_some_iff.mp hrest
        exact isIn_of_reads ht (ih hus)
      have hhead {rest : List Char} {t : Token} {ts : List Token}
          (hrest : (lexFrom? fuel place rest).map (t :: ·) = some ts) : rest.head? ≠ some '$' := by
        obtain ⟨us, hus, -⟩ := Option.map_eq_some_iff.mp hrest
        exact head_of_lexFrom? hplace hus
      split at h
      · exact hclose h
      · rename_i rest
        split at h
        · exact hread (t := lineEnd) ⟨trivial, ['\n'], rfl, isCut_of_all (by decide) _⟩ h
        · exact hskip (x := ['\n']) (isCut_of_all (by decide) _) h
      · exact hcomment (x := []) (by simp) h
      · rename_i c rest
        exact hskip (x := ['\\', '\n']) (isCut_of_all (by decide) _) h
      · rename_i c rest _ _ _
        split at h
        · rename_i hblank
          refine hskip (x := [c]) (isCut_of_all ?_ _) h
          simp only [Bool.or_eq_true, beq_iff_eq] at hblank
          rcases hblank with (rfl | rfl) | rfl <;> decide
        · split at h
          · obtain ⟨⟨n, after⟩, hnumber, hrest⟩ := Option.bind_eq_some_iff.mp h
            have hends : EndsNumber [] (c :: rest) n after := by
              split at hnumber
              · rename_i hpoint
                rw [beq_iff_eq.mp hpoint]
                exact fraction?_eq_some hnumber
              · exact number?_eq_some hnumber
            exact hread (t := number _) ⟨trivial, n, hends.1, hends.isCut (hhead hrest)⟩ hrest
          · split at h
            · obtain ⟨⟨t, after⟩, hword, hrest⟩ := Option.bind_eq_some_iff.mp h
              exact hread (word?_reads hword (hhead hrest)) hrest
            · split at h
              · rename_i hquote
                have hq : separates c = true := by
                  simp only [Bool.or_eq_true, beq_iff_eq] at hquote
                  rcases hquote with rfl | rfl <;> decide
                obtain ⟨⟨t, after⟩, hstring, hrest⟩ := Option.bind_eq_some_iff.mp h
                exact hread (string?_reads hq hstring) hrest
              · obtain ⟨⟨op, after⟩, hop, hbrackets⟩ := Option.bind_eq_some_iff.mp h
                obtain ⟨brackets, -, hrest⟩ := Option.bind_eq_some_iff.mp hbrackets
                exact hread (t := operator _) ⟨trivial, operator?_reads hop⟩ hrest

theorem IsIn.of_lineEnd {cs : List Char} {t : Token} (h : t.IsIn (cs ++ ['\n'])) : t.IsIn cs :=
  h.mono fun _ hw => (hw.of_append (by simp; decide)).resolve_right (not_isWordIn (by simp; decide))

/-- The tokens of a text have its words, as they are spelled there. -/
theorem lex?_isIn {wholeLines : Bool} {cs : List Char} {ts : List Token} (h : lex? wholeLines cs = some ts) :
    ∀ t ∈ ts, t.IsIn (unifyLineEnds cs) := by
  unfold lex? at h
  dsimp only at h
  split at h
  · exact fun t ht => (lexFrom?_isIn h t ht).of_lineEnd
  · exact lexFrom?_isIn h

/-- The names that a token is, or that stand in a string literal, satisfy `P`. -/
def HasWords (P : String → Prop) : Token → Prop
  | name text => text ∉ Parser.keywords → P (.ofList (compatible text.toList))
  | string _ _ body => Words P body
  | _ => True

theorem lex?_hasWords {P : String → Prop} {wholeLines : Bool} {cs : List Char} {ts : List Token} (hcs : Words P cs)
    (h : lex? wholeLines cs = some ts) : ∀ t ∈ ts, t.HasWords P := by
  have hwords : Words P (unifyLineEnds cs) := hcs.of_respells (respells_unifyLineEnds cs)
  intro t ht
  have hin := lex?_isIn h t ht
  cases t
  case name text =>
    obtain ⟨hword, hdollar⟩ := hin
    intro hkeyword
    have hname := hwords text.toList hword
    rw [nameOf, spelled_of_not_mem hdollar, String.ofList_toList] at hname
    exact hname hkeyword
  case string => exact fun w hw => hwords w (hin w hw)
  all_goals trivial

end Token
end NestedSite.Template
