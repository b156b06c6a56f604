import NestedSite.Proofs.Template.Lexical

/-!
# Dollar names in code
-/

namespace NestedSite.Template

open NestedSite.Text

namespace Lexical

open Dollar

/-! ## Readings -/

/-- The kinds in which `$` is written `_dollar_`. -/
def Kind.isRewritten (k : Kind) : Bool := k == .code || k == .comment

namespace Reading

/-- The characters that were read. -/
def chars (ms : Reading) : List Char := ms.map (·.1)

/-- No quote stands in a comment, no brace after a backslash, and no doubled one in a format specification. -/
def IsRegular (ms : Reading) : Prop :=
  ∀ m ∈ ms, m.2 ≠ .escapedBrace ∧ m.2 ≠ .doubledBrace ∧ (m.2 = .comment → isQuote m.1 = false)

instance (ms : Reading) : Decidable ms.IsRegular := List.decidableBAll ..

@[simp] theorem chars_append (ms ns : Reading) : chars (ms ++ ns) = chars ms ++ chars ns := List.map_append ..
@[simp] theorem chars_cons (m : Char × Kind) (ms : Reading) : chars (m :: ms) = m.1 :: chars ms := rfl
@[simp] theorem chars_nil : chars [] = [] := rfl

@[simp] theorem chars_marked (k : Kind) (cs : List Char) : chars (marked k cs) = cs := by
  simp [chars, marked, Function.comp_def]

@[simp] theorem rewrite_append (p : Kind → Bool) (ms ns : Reading) :
    rewrite p (ms ++ ns) = rewrite p ms ++ rewrite p ns := List.flatMap_append ..

@[simp] theorem rewrite_nil (p : Kind → Bool) : rewrite p [] = [] := rfl

theorem rewrite_cons (p : Kind → Bool) (m : Char × Kind) (ms : Reading) :
    rewrite p (m :: ms) = written (p m.2) m.1 ++ rewrite p ms := List.flatMap_cons ..

@[simp] theorem isRegular_append {ms ns : Reading} : IsRegular (ms ++ ns) ↔ IsRegular ms ∧ IsRegular ns :=
  List.forall_mem_append

theorem isRegular_cons {m : Char × Kind} {ms : Reading} : IsRegular (m :: ms) ↔
    (m.2 ≠ .escapedBrace ∧ m.2 ≠ .doubledBrace ∧ (m.2 = .comment → isQuote m.1 = false)) ∧ IsRegular ms :=
  List.forall_mem_cons

end Reading

open Reading

theorem written_false (c : Char) : written false c = [c] := by simp [written]

theorem written_of_ne {c : Char} (h : c ≠ '$') (b : Bool) : written b c = [c] := by simp [written, h]

theorem rewrite_marked_of_not {p : Kind → Bool} {k : Kind} (h : p k = false) (cs : List Char) :
    rewrite p (marked k cs) = cs := by
  induction cs with
  | nil => rfl
  | cons c cs ih =>
    show rewrite p ((c, k) :: marked k cs) = c :: cs
    rw [rewrite_cons, ih, h, written_false]
    rfl

/-! ## Prefixes of literals -/

/-- `word` is what stands before, back to a character that no word holds. -/
def StandsBefore (word before : List Char) : Prop :=
  ∃ outside, before = word ++ outside ∧ ∀ c ∈ outside.head?, isWord c = false

section Prefixes

variable {word before outside : List Char} {c : Char} {formatted : Bool}

theorem isMarker_of_toLower (h : c.toLower ∈ ['r', 'b', 'f', 'u']) : isMarker c = true := by
  by_cases hc : 65 ≤ c.toNat ∧ c.toNat ≤ 90
  · have capitals : ∀ n < 26, (Char.ofNat (65 + n)).toLower ∈ ['r', 'b', 'f', 'u'] →
        isMarker (Char.ofNat (65 + n)) = true := by decide
    have := capitals (c.toNat - 65) (by omega)
    rw [Nat.add_sub_cancel' hc.1, Char.ofNat_toNat] at this
    exact this h
  · have : c.toLower = c := by
      unfold Char.toLower
      split
      · rename_i h'
        exact absurd ⟨h'.1, h'.2⟩ hc
      · rfl
    rw [this] at h
    revert h
    simp only [List.mem_cons, List.not_mem_nil, or_false]
    rintro (rfl | rfl | rfl | rfl) <;> decide

theorem isWord_of_isMarker (h : isMarker c = true) : isWord c = true := by
  have hc : c ∈ ['r', 'R', 'b', 'B', 'f', 'F', 'u', 'U'] := by simpa [isMarker] using h
  simp only [List.mem_cons, List.not_mem_nil, or_false] at hc
  rcases hc with rfl | rfl | rfl | rfl | rfl | rfl | rfl | rfl <;> rfl

theorem isAlphanumeric_of_isWord (h : isWord c = false) : (isAlphanumeric c || c == '_') = false := by
  simp only [isWord, Bool.or_eq_false_iff] at h
  simp [h]

/-- The letters before a quote that mark a literal are one or two markers. -/
theorem markers_of_isMarkers (h : Token.isMarkers word.reverse = true) :
    0 < word.length ∧ word.length ≤ 2 ∧ ∀ c ∈ word, isMarker c = true := by
  simp only [Token.isMarkers, List.contains_iff_mem, List.mem_cons, List.not_mem_nil, or_false] at h
  have spelled {m : List Char} (h : String.ofList (word.reverse.map Char.toLower) = String.ofList m) :
      word.reverse.map Char.toLower = m := String.ofList_injective h
  have hm : ∃ m : List Char, word.reverse.map Char.toLower = m ∧ 0 < m.length ∧ m.length ≤ 2 ∧
      ∀ c ∈ m, c ∈ ['r', 'b', 'f', 'u'] := by
    rcases h with h | h | h | h | h | h | h | h
    · exact ⟨['b'], spelled h, by decide, by decide, by simp⟩
    · exact ⟨['r'], spelled h, by decide, by decide, by simp⟩
    · exact ⟨['u'], spelled h, by decide, by decide, by simp⟩
    · exact ⟨['f'], spelled h, by decide, by decide, by simp⟩
    · exact ⟨['b', 'r'], spelled h, by decide, by decide, by simp⟩
    · exact ⟨['r', 'b'], spelled h, by decide, by decide, by simp⟩
    · exact ⟨['f', 'r'], spelled h, by decide, by decide, by simp⟩
    · exact ⟨['r', 'f'], spelled h, by decide, by decide, by simp⟩
  obtain ⟨m, rfl, h0, h2, hm⟩ := hm
  simp only [List.length_map, List.length_reverse] at h0 h2
  refine ⟨h0, h2, fun c hc => isMarker_of_toLower (hm _ ?_)⟩
  exact List.mem_map.mpr ⟨c, List.mem_reverse.mpr hc, rfl⟩

theorem takeWhile_isMarker (h : ∀ c ∈ outside.head?, isWord c = false) (n : Nat) :
    (outside.take n).takeWhile isMarker = [] := by
  obtain _ | ⟨c, cs⟩ := outside
  · simp
  · have : isMarker c = false := by
      cases hc : isMarker c with
      | false => rfl
      | true => simp [isWord_of_isMarker hc] at h
    cases n <;> simp [this]

theorem isFormatted_markers (h : ∀ c ∈ outside.head?, isWord c = false) (hl : word.length ≤ 2)
    (hm : ∀ c ∈ word, isMarker c = true) :
    isFormatted (word ++ outside) = word.any fun c => c == 'f' || c == 'F' := by
  have hw : ((word ++ outside).take 2).takeWhile isMarker = word := by
    rw [List.take_append, List.take_of_length_le hl, List.takeWhile_append_of_pos (by simpa using hm),
      takeWhile_isMarker h, List.append_nil]
  unfold isFormatted
  simp only [hw, List.drop_left]
  obtain _ | ⟨c, cs⟩ := outside
  · rfl
  · simp only [isAlphanumeric_of_isWord (h c rfl), Bool.not_false, Bool.true_and]

theorem isFormatted_keyword {k : String} (h : k ∈ Parser.keywords) (outside : List Char) :
    isFormatted (k.toList.reverse ++ outside) = false := by
  revert outside
  simp only [Parser.keywords, List.mem_cons, List.not_mem_nil, or_false] at h
  rcases h with rfl | rfl | rfl | rfl | rfl | rfl | rfl | rfl | rfl | rfl | rfl | rfl | rfl | rfl | rfl | rfl | rfl |
    rfl | rfl | rfl | rfl | rfl | rfl | rfl | rfl | rfl | rfl | rfl | rfl | rfl | rfl | rfl | rfl | rfl | rfl <;>
  exact fun _ => rfl

theorem isFormatted_of_isFormat? (h : isFormat? word = some formatted) (hw : StandsBefore word before) :
    isFormatted before = formatted := by
  obtain ⟨outside, rfl, ho⟩ := hw
  unfold isFormat? at h
  split at h
  case isTrue hm =>
    obtain ⟨-, hl, hm⟩ := markers_of_isMarkers hm
    cases h
    exact isFormatted_markers ho hl hm
  case isFalse =>
    split at h
    case isFalse => cases h
    case isTrue hk =>
      cases h
      rw [Bool.or_eq_true, List.isEmpty_iff, List.any_eq_true] at hk
      obtain rfl | ⟨k, hk, hp⟩ := hk
      · exact isFormatted_markers ho (by simp) (by simp)
      · obtain ⟨more, rfl⟩ := List.isPrefixOf_iff_prefix.mp hp
        rw [List.append_assoc]
        exact isFormatted_keyword hk _

theorem StandsBefore.after (h : StandsBefore word before) (c : Char) :
    StandsBefore (wordAfter word c) (c :: before) := by
  unfold wordAfter
  split
  case isTrue =>
    obtain ⟨outside, rfl, ho⟩ := h
    exact ⟨outside, rfl, ho⟩
  case isFalse hc => exact ⟨c :: before, rfl, by simpa using hc⟩

theorem StandsBefore.nil (h : isWord c = false) (before : List Char) : StandsBefore [] (c :: before) :=
  ⟨c :: before, rfl, by simpa using h⟩

end Prefixes

/-! ## The pass over a fragment -/

/-- From where it stands, in the regions `p.1` with `p.2` characters of `cs` taken, the pass writes `cs` as `ms`
says, up to `rest`, and stands in `p'` then. -/
def Passes (p : List Region × Nat) (before cs : List Char) (ms : Reading) (p' : List Region × Nat)
    (rest : List Char) : Prop :=
  mangleFrom p.1 p.2 before cs =
    ms.rewrite Kind.isRewritten ++ mangleFrom p'.1 p'.2 (ms.chars.reverse ++ before) rest

namespace Passes

variable {st : List Region} {p p' p'' : List Region × Nat} {before cs cs' rest : List Char} {ms ns : Reading}
  {c : Char} {k : Kind}

theorem refl (p : List Region × Nat) (before cs : List Char) : Passes p before cs [] p cs := rfl

theorem trans (h : Passes p before cs ms p' cs')
    (h' : Passes p' (ms.chars.reverse ++ before) cs' ns p'' rest) : Passes p before cs (ms ++ ns) p'' rest := by
  unfold Passes at *
  rw [h, h']
  simp

theorem step (h : move st before c cs = p') (hk : inCode st = k.isRewritten ∨ c ≠ '$') :
    Passes (st, 0) before (c :: cs) [(c, k)] p' cs := by
  subst h
  have hc : written (inCode st) c = written k.isRewritten c := by
    obtain hk | hk := hk
    · rw [hk]
    · rw [written_of_ne hk, written_of_ne hk]
  unfold Passes
  rw [rewrite_cons, rewrite_nil, List.append_nil, ← hc]
  rfl

/-- What belongs to a character that was read is copied. -/
theorem taken (st : List Region) (taken before cs : List Char) :
    Passes (st, taken.length) before (taken ++ cs) (marked .text taken) (st, 0) cs := by
  induction taken generalizing before with
  | nil => exact refl ..
  | cons c taken ih =>
    have first : Passes (st, taken.length + 1) before (c :: (taken ++ cs)) [(c, .text)] (st, taken.length)
        (taken ++ cs) := rfl
    exact first.trans (ih _)

end Passes

/-! ## Steps of the pass -/

section Steps

variable {outer : List Region} {before cs quote : List Char} {c : Char} {formatted : Bool}

theorem move_escape (d : Char) : move (.text quote formatted :: outer) before '\\' (d :: cs) =
    (.text quote formatted :: outer, 1) := by
  simp [move]

theorem move_text (hc : c ≠ '\\') (hq : quote.isPrefixOf (c :: cs) = false) (hb : formatted = true → c ≠ '\x7b') :
    move (.text quote formatted :: outer) before c cs = (.text quote formatted :: outer, 0) := by
  cases formatted <;> simp_all [move]

theorem move_close (hc : c ≠ '\\') : move (.text (c :: quote) formatted :: outer) before c (quote ++ cs) =
    (outer, quote.length) := by
  have : (c :: quote).isPrefixOf (c :: (quote ++ cs)) = true := by
    rw [List.isPrefixOf_iff_prefix]
    exact ⟨cs, rfl⟩
  simp [move, hc, this]

theorem move_open (hq : quote.isPrefixOf ('\x7b' :: cs) = false) (hd : ['\x7b'].isPrefixOf cs = false) :
    move (.text quote true :: outer) before '\x7b' cs = (.code 0 true :: .text quote true :: outer, 0) := by
  simp [move, hq, move.openBrace, hd]

theorem move_doubled (hq : quote.isPrefixOf ('\x7b' :: '\x7b' :: cs) = false) :
    move (.text quote true :: outer) before '\x7b' ('\x7b' :: cs) = (.text quote true :: outer, 1) := by
  simp [move, hq, move.openBrace]

theorem move_spec (hc : c ≠ '\x7d') (hb : c ≠ '\x7b') : move (.spec :: outer) before c cs = (.spec :: outer, 0) := by
  simp [move, hc, hb]

theorem move_spec_close : move (.spec :: outer) before '\x7d' cs = (outer, 0) := by simp [move]

theorem move_spec_open (hd : ['\x7b'].isPrefixOf cs = false) :
    move (.spec :: outer) before '\x7b' cs = (.code 0 true :: .spec :: outer, 0) := by
  simp [move, move.openBrace, hd]

variable {depth : Int} {field : Bool}

theorem move_code (hc : isQuote c = false) (hb : field = true → depth = 0 → c ≠ '\x7d' ∧ c ≠ ':') :
    move (.code depth field :: outer) before c cs = (.code (depth + depthStep c) field :: outer, 0) := by
  cases field <;> by_cases hd : depth = 0 <;> simp_all [move]

theorem move_code_close : move (.code 0 true :: outer) before '\x7d' cs = (outer, 0) := by
  simp [move, isQuote]

theorem move_code_spec : move (.code 0 true :: outer) before ':' cs = (.spec :: outer, 0) := by
  simp [move, isQuote]

theorem isQuote_iff : isQuote c = true ↔ c = '\x27' ∨ c = '\x22' := by simp [isQuote]

theorem passes_quote (hc : isQuote c = true) : Passes (.code depth field :: outer, 0) before (c :: cs)
    (marked .text (quoteOf c cs)) (.text (quoteOf c cs) (isFormatted before) :: .code depth field :: outer, 0)
    (cs.drop ((quoteOf c cs).length - 1)) := by
  have hd : c ≠ '$' := by rintro rfl; exact absurd hc (by decide)
  unfold quoteOf
  split
  case isTrue h =>
    obtain ⟨cs, rfl⟩ := List.isPrefixOf_iff_prefix.mp h
    exact (Passes.step (k := .text) (by simp [move, hc]) (.inr hd)).trans (.taken _ [c, c] ..)
  case isFalse h => exact Passes.step (by simp [move, hc, h]) (.inr hd)

theorem passes_close (hc : isQuote c = true) (rest : List Char) :
    Passes (.text (c :: quote) formatted :: outer, 0) before (c :: quote ++ rest) (marked .text (c :: quote))
      (outer, 0) rest := by
  have hd : c ≠ '\\' := by rintro rfl; exact absurd hc (by decide)
  exact (Passes.step (k := .text) (move_close hd) (.inl rfl)).trans (.taken outer quote ..)

theorem quoteOf_append (h : 2 ≤ cs.length) (more : List Char) : quoteOf c (cs ++ more) = quoteOf c cs := by
  obtain _ | ⟨a, _ | ⟨b, cs⟩⟩ := cs
  · simp at h
  · simp at h
  · rfl

/-- A text that the quote does not end before its own end, where the quote and `tail` follow. -/
inductive Uncut (quote tail : List Char) : List Char → Prop
  | nil : Uncut quote tail []
  | escape {d : Char} {cs : List Char} : Uncut quote tail cs → Uncut quote tail ('\\' :: d :: cs)
  | char {c : Char} {cs : List Char} : c ≠ '\\' → quote.isPrefixOf (c :: cs ++ (quote ++ tail)) = false →
      Uncut quote tail cs → Uncut quote tail (c :: cs)

theorem isPrefixOf_append {xs ys : List Char} (h : xs.length ≤ ys.length) (zs : List Char) :
    xs.isPrefixOf (ys ++ zs) = xs.isPrefixOf ys := by
  rw [Bool.eq_iff_iff, List.isPrefixOf_iff_prefix, List.isPrefixOf_iff_prefix]
  exact ⟨fun hp => List.prefix_of_prefix_length_le hp (List.prefix_append ys zs) h, fun hp => hp.trans (List.prefix_append ys zs)⟩

theorem body?_spec {body rest : List Char} (hq : quote ≠ []) (h : body? quote cs = some (body, rest)) :
    cs = body ++ (quote ++ rest) ∧ ∀ more, Uncut quote (rest ++ more) body := by
  fun_induction body? quote cs generalizing body rest with
  | case1 => cases h
  | case2 => cases h
  | case3 c hc d cs ih =>
    simp only [Option.map_eq_some_iff, Prod.mk.injEq] at h
    obtain ⟨⟨b, r⟩, h, rfl, rfl⟩ := h
    obtain ⟨hcs, hu⟩ := ih h
    obtain rfl : c = '\\' := by simpa using hc
    exact ⟨by simp [hcs], fun more => .escape (hu more)⟩
  | case4 c cs hc hp =>
    cases h
    obtain ⟨tail, ht⟩ := List.isPrefixOf_iff_prefix.mp hp
    refine ⟨?_, fun _ => .nil⟩
    cases quote with
    | nil => exact absurd rfl hq
    | cons q quote =>
      cases ht
      simp
  | case5 c cs hc hp ih =>
    simp only [Option.map_eq_some_iff, Prod.mk.injEq] at h
    obtain ⟨⟨b, r⟩, h, rfl, rfl⟩ := h
    obtain ⟨hcs, hu⟩ := ih h
    refine ⟨by simp [hcs], fun more => .char (by simpa using hc) ?_ (hu more)⟩
    have hl : quote.length ≤ (c :: cs).length := by simp [hcs]; omega
    have := isPrefixOf_append hl more
    rw [Bool.not_eq_true] at hp
    rw [hp, hcs] at this
    simpa using this

theorem Uncut.append {tail suf : List Char} {c : Char} (pre : List Char) (hc : c ≠ '\\') (h : Uncut quote tail (pre ++ c :: suf)) :
    Uncut quote tail suf := by
  generalize hcs : pre ++ c :: suf = cs at h
  induction h generalizing pre with
  | nil => simp at hcs
  | @escape d cs hu ih =>
    obtain _ | ⟨a, _ | ⟨b, pre⟩⟩ := pre
    · simp only [List.nil_append, List.cons.injEq] at hcs
      exact absurd hcs.1 hc
    · simp only [List.cons_append, List.nil_append, List.cons.injEq] at hcs
      exact hcs.2.2 ▸ hu
    · simp only [List.cons_append, List.cons.injEq] at hcs
      exact ih _ hcs.2.2
  | @char a cs ha hp hu ih =>
    obtain _ | ⟨a, pre⟩ := pre
    · simp only [List.nil_append, List.cons.injEq] at hcs
      exact hcs.2 ▸ hu
    · simp only [List.cons_append, List.cons.injEq] at hcs
      exact ih _ hcs.2

/-- The text of a literal without fields. -/
theorem Uncut.passes {tail : List Char} (h : Uncut quote tail cs) (before : List Char) :
    Passes (.text quote false :: outer, 0) before (cs ++ (quote ++ tail)) (marked .text cs)
      (.text quote false :: outer, 0) (quote ++ tail) := by
  induction h generalizing before with
  | nil => exact .refl ..
  | @escape d cs hu ih =>
    exact ((Passes.step (k := .text) (move_escape d) (.inl rfl)).trans (.taken _ [d] ..)).trans (ih _)
  | @char c cs hc hp hu ih =>
    exact (Passes.step (k := .text) (move_text hc hp (by simp)) (.inl rfl)).trans (ih _)

end Steps

/-! ## Readers and the pass -/

variable {fuel : Nat} {field : Option Nat} {word quote cs rest : List Char} {ms : Reading} {formatted escaped : Bool}

/-- What a literal part of a format string has before it was read: after a backslash one more character is taken. -/
def UncutAfter (escaped : Bool) (quote tail cs : List Char) : Prop :=
  if escaped then ∃ d cs', cs = d :: cs' ∧ Uncut quote tail cs' else Uncut quote tail cs

/-- What the readers read in at most `fuel` steps is what the pass goes through. -/
structure Follows (fuel : Nat) : Prop where
  code : ∀ {field word cs ms rest}, code? fuel field word cs = some (ms, rest) → cs = ms.chars ++ rest ∧
    (field = none → rest = []) ∧ (ms.IsRegular → ∀ {depth : Int} {outer before more}, (∀ k : Nat, field = some k → depth = k) →
      StandsBefore word before → (field = none → more = []) →
      Passes (.code depth field.isSome :: outer, 0) before (cs ++ more) ms (.code 0 field.isSome :: outer, 0)
        (rest ++ more))
  comment : ∀ {cs ms rest}, comment? fuel cs = some (ms, rest) → cs = ms.chars ++ rest ∧ rest = [] ∧
    (ms.IsRegular → ∀ {depth : Int} {outer before},
      Passes (.code depth false :: outer, 0) before cs ms (.code 0 false :: outer, 0) rest)
  literal : ∀ {formatted quote q cs ms rest}, isQuote q = true →
    literal? fuel formatted (q :: quote) cs = some (ms, rest) →
    cs = ms.chars ++ rest ∧ (∃ inner, ms = inner ++ marked .text (q :: quote)) ∧
    (ms.IsRegular → ∀ {outer before more},
      Passes (.text (q :: quote) formatted :: outer, 0) before (cs ++ more) ms (outer, 0) (rest ++ more))
  parts : ∀ {escaped cs ms}, parts? fuel escaped cs = some ms → cs = ms.chars ∧
    (ms.IsRegular → ∀ {quote tail outer before}, UncutAfter escaped quote tail cs →
      Passes (.text quote true :: outer, if escaped then 1 else 0) before (cs ++ (quote ++ tail)) ms
        (.text quote true :: outer, 0) (quote ++ tail))
  field : ∀ {cs ms rest}, field? fuel cs = some (ms, rest) → cs = ms.chars ++ rest ∧
    (∃ pre, cs = pre ++ '\x7d' :: rest) ∧
    (ms.IsRegular → ∀ {outer before more}, StandsBefore [] before →
      Passes (.code 0 true :: outer, 0) before (cs ++ more) ms (outer, 0) (rest ++ more))
  spec : ∀ {cs ms rest}, spec? fuel cs = some (ms, rest) → cs = ms.chars ++ rest ∧
    (∃ pre, cs = pre ++ '\x7d' :: rest) ∧
    (ms.IsRegular → ∀ {outer before more}, Passes (.spec :: outer, 0) before (cs ++ more) ms (outer, 0) (rest ++ more))

theorem after_eq_some {o : Option (Reading × List Char)} {before : Reading}
    (h : o.map (after before) = some (ms, rest)) : ∃ ns, o = some (ns, rest) ∧ ms = before ++ ns := by
  simp only [Option.map_eq_some_iff, after, Prod.mk.injEq] at h
  obtain ⟨⟨ns, r⟩, h, rfl, rfl⟩ := h
  exact ⟨ns, h, rfl⟩

theorem brace_append {pre : List Char} (hcs : cs = pre ++ '\x7d' :: rest) (h : ¬['\x7b'].isPrefixOf cs = true)
    (more : List Char) : ['\x7b'].isPrefixOf (cs ++ more) = false := by
  rw [isPrefixOf_append (by simp [hcs]; omega), Bool.eq_false_iff]
  exact h

theorem Follows.spec_succ (ih : Follows fuel) {cs ms rest} (h : spec? (fuel + 1) cs = some (ms, rest)) :
    cs = ms.chars ++ rest ∧ (∃ pre, cs = pre ++ '\x7d' :: rest) ∧
    (ms.IsRegular → ∀ {outer before more},
      Passes (.spec :: outer, 0) before (cs ++ more) ms (outer, 0) (rest ++ more)) := by
  obtain _ | ⟨c, cs⟩ := cs
  · simp [spec?] at h
  · simp only [spec?, beq_iff_eq] at h
    split at h
    case isTrue hc =>
      cases h
      subst hc
      exact ⟨rfl, ⟨[], rfl⟩, fun _ _ _ _ => .step move_spec_close (.inl rfl)⟩
    case isFalse hc =>
      split at h
      case isTrue hb =>
        subst hb
        simp only [Option.bind_eq_some_iff, Prod.exists] at h
        obtain ⟨inner, r, hf, h⟩ := h
        obtain ⟨ns, hs, rfl⟩ := after_eq_some h
        obtain ⟨hcs, ⟨pre, hpre⟩, pf⟩ := ih.field hf
        obtain ⟨hr, ⟨pre', hpre'⟩, ps⟩ := ih.spec hs
        refine ⟨by simp [hcs, hr], ⟨'\x7b' :: inner.chars ++ pre', by simp [hcs, hpre']⟩,
          fun hms outer before more => ?_⟩
        rw [List.cons_append, isRegular_cons, isRegular_append] at hms
        have hd : ¬['\x7b'].isPrefixOf cs = true := fun hd => hms.1.2.1 (if_pos hd)
        exact (Passes.step (move_spec_open (brace_append hpre hd more)) (.inr (by decide))).trans
          ((pf hms.2.1 (.nil (show isWord '\x7b' = false by decide) _)).trans (ps hms.2.2))
      case isFalse hb =>
        obtain ⟨ns, hs, rfl⟩ := after_eq_some h
        obtain ⟨hr, ⟨pre, hpre⟩, ps⟩ := ih.spec hs
        refine ⟨by simp [← hr], ⟨c :: pre, by simp [hpre]⟩, fun hms outer before more => ?_⟩
        exact (Passes.step (k := .text) (move_spec hc hb) (.inl rfl)).trans (ps (isRegular_append.mp hms).2)

/-- Characters that change nothing in the code of a field. -/
def isIdle (c : Char) : Bool := !isQuote c && c != '\x7d' && c != ':' && c != '$' && depthStep c == 0

theorem passes_idle {outer : List Region} (h : ∀ c ∈ cs, isIdle c = true) (before rest : List Char) :
    Passes (.code 0 true :: outer, 0) before (cs ++ rest) (marked .code cs) (.code 0 true :: outer, 0) rest := by
  induction cs generalizing before with
  | nil => exact .refl ..
  | cons c cs ih =>
    rw [List.forall_mem_cons] at h
    obtain ⟨hc, hcs⟩ := h
    simp only [isIdle, Bool.and_eq_true, Bool.not_eq_true', bne_iff_ne, beq_iff_eq, ne_eq] at hc
    obtain ⟨⟨⟨⟨hq, hb⟩, hs⟩, hd⟩, h0⟩ := hc
    have hm : move (.code 0 true :: outer) before c (cs ++ rest) = (.code (0 + depthStep c) true :: outer, 0) :=
      move_code hq fun _ _ => ⟨hb, hs⟩
    rw [h0] at hm
    exact (Passes.step (k := .code) hm (.inl rfl)).trans (ih hcs _)

theorem equals_spec (cs : List Char) :
    cs = (equals cs).1 ++ (equals cs).2 ∧ ∀ c ∈ (equals cs).1, isIdle c = true := by
  have skipped {c : Char} (hc : (Parser.isFieldBlank c || endsLine c) = true) : isIdle c = true := by
    simp only [Parser.isFieldBlank, endsLine, Bool.or_eq_true, beq_iff_eq] at hc
    rcases hc with (((rfl | rfl) | rfl) | rfl) | (rfl | rfl) <;> rfl
  unfold equals
  split
  · refine ⟨by simp, fun c hc => ?_⟩
    rcases List.mem_cons.mp hc with rfl | hc
    · rfl
    · exact skipped (List.all_eq_true.mp List.all_takeWhile c hc)
  · exact ⟨rfl, by simp⟩

theorem conversion?_spec {converted : List Char} (h : conversion? cs = some (converted, rest)) :
    cs = converted ++ rest ∧ ∀ c ∈ converted, isIdle c = true := by
  have letter {c : Char} {k : Conversion} (hk : Parser.conversion? c = some k) : isIdle c = true := by
    unfold Parser.conversion? at hk
    split at hk <;> first | rfl | cases hk
  obtain ⟨hcs, hidle⟩ := equals_spec cs
  unfold conversion? at h
  split at h
  case h_1 c r hr =>
    obtain ⟨k, hk, h⟩ := Option.map_eq_some_iff.mp h
    cases h
    refine ⟨by rw [List.append_assoc, List.cons_append, List.cons_append, List.nil_append, ← hr]; exact hcs,
      fun d hd => ?_⟩
    simp only [List.mem_append, List.mem_cons, List.not_mem_nil, or_false] at hd
    rcases hd with hd | rfl | rfl
    · exact hidle d hd
    · rfl
    · exact letter hk
  case h_2 =>
    cases h
    exact ⟨hcs, hidle⟩

theorem Follows.field_succ (ih : Follows fuel) {cs ms rest} (h : field? (fuel + 1) cs = some (ms, rest)) :
    cs = ms.chars ++ rest ∧ (∃ pre, cs = pre ++ '\x7d' :: rest) ∧
    (ms.IsRegular → ∀ {outer before more}, StandsBefore [] before →
      Passes (.code 0 true :: outer, 0) before (cs ++ more) ms (outer, 0) (rest ++ more)) := by
  simp only [field?, Option.bind_eq_some_iff, Prod.exists] at h
  obtain ⟨inner, r, hc, converted, r', hv, h⟩ := h
  obtain ⟨hcs, -, pc⟩ := ih.code hc
  obtain ⟨hr, hi⟩ := conversion?_spec hv
  have start (hms : inner.IsRegular) (outer before more) (hb : StandsBefore [] before) :
      Passes (.code 0 true :: outer, 0) before (cs ++ more) (inner ++ marked .code converted)
        (.code 0 true :: outer, 0) (r' ++ more) := by
    refine (pc hms (by simp) hb (by simp)).trans ?_
    rw [hr, List.append_assoc]
    exact passes_idle hi ..
  split at h
  · cases h
    refine ⟨by simp [hcs, hr], ⟨inner.chars ++ converted, by simp [hcs, hr]⟩, fun hms outer before more hb => ?_⟩
    rw [isRegular_append, isRegular_append] at hms
    exact (start hms.1.1 _ _ _ hb).trans (.step move_code_close (.inr (by decide)))
  · obtain ⟨ns, hs, rfl⟩ := after_eq_some h
    obtain ⟨hr', ⟨pre, hpre⟩, ps⟩ := ih.spec hs
    refine ⟨by simp [hcs, hr, hr'], ⟨inner.chars ++ converted ++ ':' :: pre, by simp [hcs, hr, hpre]⟩,
      fun hms outer before more hb => ?_⟩
    simp only [isRegular_append] at hms
    exact ((start hms.1.1.1 _ _ _ hb).trans (.step move_code_spec (.inr (by decide)))).trans (ps hms.2)
  · cases h

theorem UncutAfter.passes {quote tail : List Char} {c : Char} (h : UncutAfter escaped quote tail (c :: cs))
    (hc : escaped = false → c ≠ '\x7b') (outer : List Region) (before : List Char) :
    Passes (.text quote true :: outer, if escaped then 1 else 0) before (c :: cs ++ (quote ++ tail)) [(c, .text)]
      (.text quote true :: outer, if c == '\\' && !escaped then 1 else 0) (cs ++ (quote ++ tail)) ∧
    UncutAfter (c == '\\' && !escaped) quote tail cs := by
  cases escaped with
  | true =>
    simp only [UncutAfter, if_true, List.cons.injEq] at h
    obtain ⟨d, cs', ⟨rfl, rfl⟩, hu⟩ := h
    rw [Bool.not_true, Bool.and_false]
    exact ⟨Passes.taken (.text quote true :: outer) [c] before (cs ++ (quote ++ tail)), hu⟩
  | false =>
    cases (show Uncut quote tail (c :: cs) from h) with
    | escape hu => exact ⟨.step (move_escape _) (.inl rfl), _, _, rfl, hu⟩
    | char hs hp hu =>
      have : (c == '\\' && !false) = false := by simp [hs]
      rw [this]
      exact ⟨.step (move_text hs hp fun _ => hc rfl) (.inl rfl), hu⟩

theorem Follows.parts_succ (ih : Follows fuel) {escaped cs ms} (h : parts? (fuel + 1) escaped cs = some ms) :
    cs = ms.chars ∧
    (ms.IsRegular → ∀ {quote tail outer before}, UncutAfter escaped quote tail cs →
      Passes (.text quote true :: outer, if escaped then 1 else 0) before (cs ++ (quote ++ tail)) ms
        (.text quote true :: outer, 0) (quote ++ tail)) := by
  obtain _ | ⟨c, cs⟩ := cs
  · simp only [parts?, Option.some.injEq] at h
    subst h
    refine ⟨rfl, fun _ quote tail outer before hu => ?_⟩
    cases escaped with
    | true => simp [UncutAfter] at hu
    | false => exact .refl ..
  · simp only [parts?, beq_iff_eq] at h
    split at h
    case isTrue hb =>
      subst hb
      have unescaped (hk : (if escaped then Kind.escapedBrace else .text) ≠ .escapedBrace) :
          escaped = false := by
        cases escaped with
        | true => exact absurd rfl hk
        | false => rfl
      split at h
      case isTrue hd =>
        obtain ⟨cs, rfl⟩ := List.isPrefixOf_iff_prefix.mp hd
        obtain ⟨ns, hs, rfl⟩ := Option.map_eq_some_iff.mp h
        obtain ⟨hcs, pn⟩ := ih.parts hs
        refine ⟨by simpa using hcs, fun hms quote tail outer before hu => ?_⟩
        simp only [isRegular_append, isRegular_cons] at hms
        obtain rfl := unescaped hms.1.1.1
        cases (show Uncut quote tail ('\x7b' :: '\x7b' :: cs) from hu) with
        | char _ hp hu =>
          exact ((Passes.step (k := .text) (move_doubled hp) (.inl rfl)).trans (.taken _ ['\x7b'] ..)).trans
            (pn hms.2 (hu.append [] (by decide)))
      case isFalse hd =>
        simp only [Option.bind_eq_some_iff, Prod.exists] at h
        obtain ⟨inner, r, hf, h⟩ := h
        obtain ⟨ns, hs, rfl⟩ := Option.map_eq_some_iff.mp h
        obtain ⟨hcs, ⟨pre, hpre⟩, pf⟩ := ih.field hf
        obtain ⟨hr, pn⟩ := ih.parts hs
        refine ⟨by simp [hcs, ← hr], fun hms quote tail outer before hu => ?_⟩
        rw [List.cons_append, isRegular_cons, isRegular_append] at hms
        obtain rfl := unescaped hms.1.1
        have hur : Uncut quote tail r := by
          rw [hpre] at hu
          exact Uncut.append ('\x7b' :: pre) (by decide) hu
        cases (show Uncut quote tail ('\x7b' :: cs) from hu) with
        | char _ hp hu =>
          exact (Passes.step (k := .text) (move_open hp (brace_append hpre hd _)) (.inl rfl)).trans
            ((pf hms.2.1 (.nil (by decide) _)).trans (pn hms.2.2 hur))
    case isFalse hb =>
      split at h
      case isTrue hb' =>
        subst hb'
        split at h
        case isFalse => cases h
        case isTrue hd =>
          obtain ⟨cs, rfl⟩ := List.isPrefixOf_iff_prefix.mp hd
          obtain ⟨ns, hs, rfl⟩ := Option.map_eq_some_iff.mp h
          obtain ⟨hcs, pn⟩ := ih.parts hs
          refine ⟨by simpa using hcs, fun hms quote tail outer before hu => ?_⟩
          obtain ⟨p, hu⟩ := hu.passes (fun _ => hb) outer before
          obtain ⟨p', hu⟩ := hu.passes (fun _ => hb) outer ('\x7d' :: before)
          exact (p.trans p').trans (pn (isRegular_append.mp hms).2 hu)
      case isFalse hb' =>
        obtain ⟨ns, hs, rfl⟩ := Option.map_eq_some_iff.mp h
        obtain ⟨hcs, pn⟩ := ih.parts hs
        refine ⟨by simp [← hcs], fun hms quote tail outer before hu => ?_⟩
        obtain ⟨p, hu'⟩ := hu.passes (fun _ => hb) outer before
        exact p.trans (pn (isRegular_cons.mp hms).2 hu')

theorem Follows.literal_succ (ih : Follows fuel) {formatted quote q cs ms rest} (hq : isQuote q = true)
    (h : literal? (fuel + 1) formatted (q :: quote) cs = some (ms, rest)) :
    cs = ms.chars ++ rest ∧ (∃ inner, ms = inner ++ marked .text (q :: quote)) ∧
    (ms.IsRegular → ∀ {outer before more},
      Passes (.text (q :: quote) formatted :: outer, 0) before (cs ++ more) ms (outer, 0) (rest ++ more)) := by
  simp only [literal?, Option.bind_eq_some_iff, Option.map_eq_some_iff, Prod.exists, Prod.mk.injEq] at h
  obtain ⟨body, r, hb, inner, hi, rfl, rfl⟩ := h
  obtain ⟨hcs, hu⟩ := body?_spec (by simp) hb
  have ⟨hbody, pbody⟩ : body = inner.chars ∧ (inner.IsRegular → ∀ {outer before more},
      Passes (.text (q :: quote) formatted :: outer, 0) before (body ++ (q :: quote ++ (r ++ more))) inner
        (.text (q :: quote) formatted :: outer, 0) (q :: quote ++ (r ++ more))) := by
    cases formatted with
    | true =>
      obtain ⟨hb, p⟩ := ih.parts hi
      exact ⟨hb, fun hms _ _ more => p hms (hu more)⟩
    | false =>
      cases hi
      exact ⟨(chars_marked ..).symm, fun _ _ _ more => (hu more).passes _⟩
  refine ⟨by simp [hcs, ← hbody], ⟨inner, rfl⟩, fun hms outer before more => ?_⟩
  have := (@pbody (isRegular_append.mp hms).1 outer before more).trans
    (passes_close hq (r ++ more))
  simpa [hcs] using this

theorem isWord_endsLine {c : Char} (h : endsLine c = true) : isWord c = false := by
  simp only [endsLine, Bool.or_eq_true, beq_iff_eq] at h
  rcases h with rfl | rfl <;> decide

theorem Follows.comment_succ (ih : Follows fuel) {cs ms rest} (h : comment? (fuel + 1) cs = some (ms, rest)) :
    cs = ms.chars ++ rest ∧ rest = [] ∧ (ms.IsRegular → ∀ {depth : Int} {outer before},
      Passes (.code depth false :: outer, 0) before cs ms (.code 0 false :: outer, 0) rest) := by
  obtain _ | ⟨c, cs⟩ := cs
  · cases h
    exact ⟨rfl, rfl, fun _ _ _ _ => rfl⟩
  · simp only [comment?] at h
    split at h
    case isTrue hc =>
      obtain ⟨ns, hs, rfl⟩ := after_eq_some h
      obtain ⟨hcs, hrest, p⟩ := ih.code hs
      refine ⟨by simp [← hcs], hrest rfl, fun hms depth outer before => ?_⟩
      have hq : isQuote c = false := by
        simp only [endsLine, Bool.or_eq_true, beq_iff_eq] at hc
        rcases hc with rfl | rfl <;> rfl
      have := @p (isRegular_append.mp hms).2 (depth + depthStep c) outer (c :: before) [] (by simp)
        (.nil (isWord_endsLine hc) before) fun _ => rfl
      simp only [List.append_nil] at this
      exact (Passes.step (k := .code) (move_code hq (by simp)) (.inl rfl)).trans this
    case isFalse hc =>
      obtain ⟨ns, hs, rfl⟩ := after_eq_some h
      obtain ⟨hcs, hrest, p⟩ := ih.comment hs
      refine ⟨by simp [← hcs], hrest, fun hms depth outer before => ?_⟩
      simp only [isRegular_append, isRegular_cons] at hms
      exact (Passes.step (k := .comment) (move_code (by simpa using hms.1.1) (by simp)) (.inl rfl)).trans (p hms.2)

theorem code?_nil {k : Nat} : code? fuel (some k) word [] = none := by cases fuel <;> rfl

theorem fieldAfter?_depth {field' : Option Nat} {c : Char} (h : fieldAfter? field c = some field') :
    field'.isSome = field.isSome ∧ ∀ depth : Int, (∀ k : Nat, field = some k → depth = k) →
      ∀ k : Nat, field' = some k → depth + depthStep c = k := by
  cases field with
  | none =>
    cases h
    exact ⟨rfl, fun _ _ _ hk => nomatch hk⟩
  | some n =>
    simp only [fieldAfter?] at h
    split at h
    case isTrue ho =>
      cases h
      refine ⟨rfl, fun depth hd k hk => ?_⟩
      cases hk
      rw [hd n rfl, depthStep, if_pos ho]
      rfl
    case isFalse ho =>
      split at h
      case isTrue hc =>
        split at h
        case isTrue => cases h
        case isFalse hn =>
          cases h
          refine ⟨rfl, fun depth hd k hk => ?_⟩
          cases hk
          rw [beq_iff_eq] at hn
          rw [hd n rfl, depthStep, if_neg ho, if_pos hc]
          omega
      case isFalse hc =>
        cases h
        refine ⟨rfl, fun depth hd k hk => ?_⟩
        cases hk
        rw [hd n rfl, depthStep, if_neg ho, if_neg hc]
        simp

theorem isWord_quote {c : Char} (h : isQuote c = true) : isWord c = false := by
  rcases isQuote_iff.mp h with rfl | rfl <;> decide

theorem quoteOf_cases (c : Char) (cs : List Char) : quoteOf c cs = [c] ∨ quoteOf c cs = [c, c, c] := by
  unfold quoteOf
  split
  · exact .inr rfl
  · exact .inl rfl

theorem quoteOf_append_drop (c : Char) (cs : List Char) :
    c :: cs = quoteOf c cs ++ cs.drop ((quoteOf c cs).length - 1) := by
  unfold quoteOf
  split
  case isTrue h =>
    obtain ⟨cs, rfl⟩ := List.isPrefixOf_iff_prefix.mp h
    rfl
  case isFalse => rfl

/-- A literal in code, from its first quote on. -/
theorem Follows.quoted (ih : Follows fuel) {formatted c cs ms rest} (hq : isQuote c = true)
    (h : literal? fuel formatted (quoteOf c cs) (cs.drop ((quoteOf c cs).length - 1)) = some (ms, rest)) :
    c :: cs = (marked .text (quoteOf c cs) ++ ms).chars ++ rest ∧
    (ms.IsRegular → ∀ {depth field outer before more}, (rest = [] → more = []) → isFormatted before = formatted →
      Passes (.code depth field :: outer, 0) before (c :: cs ++ more) (marked .text (quoteOf c cs) ++ ms)
        (.code depth field :: outer, 0) (rest ++ more)) ∧
    ∀ before, StandsBefore [] ((marked .text (quoteOf c cs) ++ ms).chars.reverse ++ before) := by
  obtain ⟨quote, hquote, xs, hreverse⟩ :
      ∃ quote, quoteOf c cs = c :: quote ∧ ∃ xs, quote.reverse ++ [c] = c :: xs := by
    rcases quoteOf_cases c cs with h | h
    · exact ⟨[], h, [], rfl⟩
    · exact ⟨[c, c], h, [c, c], rfl⟩
  have hsplit := quoteOf_append_drop c cs
  rw [hquote, List.length_cons, Nat.add_sub_cancel] at h hsplit
  obtain ⟨hcs, ⟨inner, hinner⟩, p⟩ := ih.literal hq h
  have hlength : quote.length + 1 + rest.length ≤ cs.length - quote.length := by
    rw [← List.length_drop, hcs, hinner]
    simp
    omega
  refine ⟨by rw [hsplit, hcs, hquote]; simp, fun hms depth field outer before more hmore hf => ?_, fun before => ?_⟩
  · have hquote' : quoteOf c (cs ++ more) = c :: quote := by
      by_cases hm : more = []
      · rw [hm, List.append_nil, hquote]
      · have : rest ≠ [] := fun hr => hm (hmore hr)
        have := List.length_pos_iff.mpr this
        rw [quoteOf_append (by omega) more, hquote]
    have hdrop : (cs ++ more).drop quote.length = cs.drop quote.length ++ more :=
      List.drop_append_of_le_length (by omega)
    have opened : Passes (.code depth field :: outer, 0) before (c :: (cs ++ more)) _ _ _ := passes_quote hq
    rw [hquote', hf, List.length_cons, Nat.add_sub_cancel, hdrop] at opened
    rw [hquote]
    exact opened.trans (p hms)
  · have : (marked .text (quoteOf c cs) ++ ms).chars.reverse ++ before =
        c :: (xs ++ (inner.chars.reverse ++ ((quoteOf c cs).reverse ++ before))) := by
      rw [← List.cons_append, ← hreverse]
      simp [hinner]
    rw [this]
    exact .nil (isWord_quote hq) _

theorem Follows.code_succ (ih : Follows fuel) {field word cs ms rest}
    (h : code? (fuel + 1) field word cs = some (ms, rest)) : cs = ms.chars ++ rest ∧
    (field = none → rest = []) ∧ (ms.IsRegular → ∀ {depth : Int} {outer before more}, (∀ k : Nat, field = some k → depth = k) →
      StandsBefore word before → (field = none → more = []) →
      Passes (.code depth field.isSome :: outer, 0) before (cs ++ more) ms (.code 0 field.isSome :: outer, 0)
        (rest ++ more)) := by
  obtain _ | ⟨c, cs⟩ := cs
  · cases field with
    | some k => rw [code?_nil] at h; cases h
    | none =>
      cases h
      refine ⟨rfl, fun _ => rfl, fun _ depth outer before more _ _ hm => ?_⟩
      rw [hm rfl]
      rfl
  · simp only [code?] at h
    split at h
    case isTrue hq =>
      simp only [Option.bind_eq_some_iff, Prod.exists] at h
      obtain ⟨formatted, hf, inner, r, hl, h⟩ := h
      obtain ⟨ns, hs, rfl⟩ := after_eq_some h
      obtain ⟨hcs, pl, hw⟩ := ih.quoted hq hl
      obtain ⟨hr, hrest, p⟩ := ih.code hs
      refine ⟨by rw [hcs, hr]; simp, hrest, fun hms depth outer before more hd hb hm => ?_⟩
      simp only [isRegular_append] at hms
      have hmore : r = [] → more = [] := by
        rintro rfl
        cases field with
        | none => exact hm rfl
        | some k => rw [code?_nil] at hs; cases hs
      exact (pl hms.1.2 hmore (isFormatted_of_isFormat? hf hb)).trans (p hms.2 hd (hw _) hm)
    case isFalse hq =>
      rw [Bool.not_eq_true] at hq
      split at h
      case isTrue hc =>
        split at h
        case isFalse => cases h
        case isTrue hf =>
          obtain rfl : field = none := by simpa using hf
          obtain ⟨hcs, hrest, p⟩ := ih.comment h
          refine ⟨hcs, fun _ => hrest, fun hms depth outer before more _ _ hm => ?_⟩
          rw [hm rfl, List.append_nil, List.append_nil]
          exact p hms
      case isFalse hc =>
        split at h
        case isTrue hcmp =>
          obtain ⟨ns, hs, rfl⟩ := after_eq_some h
          obtain ⟨hcs, hrest, p⟩ := ih.code hs
          simp only [Bool.and_eq_true, beq_iff_eq, isCompared] at hcmp
          obtain ⟨rfl, hcmp, heq⟩ := hcmp
          obtain ⟨cs, rfl⟩ : ∃ cs', cs = '=' :: cs' := by
            cases cs with
            | nil => cases heq
            | cons d cs => cases heq; exact ⟨cs, rfl⟩
          have hidle : ∀ d ∈ [c, '='], isIdle d = true := by
            have hc : c ∈ ['!', '=', '<', '>'] := by simpa using hcmp
            simp only [List.mem_cons, List.not_mem_nil, or_false, forall_eq_or_imp, forall_eq] at hc ⊢
            rcases hc with rfl | rfl | rfl | rfl <;> exact ⟨rfl, rfl⟩
          refine ⟨by rw [List.drop_one, List.tail_cons] at hcs; simp [hcs], hrest,
            fun hms depth outer before more hd hb hm => ?_⟩
          obtain rfl : depth = 0 := hd 0 rfl
          exact (passes_idle hidle _ _).trans (p (isRegular_append.mp hms).2 hd (.nil (by decide) _) hm)
        case isFalse =>
          split at h
          case isTrue he =>
            cases h
            rw [Bool.and_eq_true, beq_iff_eq] at he
            refine ⟨rfl, fun hf => (nomatch he.1.symm.trans hf), fun _ depth outer before more hd _ _ => ?_⟩
            obtain rfl : depth = 0 := hd 0 he.1
            exact .refl ..
          case isFalse he =>
            obtain ⟨field', hf, h⟩ := Option.bind_eq_some_iff.mp h
            obtain ⟨ns, hs, rfl⟩ := after_eq_some h
            obtain ⟨hcs, hrest, p⟩ := ih.code hs
            obtain ⟨hsome, hdepth⟩ := fieldAfter?_depth hf
            have hnone : field = none → field' = none := by
              rintro rfl
              simpa using hsome
            refine ⟨by simp [← hcs], fun hn => hrest (hnone hn), fun hms depth outer before more hd hb hm => ?_⟩
            have hends : field.isSome = true → depth = 0 → c ≠ '\x7d' ∧ c ≠ ':' := by
              intro hsome hdepth
              obtain ⟨k, rfl⟩ := Option.isSome_iff_exists.mp hsome
              obtain rfl : k = 0 := by have := hd k rfl; omega
              have he : endsField c = false := by simpa using he
              exact ⟨fun h => absurd he (by rw [h]; decide), fun h => absurd he (by rw [h]; decide)⟩
            have hm' : field' = none → more = [] := by
              rintro rfl
              exact hm (by simpa using hsome.symm)
            have := @p (isRegular_append.mp hms).2 _ outer _ more (hdepth depth hd) (hb.after c) hm'
            rw [hsome] at this
            exact (Passes.step (k := .code) (move_code hq hends) (.inl rfl)).trans this

theorem follows : ∀ fuel, Follows fuel
  | 0 => {
      code := fun h => nomatch h
      comment := fun h => nomatch h
      literal := fun _ h => nomatch h
      parts := fun h => nomatch h
      field := fun h => nomatch h
      spec := fun h => nomatch h }
  | fuel + 1 => {
      code := (follows fuel).code_succ
      comment := (follows fuel).comment_succ
      literal := (follows fuel).literal_succ
      parts := (follows fuel).parts_succ
      field := (follows fuel).field_succ
      spec := (follows fuel).spec_succ }

end Lexical

open Lexical

/-- A fragment is written as its reading says: every `$` in code is rewritten, and no `$` in the text of a literal is.
Those in comments are rewritten as well. -/
theorem mangle_reading {fragment : String} {ms : Reading} (h : reading? fragment = some ms) (hms : ms.IsRegular) :
    ideal? fragment = some (.ofList (ms.rewrite (· == .code))) ∧
      mangle fragment = .ofList (ms.rewrite fun k => k == .code || k == .comment) := by
  refine ⟨by rw [ideal?, h]; rfl, ?_⟩
  obtain ⟨⟨ms, rest⟩, hc, rfl⟩ := Option.map_eq_some_iff.mp h
  obtain ⟨-, hrest, p⟩ := (follows _).code hc
  obtain rfl := hrest rfl
  have passes : Passes ([.code 0 false], 0) [] fragment.toList ms ([.code 0 false], 0) [] := by
    simpa using @p hms 0 [] [] [] (by simp) ⟨[], rfl, by simp⟩ fun _ => rfl
  have written : Dollar.mangleFrom [.code 0 false] 0 [] fragment.toList = _ := passes
  rw [mangle, written, Dollar.mangleFrom, List.append_nil]
  rfl

theorem mangle_reading_field : mangle "f'{$a}$' # $" = "f'{_dollar_a}$' # _dollar_" := by
  have reads : reading? "f'{$a}$' # $" = some
      [('f', .code), ('\x27', .text), ('\x7b', .text), ('$', .code), ('a', .code), ('\x7d', .text), ('$', .text),
        ('\x27', .text), (' ', .code), ('#', .comment), (' ', .comment), ('$', .comment)] := by decide +kernel
  exact (mangle_reading reads (by decide)).2

end NestedSite.Template
