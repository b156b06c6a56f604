import Mathlib.Logic.ExistsUnique
import NestedSite.Proofs.Template.Dollar

/-!
# Regions by descent

`mangle` goes through a fragment once, with a stack of the regions that it stands in. The same can be done by readers
that call one another: of code, of string literals, of replacement fields and of format specifications (`Reader`). What
a reader writes that starts at a place, and where it stops, is `Reads`. A reader of a field writes a closing brace that
it has not looked at; there is always one (`Reads.stops`).

Every reader comes to an end, and in one way (`Reader.exists_reads`, `Reads.unique`): what is left gets shorter from
call to call. The pass over a fragment writes what the readers write (`Reads.agrees`), which is the fragment with the
mark for some of its dollars (`Reads.writes`).
-/

namespace NestedSite.Template.Dollar

open Lexical

/-! ## Readers -/

/-- A place in a fragment: the characters before it, the nearest first, and those that follow. -/
structure Place where
  before : List Char
  after : List Char

/-- The readers that call one another. -/
inductive Reader where
  /-- Of code, `depth` brackets deep; of the expression of a replacement field if `field`. -/
  | code (depth : Int) (field : Bool)
  /-- Of a string literal, from its first quote on. -/
  | literal (formatted : Bool)
  /-- Of a string literal after its opening quote. -/
  | body (quote : List Char) (formatted : Bool)
  /-- Of a replacement field, from its opening brace on. -/
  | field
  /-- Of a format specification. -/
  | spec

/-- The quotes that a literal may begin with. -/
def IsOpening (quote : List Char) : Prop := ∃ c, isQuote c = true ∧ (quote = [c] ∨ quote = [c, c, c])

/-- Where a literal is closed, there is no backslash. -/
theorem IsOpening.ne_backslash {quote cs : List Char} {c : Char} (h : IsOpening quote)
    (hq : quote.isPrefixOf (c :: cs) = true) : c ≠ '\\' := by
  obtain ⟨d, hd, hquote⟩ := h
  obtain rfl : d = c := by rcases hquote with rfl | rfl <;> simpa using (Bool.and_eq_true_iff.1 hq).1
  rintro rfl
  cases hd

/-- The reader is called where its region begins. -/
def Reader.CanStart : Reader → List Char → Prop
  | literal _, cs => ∃ c rest, cs = c :: rest ∧ isQuote c = true
  | body quote _, _ => IsOpening quote
  | field, cs => ∃ rest, cs = '\x7b' :: rest
  | code .., _ | spec, _ => True

/-- A reader that starts at a place writes characters and stops at a place. -/
inductive Reads : Reader → Place → List Char → Place → Prop
  | code_end {depth field b} : Reads (.code depth field) ⟨b, []⟩ [] ⟨b, []⟩
  | code_literal {depth field b c cs out p out' q} (hc : isQuote c = true)
      (hl : Reads (.literal (isFormatted b)) ⟨b, c :: cs⟩ out p) (h : Reads (.code depth field) p out' q) :
      Reads (.code depth field) ⟨b, c :: cs⟩ (out ++ out') q
  /-- The brace that closes a field is left to the reader of the field. -/
  | code_close {b cs} : Reads (.code 0 true) ⟨b, '\x7d' :: cs⟩ [] ⟨b, '\x7d' :: cs⟩
  | code_spec {b cs out q} (h : Reads .spec ⟨':' :: b, cs⟩ out q) :
      Reads (.code 0 true) ⟨b, ':' :: cs⟩ (':' :: out) q
  | code_char {depth field b c cs out q} (hc : isQuote c = false)
      (hf : field = true → depth = 0 → c ≠ '\x7d' ∧ c ≠ ':')
      (h : Reads (.code (depth + depthStep c) field) ⟨c :: b, cs⟩ out q) :
      Reads (.code depth field) ⟨b, c :: cs⟩ (written true c ++ out) q
  | literal {formatted b c cs out q} (hc : isQuote c = true)
      (h : Reads (.body (quoteOf c cs) formatted)
        ⟨(quoteOf c cs).reverse ++ b, cs.drop ((quoteOf c cs).length - 1)⟩ out q) :
      Reads (.literal formatted) ⟨b, c :: cs⟩ (quoteOf c cs ++ out) q
  | body_end {quote formatted b} : Reads (.body quote formatted) ⟨b, []⟩ [] ⟨b, []⟩
  | body_escape {quote formatted b d cs out q} (h : Reads (.body quote formatted) ⟨d :: '\\' :: b, cs⟩ out q) :
      Reads (.body quote formatted) ⟨b, '\\' :: d :: cs⟩ ('\\' :: d :: out) q
  | body_close {quote formatted b c cs} (hc : c ≠ '\\') (hq : quote.isPrefixOf (c :: cs) = true) :
      Reads (.body quote formatted) ⟨b, c :: cs⟩ quote ⟨quote.reverse ++ b, (c :: cs).drop quote.length⟩
  | body_field {quote b cs out p out' q} (hq : quote.isPrefixOf ('\x7b' :: cs) = false)
      (hf : Reads .field ⟨b, '\x7b' :: cs⟩ out p) (h : Reads (.body quote true) p out' q) :
      Reads (.body quote true) ⟨b, '\x7b' :: cs⟩ (out ++ out') q
  | body_char {quote formatted b c cs out q} (hc : c = '\\' → cs = []) (hq : quote.isPrefixOf (c :: cs) = false)
      (hf : formatted = true → c ≠ '\x7b') (h : Reads (.body quote formatted) ⟨c :: b, cs⟩ out q) :
      Reads (.body quote formatted) ⟨b, c :: cs⟩ (c :: out) q
  | field_doubled {b cs} :
      Reads .field ⟨b, '\x7b' :: '\x7b' :: cs⟩ ['\x7b', '\x7b'] ⟨'\x7b' :: '\x7b' :: b, cs⟩
  | field_end {b cs out b'} (hd : ['\x7b'].isPrefixOf cs = false)
      (h : Reads (.code 0 true) ⟨'\x7b' :: b, cs⟩ out ⟨b', []⟩) :
      Reads .field ⟨b, '\x7b' :: cs⟩ ('\x7b' :: out) ⟨b', []⟩
  /-- Whatever stands where the code of the field stops, a closing brace is written for it. -/
  | field_close {b cs out b' c rest} (hd : ['\x7b'].isPrefixOf cs = false)
      (h : Reads (.code 0 true) ⟨'\x7b' :: b, cs⟩ out ⟨b', c :: rest⟩) :
      Reads .field ⟨b, '\x7b' :: cs⟩ ('\x7b' :: (out ++ ['\x7d'])) ⟨c :: b', rest⟩
  | spec_end {b} : Reads .spec ⟨b, []⟩ [] ⟨b, []⟩
  | spec_close {b cs} : Reads .spec ⟨b, '\x7d' :: cs⟩ [] ⟨b, '\x7d' :: cs⟩
  | spec_field {b cs out p out' q} (hf : Reads .field ⟨b, '\x7b' :: cs⟩ out p) (h : Reads .spec p out' q) :
      Reads .spec ⟨b, '\x7b' :: cs⟩ (out ++ out') q
  | spec_char {b c cs out q} (hc : c ≠ '\x7d') (hb : c ≠ '\x7b') (h : Reads .spec ⟨c :: b, cs⟩ out q) :
      Reads .spec ⟨b, c :: cs⟩ (c :: out) q

/-! ## Where readers stop -/

/-- The place is the end of the fragment, or a closing brace follows. -/
def Place.Closes (p : Place) : Prop := p.after = [] ∨ ∃ rest, p.after = '\x7d' :: rest

/-- Readers of code outside of fields stop at the end; those in fields stop at a closing brace as well. -/
def Reader.StopsAt : Reader → Place → Prop
  | code _ false, q => q.after = []
  | code _ true, q | spec, q => q.Closes
  | literal _, _ | body .., _ | field, _ => True

theorem Reads.stops {r : Reader} {p q : Place} {out : List Char} (h : Reads r p out q) : r.StopsAt q := by
  induction h with
  | @code_end _ field _ => cases field <;> simp [Reader.StopsAt, Place.Closes]
  | @code_literal _ field _ _ _ _ _ _ _ _ _ _ _ ih => cases field <;> exact ih
  | @code_char _ field _ _ _ _ _ _ _ _ ih => cases field <;> exact ih
  | code_close | spec_close => exact .inr ⟨_, rfl⟩
  | code_spec _ ih | spec_field _ _ _ ih | spec_char _ _ _ ih => exact ih
  | spec_end => exact .inl rfl
  | literal | body_end | body_escape | body_close | body_field | body_char | field_doubled | field_end | field_close =>
    trivial

/-! ## What readers write -/

/-- Some dollars of the first text are written as marks in the second one, and all else stands there as it is. -/
inductive Marks : List Char → List Char → Prop
  | nil : Marks [] []
  | keep (c : Char) {cs out : List Char} (h : Marks cs out) : Marks (c :: cs) (c :: out)
  | mark {cs out : List Char} (h : Marks cs out) : Marks ('$' :: cs) (dollarMark.toList ++ out)

namespace Marks

theorem refl (cs : List Char) : Marks cs cs := by
  induction cs with
  | nil => exact .nil
  | cons c cs ih => exact .keep c ih

theorem append {cs cs' out out' : List Char} (h : Marks cs out) (h' : Marks cs' out') :
    Marks (cs ++ cs') (out ++ out') := by
  induction h with
  | nil => exact h'
  | keep c _ ih => exact .keep c ih
  | mark _ ih =>
    rw [List.append_assoc]
    exact .mark ih

theorem written (b : Bool) (c : Char) : Marks [c] (written b c) := by
  unfold Dollar.written
  split
  · rename_i h
    obtain rfl : c = '$' := by simpa using (Bool.and_eq_true_iff.1 h).2
    exact .mark .nil
  · exact .refl [c]

/-- Without dollars nothing changes. -/
theorem eq_of_notMem {cs out : List Char} (h : Marks cs out) (hd : '$' ∉ cs) : out = cs := by
  induction h with
  | nil => rfl
  | keep c _ ih => rw [ih fun hc => hd (List.mem_cons_of_mem _ hc)]
  | mark => exact absurd List.mem_cons_self hd

end Marks

/-- From one place to another, what stands between is written with the mark for some of its dollars. -/
def Place.Writes (p : Place) (out : List Char) (q : Place) : Prop :=
  ∃ read, p.after = read ++ q.after ∧ q.before = read.reverse ++ p.before ∧ Marks read out

namespace Place.Writes

theorem nothing (p : Place) : p.Writes [] p := ⟨[], rfl, rfl, .nil⟩

theorem these {read out : List Char} (h : Marks read out) (b rest : List Char) :
    Place.Writes ⟨b, read ++ rest⟩ out ⟨read.reverse ++ b, rest⟩ := ⟨read, rfl, rfl, h⟩

theorem trans {p q s : Place} {out out' : List Char} (h : p.Writes out q) (h' : q.Writes out' s) :
    p.Writes (out ++ out') s := by
  obtain ⟨read, hafter, hbefore, hmarks⟩ := h
  obtain ⟨read', hafter', hbefore', hmarks'⟩ := h'
  refine ⟨read ++ read', ?_, ?_, hmarks.append hmarks'⟩
  · rw [hafter, hafter', List.append_assoc]
  · rw [hbefore', hbefore, List.reverse_append, List.append_assoc]

/-- A character that is kept, and what is written behind it. -/
theorem char {b cs out : List Char} {q : Place} (c : Char) (h : Place.Writes ⟨c :: b, cs⟩ out q) :
    Place.Writes ⟨b, c :: cs⟩ (c :: out) q := (these (.refl [c]) b cs).trans h

theorem length_le {p q : Place} {out : List Char} (h : p.Writes out q) : q.after.length ≤ p.after.length := by
  obtain ⟨read, hafter, -, -⟩ := h
  rw [hafter, List.length_append]
  exact Nat.le_add_left ..

end Place.Writes

/-- No reader drops, doubles or makes up anything. -/
theorem Reads.writes {r : Reader} {p q : Place} {out : List Char} (h : Reads r p out q) : p.Writes out q := by
  induction h with
  | code_end | code_close | body_end | spec_end | spec_close => exact .nothing _
  | code_literal _ _ _ ihl ih => exact ihl.trans ih
  | code_spec _ ih => exact ih.char ':'
  | @code_char _ _ b c cs _ _ _ _ _ ih => exact (Place.Writes.these (.written true c) b cs).trans ih
  | @literal _ b c cs _ _ _ _ ih =>
    rw [quoteOf_append_drop c cs]
    exact (Place.Writes.these (.refl _) b _).trans ih
  | body_escape _ ih => exact (ih.char _).char _
  | @body_close quote _ b c cs _ hq =>
    have hsplit := List.prefix_iff_eq_append.1 (List.isPrefixOf_iff_prefix.1 hq)
    have hwrites := Place.Writes.these (.refl quote) b ((c :: cs).drop quote.length)
    rwa [hsplit] at hwrites
  | body_field _ _ _ ihf ih => exact ihf.trans ih
  | body_char _ _ _ _ ih => exact ih.char _
  | @field_doubled b cs => exact .these (.refl ['\x7b', '\x7b']) b cs
  | field_end _ _ ih => exact ih.char _
  | @field_close _ _ _ b' c rest _ h ih =>
    obtain hnil | ⟨_, hcons⟩ := h.stops
    · cases hnil
    · cases hcons
      exact (ih.trans (.these (.refl ['\x7d']) b' rest)).char _
  | spec_field _ _ ihf ih => exact ihf.trans ih
  | spec_char _ _ _ ih => exact ih.char _

/-! ## Every reader comes to an end -/

/-- Below a length of what is left, every reader comes to an end. -/
def EndsBelow (n : Nat) : Prop :=
  ∀ (r : Reader) (p : Place), p.after.length < n → r.CanStart p.after → ∃ out q, Reads r p out q

namespace EndsBelow

variable {n : Nat} (ih : EndsBelow n) {b cs : List Char}

include ih

/-- The reader of a field reads on behind its brace. -/
theorem field (h : cs.length < n) : ∃ out q, Reads .field ⟨b, '\x7b' :: cs⟩ out q ∧ q.after.length ≤ cs.length := by
  by_cases hd : ['\x7b'].isPrefixOf cs = true
  · obtain ⟨rest, rfl⟩ := List.isPrefixOf_iff_prefix.1 hd
    exact ⟨_, _, .field_doubled, by simp⟩
  · rw [Bool.not_eq_true] at hd
    obtain ⟨out, ⟨b', after⟩, hcode⟩ := ih (.code 0 true) ⟨'\x7b' :: b, cs⟩ h trivial
    have hle := hcode.writes.length_le
    cases after with
    | nil => exact ⟨_, _, .field_end hd hcode, hle⟩
    | cons c rest => exact ⟨_, _, .field_close hd hcode, Nat.le_of_succ_le hle⟩

theorem literal {c : Char} (hc : isQuote c = true) (h : cs.length < n) (formatted : Bool) :
    ∃ out q, Reads (.literal formatted) ⟨b, c :: cs⟩ out q ∧ q.after.length ≤ cs.length := by
  have hdrop : (cs.drop ((quoteOf c cs).length - 1)).length ≤ cs.length := by simp
  have hopening : IsOpening (quoteOf c cs) := ⟨c, hc, quoteOf_cases c cs⟩
  obtain ⟨out, q, hbody⟩ := ih (.body (quoteOf c cs) formatted)
    ⟨(quoteOf c cs).reverse ++ b, cs.drop ((quoteOf c cs).length - 1)⟩ (Nat.lt_of_le_of_lt hdrop h) hopening
  exact ⟨_, q, .literal hc hbody, Nat.le_trans hbody.writes.length_le hdrop⟩

theorem code (h : cs.length ≤ n) (depth : Int) (field : Bool) : ∃ out q, Reads (.code depth field) ⟨b, cs⟩ out q := by
  cases cs with
  | nil => exact ⟨_, _, .code_end⟩
  | cons c cs =>
    by_cases hc : isQuote c = true
    · obtain ⟨out, p, hl, hle⟩ := ih.literal (b := b) hc h (isFormatted b)
      obtain ⟨out', q, hrest⟩ := ih (.code depth field) p (Nat.lt_of_le_of_lt hle h) trivial
      exact ⟨_, q, .code_literal hc hl hrest⟩
    · rw [Bool.not_eq_true] at hc
      by_cases hends : field = true ∧ depth = 0 ∧ (c = '\x7d' ∨ c = ':')
      · obtain ⟨rfl, rfl, rfl | rfl⟩ := hends
        · exact ⟨_, _, .code_close⟩
        · obtain ⟨out, q, hspec⟩ := ih .spec ⟨':' :: b, cs⟩ h trivial
          exact ⟨_, q, .code_spec hspec⟩
      · obtain ⟨out, q, hrest⟩ := ih (.code (depth + depthStep c) field) ⟨c :: b, cs⟩ h trivial
        refine ⟨_, q, .code_char hc (fun hfield hdepth => ?_) hrest⟩
        exact not_or.1 fun hor => hends ⟨hfield, hdepth, hor⟩

theorem spec (h : cs.length ≤ n) : ∃ out q, Reads .spec ⟨b, cs⟩ out q := by
  cases cs with
  | nil => exact ⟨_, _, .spec_end⟩
  | cons c cs =>
    by_cases hclose : c = '\x7d'
    · subst hclose
      exact ⟨_, _, .spec_close⟩
    · by_cases hopen : c = '\x7b'
      · subst hopen
        obtain ⟨out, p, hf, hle⟩ := ih.field (b := b) h
        obtain ⟨out', q, hrest⟩ := ih .spec p (Nat.lt_of_le_of_lt hle h) trivial
        exact ⟨_, q, .spec_field hf hrest⟩
      · obtain ⟨out, q, hrest⟩ := ih .spec ⟨c :: b, cs⟩ h trivial
        exact ⟨_, q, .spec_char hclose hopen hrest⟩

theorem body {quote : List Char} (hquote : IsOpening quote) (h : cs.length ≤ n) (formatted : Bool) :
    ∃ out q, Reads (.body quote formatted) ⟨b, cs⟩ out q := by
  cases cs with
  | nil => exact ⟨_, _, .body_end⟩
  | cons c cs =>
    by_cases hescape : c = '\\' ∧ cs ≠ []
    · obtain ⟨rfl, hne⟩ := hescape
      obtain ⟨d, rest, rfl⟩ := List.exists_cons_of_ne_nil hne
      obtain ⟨out, q, hrest⟩ := ih (.body quote formatted) ⟨d :: '\\' :: b, rest⟩ (Nat.lt_of_succ_lt h) hquote
      exact ⟨_, q, .body_escape hrest⟩
    · by_cases hq : quote.isPrefixOf (c :: cs) = true
      · exact ⟨_, _, .body_close (hquote.ne_backslash hq) hq⟩
      · rw [Bool.not_eq_true] at hq
        by_cases hopen : formatted = true ∧ c = '\x7b'
        · obtain ⟨rfl, rfl⟩ := hopen
          obtain ⟨out, p, hf, hle⟩ := ih.field (b := b) h
          obtain ⟨out', q, hrest⟩ := ih (.body quote true) p (Nat.lt_of_le_of_lt hle h) hquote
          exact ⟨_, q, .body_field hq hf hrest⟩
        · obtain ⟨out, q, hrest⟩ := ih (.body quote formatted) ⟨c :: b, cs⟩ h hquote
          refine ⟨_, q, .body_char (fun hc => ?_) hq (fun hf hc => hopen ⟨hf, hc⟩) hrest⟩
          exact Classical.byContradiction fun hne => hescape ⟨hc, hne⟩

end EndsBelow

theorem endsBelow (n : Nat) : EndsBelow n := by
  induction n with
  | zero => exact fun _ _ h => absurd h (Nat.not_lt_zero _)
  | succ n ih =>
    intro r ⟨b, cs⟩ hlt hstart
    have hle : cs.length ≤ n := Nat.le_of_lt_succ hlt
    cases r with
    | code depth field => exact ih.code hle depth field
    | spec => exact ih.spec hle
    | body quote formatted => exact ih.body hstart hle formatted
    | literal formatted =>
      obtain ⟨c, rest, rfl, hc⟩ := hstart
      exact (ih.literal hc hle formatted).imp fun _ h => h.imp fun _ h => h.1
    | field =>
      obtain ⟨rest, rfl⟩ := hstart
      exact (ih.field hle).imp fun _ h => h.imp fun _ h => h.1

/-- A reader that is called where its region begins comes to an end. -/
theorem Reader.exists_reads {r : Reader} {p : Place} (h : r.CanStart p.after) : ∃ out q, Reads r p out q :=
  endsBelow (p.after.length + 1) r p (Nat.lt_succ_self _) h

/-- There is one way for a reader to go on. -/
theorem Reads.unique {r : Reader} {p q q' : Place} {out out' : List Char} (h : Reads r p out q)
    (h' : Reads r p out' q') : out' = out ∧ q' = q := by
  induction h generalizing out' q' with
  | code_end => cases h'; exact ⟨rfl, rfl⟩
  | code_literal hc _ _ ihl ih =>
    cases h' with
    | code_literal _ hl h =>
      obtain ⟨rfl, rfl⟩ := ihl hl
      obtain ⟨rfl, rfl⟩ := ih h
      exact ⟨rfl, rfl⟩
    | code_close | code_spec => cases hc
    | code_char hc' => rw [hc] at hc'; cases hc'
  | code_close =>
    cases h' with
    | code_literal hc => cases hc
    | code_close => exact ⟨rfl, rfl⟩
    | code_char _ hf => exact absurd rfl (hf rfl rfl).1
  | code_spec _ ih =>
    cases h' with
    | code_literal hc => cases hc
    | code_spec h =>
      obtain ⟨rfl, rfl⟩ := ih h
      exact ⟨rfl, rfl⟩
    | code_char _ hf => exact absurd rfl (hf rfl rfl).2
  | code_char hc hf _ ih =>
    cases h' with
    | code_literal hc' => rw [hc] at hc'; cases hc'
    | code_close => exact absurd rfl (hf rfl rfl).1
    | code_spec => exact absurd rfl (hf rfl rfl).2
    | code_char _ _ h =>
      obtain ⟨rfl, rfl⟩ := ih h
      exact ⟨rfl, rfl⟩
  | literal _ _ ih =>
    cases h' with
    | literal _ h =>
      obtain ⟨rfl, rfl⟩ := ih h
      exact ⟨rfl, rfl⟩
  | body_end => cases h'; exact ⟨rfl, rfl⟩
  | body_escape _ ih =>
    cases h' with
    | body_escape h =>
      obtain ⟨rfl, rfl⟩ := ih h
      exact ⟨rfl, rfl⟩
    | body_close hc => exact absurd rfl hc
    | body_char hc => cases hc rfl
  | body_close hc hq =>
    cases h' with
    | body_escape => exact absurd rfl hc
    | body_close => exact ⟨rfl, rfl⟩
    | body_field hq' => rw [hq] at hq'; cases hq'
    | body_char _ hq' => rw [hq] at hq'; cases hq'
  | body_field hq _ _ ihf ih =>
    cases h' with
    | body_close _ hq' => rw [hq] at hq'; cases hq'
    | body_field _ hf h =>
      obtain ⟨rfl, rfl⟩ := ihf hf
      obtain ⟨rfl, rfl⟩ := ih h
      exact ⟨rfl, rfl⟩
    | body_char _ _ hf => exact absurd rfl (hf rfl)
  | body_char hc hq hf _ ih =>
    cases h' with
    | body_escape => cases hc rfl
    | body_close _ hq' => rw [hq] at hq'; cases hq'
    | body_field => exact absurd rfl (hf rfl)
    | body_char _ _ _ h =>
      obtain ⟨rfl, rfl⟩ := ih h
      exact ⟨rfl, rfl⟩
  | field_doubled =>
    cases h' with
    | field_doubled => exact ⟨rfl, rfl⟩
    | field_end hd => cases hd
    | field_close hd => cases hd
  | field_end hd _ ih =>
    cases h' with
    | field_doubled => cases hd
    | field_end _ h =>
      obtain ⟨rfl, hq⟩ := ih h
      cases hq
      exact ⟨rfl, rfl⟩
    | field_close _ h => cases (ih h).2
  | field_close hd _ ih =>
    cases h' with
    | field_doubled => cases hd
    | field_end _ h => cases (ih h).2
    | field_close _ h =>
      obtain ⟨rfl, hq⟩ := ih h
      cases hq
      exact ⟨rfl, rfl⟩
  | spec_end => cases h'; exact ⟨rfl, rfl⟩
  | spec_close =>
    cases h' with
    | spec_close => exact ⟨rfl, rfl⟩
    | spec_char hc => exact absurd rfl hc
  | spec_field _ _ ihf ih =>
    cases h' with
    | spec_field hf h =>
      obtain ⟨rfl, rfl⟩ := ihf hf
      obtain ⟨rfl, rfl⟩ := ih h
      exact ⟨rfl, rfl⟩
    | spec_char _ hb => exact absurd rfl hb
  | spec_char hc hb _ ih =>
    cases h' with
    | spec_close => exact absurd rfl hc
    | spec_field => exact absurd rfl hb
    | spec_char _ _ h =>
      obtain ⟨rfl, rfl⟩ := ih h
      exact ⟨rfl, rfl⟩

/-! ## Readers and the pass -/

section Pass

variable {stack outer : List Region} {b cs : List Char} {c : Char}

theorem mangleFrom_cons {p : List Region × Nat} (h : move stack b c cs = p) :
    mangleFrom stack 0 b (c :: cs) = written (inCode stack) c ++ mangleFrom p.1 p.2 (c :: b) cs := by
  subst h
  rfl

/-- What is taken with a character is copied. -/
theorem mangleFrom_taken (stack : List Region) (taken b cs : List Char) :
    mangleFrom stack taken.length b (taken ++ cs) = taken ++ mangleFrom stack 0 (taken.reverse ++ b) cs := by
  induction taken generalizing b with
  | nil => rfl
  | cons c taken ih =>
    rw [List.reverse_cons, List.append_assoc, List.singleton_append, List.cons_append, List.cons_append, ← ih]
    rfl

/-- A character of a region that is no code, which changes nothing. -/
theorem mangleFrom_keep (h : inCode stack = false) (hmove : move stack b c cs = (stack, 0)) :
    mangleFrom stack 0 b (c :: cs) = c :: mangleFrom stack 0 (c :: b) cs := by
  rw [mangleFrom_cons hmove, h, written_false]
  rfl

/-- What the pass writes from where a region ends, and is closed by the next character. -/
def closed (outer : List Region) (q : Place) : List Char :=
  match q.after with
  | [] => []
  | c :: rest => c :: mangleFrom outer 0 (c :: q.before) rest

/-- Replacement fields may stand in the region. -/
def HasFields : Region → Prop
  | .text quote formatted => formatted = true ∧ IsOpening quote
  | .spec => True
  | .code .. => False

theorem HasFields.inCode {region : Region} (h : HasFields region) (outer : List Region) :
    inCode (region :: outer) = false := by
  cases region with
  | code => exact h.elim
  | text | spec => rfl

theorem move_field {region : Region} (h : HasFields region) :
    move (region :: outer) b '\x7b' cs = move.openBrace (region :: outer) cs := by
  cases region with
  | code => exact h.elim
  | spec => simp [move]
  | text quote formatted =>
    obtain ⟨rfl, d, hd, hquote⟩ := h
    have hne : d ≠ '\x7b' := by rintro rfl; cases hd
    have hq : quote.isPrefixOf ('\x7b' :: cs) = false := by
      rcases hquote with rfl | rfl <;> simp [List.isPrefixOf, hne]
    simp [move, hq]

/-- From where a reader starts, the pass writes what the reader writes, and goes on where it stops. -/
def Reader.Agrees : Reader → Place → List Char → Place → Prop
  | code depth inField, p, out, q =>
    ∀ outer, mangleFrom (.code depth inField :: outer) 0 p.before p.after = out ++ closed outer q
  | spec, p, out, q => ∀ outer, mangleFrom (.spec :: outer) 0 p.before p.after = out ++ closed outer q
  | literal formatted, p, out, q => formatted = isFormatted p.before → ∀ depth inField outer,
    mangleFrom (.code depth inField :: outer) 0 p.before p.after =
      out ++ mangleFrom (.code depth inField :: outer) 0 q.before q.after
  | body quote formatted, p, out, q => IsOpening quote → ∀ outer,
    mangleFrom (.text quote formatted :: outer) 0 p.before p.after = out ++ mangleFrom outer 0 q.before q.after
  | field, p, out, q => ∀ region outer, HasFields region →
    mangleFrom (region :: outer) 0 p.before p.after = out ++ mangleFrom (region :: outer) 0 q.before q.after

/-- The first quote of a literal opens it. -/
theorem mangleFrom_opening (hc : isQuote c = true) (depth : Int) (field : Bool) :
    mangleFrom (.code depth field :: outer) 0 b (c :: cs) = quoteOf c cs ++
      mangleFrom (.text (quoteOf c cs) (isFormatted b) :: .code depth field :: outer) 0 ((quoteOf c cs).reverse ++ b)
        (cs.drop ((quoteOf c cs).length - 1)) := by
  have hpass : Passes (.code depth field :: outer, 0) b (c :: cs) _ _ _ := passes_quote hc
  unfold Passes at hpass
  rw [rewrite_marked_of_not rfl, Reading.chars_marked] at hpass
  exact hpass

theorem mangleFrom_closing {quote : List Char} {formatted : Bool} (h : IsOpening quote)
    (hq : quote.isPrefixOf (c :: cs) = true) : mangleFrom (.text quote formatted :: outer) 0 b (c :: cs) =
      quote ++ mangleFrom outer 0 (quote.reverse ++ b) ((c :: cs).drop quote.length) := by
  obtain ⟨rest, hrest⟩ := List.isPrefixOf_iff_prefix.1 hq
  obtain ⟨d, tail, hd, rfl⟩ : ∃ d tail, isQuote d = true ∧ quote = d :: tail := by
    obtain ⟨d, hd, rfl | rfl⟩ := h
    · exact ⟨d, [], hd, rfl⟩
    · exact ⟨d, [d, d], hd, rfl⟩
  have hpass : Passes (.text (d :: tail) formatted :: outer, 0) b _ _ _ _ := passes_close hd rest
  unfold Passes at hpass
  rw [rewrite_marked_of_not rfl, Reading.chars_marked] at hpass
  rw [← hrest, hpass, List.drop_left]

/-- A brace that is not doubled opens a field. -/
theorem mangleFrom_brace {region : Region} (h : HasFields region) (hd : ['\x7b'].isPrefixOf cs = false) :
    mangleFrom (region :: outer) 0 b ('\x7b' :: cs) =
      '\x7b' :: mangleFrom (.code 0 true :: region :: outer) 0 ('\x7b' :: b) cs := by
  have hmove : move (region :: outer) b '\x7b' cs = (.code 0 true :: region :: outer, 0) := by
    rw [move_field h, move.openBrace, hd]
    rfl
  rw [mangleFrom_cons hmove, h.inCode, written_false]
  rfl

theorem Reads.agrees {r : Reader} {p q : Place} {out : List Char} (h : Reads r p out q) : r.Agrees p out q := by
  induction h with
  | code_end => exact fun _ => rfl
  | code_literal _ _ _ ihl ih =>
    intro outer
    rw [ihl rfl, ih, List.append_assoc]
  | @code_close b cs => exact fun outer => mangleFrom_cons move_code_close
  | @code_spec b cs _ _ _ ih =>
    intro outer
    rw [mangleFrom_cons move_code_spec, ih]
    rfl
  | code_char hc hf _ ih =>
    intro outer
    rw [mangleFrom_cons (move_code hc hf), ih, List.append_assoc]
    rfl
  | @literal _ _ c cs _ _ hc _ ih =>
    rintro rfl depth field outer
    rw [mangleFrom_opening hc, ih ⟨c, hc, quoteOf_cases c cs⟩, List.append_assoc]
  | body_end => exact fun _ _ => by cases ‹List Region› <;> rfl
  | @body_escape quote formatted b d cs out q _ ih =>
    intro hquote outer
    have htaken := mangleFrom_taken (.text quote formatted :: outer) [d] ('\\' :: b) cs
    rw [mangleFrom_cons (move_escape d)]
    exact congrArg ('\\' :: ·) (htaken.trans (congrArg (d :: ·) (ih hquote outer)))
  | body_close _ hq => exact fun hquote _ => mangleFrom_closing hquote hq
  | @body_field quote _ _ _ _ _ _ _ _ _ ihf ih =>
    intro hquote outer
    rw [ihf (.text quote true) outer ⟨rfl, hquote⟩, ih hquote, List.append_assoc]
  | @body_char quote formatted b c cs out q hc hq hf _ ih =>
    intro hquote outer
    have hmove : move (.text quote formatted :: outer) b c cs = (.text quote formatted :: outer, 0) := by
      by_cases hescape : c = '\\'
      · rw [hescape, hc hescape]
        rfl
      · exact move_text hescape hq hf
    rw [mangleFrom_keep rfl hmove, ih hquote]
    rfl
  | @field_doubled b cs =>
    intro region outer hregion
    rw [mangleFrom_cons (move_field hregion), hregion.inCode]
    exact congrArg _ (mangleFrom_taken _ ['\x7b'] _ cs)
  | field_end hd _ ih =>
    intro region outer hregion
    rw [mangleFrom_brace hregion hd, ih]
    rfl
  | @field_close _ _ out b' c rest hd h ih =>
    intro region outer hregion
    obtain hnil | ⟨_, hcons⟩ := h.stops
    · cases hnil
    · cases hcons
      rw [mangleFrom_brace hregion hd, ih, List.cons_append, List.append_assoc]
      rfl
  | spec_end => exact fun _ => rfl
  | spec_close => exact fun outer => mangleFrom_cons move_spec_close
  | spec_field _ _ ihf ih =>
    intro outer
    rw [ihf .spec outer trivial, ih, List.append_assoc]
  | spec_char hc hb _ ih =>
    intro outer
    rw [mangleFrom_keep rfl (move_spec hc hb), ih]
    rfl

end Pass

/-- Code without quotes is code to its end. -/
theorem mangleFrom_of_noQuotes {cs : List Char} (h : ∀ c ∈ cs, isQuote c = false) (depth : Int) (b : List Char) :
    mangleFrom [.code depth false] 0 b cs = cs.flatMap (written true) := by
  induction cs generalizing depth b with
  | nil => rfl
  | cons c cs ih =>
    obtain ⟨hc, hcs⟩ := List.forall_mem_cons.1 h
    have hmove : move [.code depth false] b c cs = ([.code (depth + depthStep c) false], 0) := move_code hc (by simp)
    rw [mangleFrom_cons hmove, ih hcs]
    rfl

end Dollar

open Dollar

/-- Every reader that is called where its region begins comes to an end, in one way. The reader of code that starts at
the beginning of a fragment, whatever the fragment, writes all of `mangle` and stops at its end: the fragment with the
mark for some of its dollars, and with all else as it stands. Where there are no quotes, each dollar is written as a
mark; where there are no dollars, nothing changes. -/
theorem mangle_reads :
    (∀ (r : Reader) (p : Place), r.CanStart p.after → ∃! s : List Char × Place, Reads r p s.1 s.2) ∧
    ∀ fragment : String,
      Reads (.code 0 false) ⟨[], fragment.toList⟩ (mangle fragment).toList ⟨fragment.toList.reverse, []⟩ ∧
      Marks fragment.toList (mangle fragment).toList ∧
      ((∀ c ∈ fragment.toList, isQuote c = false) →
        mangle fragment = .ofList (fragment.toList.flatMap (written true))) ∧
      ('$' ∉ fragment.toList → mangle fragment = fragment) := by
  refine ⟨fun r p h => ?_, fun fragment => ?_⟩
  · obtain ⟨out, q, hreads⟩ := Reader.exists_reads h
    exact ⟨(out, q), hreads, fun s hs => Prod.ext (hreads.unique hs).1 (hreads.unique hs).2⟩
  · have hstart : (Reader.code 0 false).CanStart (Place.mk [] fragment.toList).after := trivial
    obtain ⟨out, ⟨b, after⟩, hreads⟩ := Reader.exists_reads hstart
    obtain rfl : after = [] := hreads.stops
    have hout : (mangle fragment).toList = out := by
      have hall := hreads.agrees []
      rw [mangle, String.toList_ofList, hall]
      exact List.append_nil out
    obtain ⟨read, hread, hbefore, hmarks⟩ := hreads.writes
    rw [List.append_nil] at hread hbefore
    dsimp only at hread hbefore
    subst hread hbefore
    rw [hout]
    refine ⟨hreads, hmarks, fun hquotes => ?_, fun hd => ?_⟩
    · rw [mangle, mangleFrom_of_noQuotes hquotes]
    · rw [← String.ofList_toList (s := mangle fragment), hout, hmarks.eq_of_notMem hd, String.ofList_toList]

/-- A literal, a field and a format specification that nothing closes, with a backslash at the end. -/
theorem mangle_reads_unterminated :
    (∃! s : List Char × Place, Reads .field ⟨[], "\x7b$a:\x7b$\\".toList⟩ s.1 s.2) ∧
    Reads (.code 0 false) ⟨[], "f'\x7b$a:\x7b$\\".toList⟩ "f'\x7b_dollar_a:\x7b_dollar_\\".toList
      ⟨"\\$\x7b:a$\x7b'f".toList, []⟩ ∧
    mangle "[$, $a" = "[_dollar_, _dollar_a" ∧ mangle "f'\x7ba\x7d" = "f'\x7ba\x7d" := by
  have hfield := mangle_reads.1 .field ⟨[], "\x7b$a:\x7b$\\".toList⟩ ⟨_, rfl⟩
  have hcode := (mangle_reads.2 "f'\x7b$a:\x7b$\\").1
  have hnone : ("[$, $a".toList.all fun c => !isQuote c) = true := by decide +kernel
  have hquotes := (mangle_reads.2 "[$, $a").2.2.1 fun c hc => by simpa using List.all_eq_true.1 hnone c hc
  have hdollars := (mangle_reads.2 "f'\x7ba\x7d").2.2.2 (by decide +kernel)
  have hmangle : mangle "f'\x7b$a:\x7b$\\" = "f'\x7b_dollar_a:\x7b_dollar_\\" := by decide +kernel
  rw [hmangle] at hcode
  exact ⟨hfield, hcode, hquotes, hdollars⟩

end NestedSite.Template
