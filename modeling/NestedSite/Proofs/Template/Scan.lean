import Mathlib.Data.List.Chain
import Mathlib.Data.List.DropRight
import Mathlib.Data.List.Forall2
import Mathlib.Order.Bounds.Basic
import NestedSite.Template.Render

/-!
# What scanning finds

Positions in a source tell where delimiters stand: `k.Spans cs p q` holds of an opener at `p` and a closer of its kind
at `q` with at least one character in between. A delimiter opens wherever some closer follows (`Opens`); it is closed
by the first closer with something else than blanks before it, and only where there is none by the first closer at all
(`Delimiter.Closes`). `Scans` reads a source by these rules from left to right.

* `scan_eq_iff`: scanning finds what `Scans` says.
* `scan_pieces`: the instructions of a source are cut out of it one after the other, and what is left between the
  delimiters holds none.

The proof follows the scanner: `closed?`, `shortest?`, `fragment?` and `delimited?` have one lemma each for what they
find and for finding nothing.
-/

namespace NestedSite.Text

/-! ## Blanks at the ends -/

/-- A text of blanks alone. -/
def IsBlankText (cs : List Char) : Prop := ∀ c ∈ cs, isBlank c = true

theorem isBlankText_append {xs ys : List Char} : IsBlankText (xs ++ ys) ↔ IsBlankText xs ∧ IsBlankText ys :=
  List.forall_mem_append

theorem isBlankText_takeWhile (cs : List Char) : IsBlankText (cs.takeWhile isBlank) :=
  fun _ => List.mem_takeWhile_imp

theorem dropWhile_blanks_append {ws : List Char} (h : IsBlankText ws) (cs : List Char) :
    (ws ++ cs).dropWhile isBlank = cs.dropWhile isBlank := by
  induction ws with
  | nil => rfl
  | cons w ws ih =>
    obtain ⟨hw, hws⟩ := List.forall_mem_cons.1 h
    rw [List.cons_append, List.dropWhile_cons_of_pos hw, ih hws]

theorem dropEndWhile_blanks {ws : List Char} (h : IsBlankText ws) : dropEndWhile isBlank ws = [] := by
  induction ws with
  | nil => rfl
  | cons w ws ih =>
    obtain ⟨hw, hws⟩ := List.forall_mem_cons.1 h
    rw [dropEndWhile, ih hws]
    exact if_pos hw

theorem dropEndWhile_append_blanks {ws : List Char} (h : IsBlankText ws) (cs : List Char) :
    dropEndWhile isBlank (cs ++ ws) = dropEndWhile isBlank cs := by
  induction cs with
  | nil => exact dropEndWhile_blanks h
  | cons c cs ih => rw [List.cons_append, dropEndWhile, ih, dropEndWhile]

theorem strip_blanks_append {ws : List Char} (h : IsBlankText ws) (cs : List Char) : strip (ws ++ cs) = strip cs := by
  unfold strip trim
  rw [dropWhile_blanks_append h]

theorem strip_append_blanks {ws : List Char} (h : IsBlankText ws) (cs : List Char) : strip (cs ++ ws) = strip cs := by
  unfold strip trim
  rw [List.dropWhile_append]
  split
  · rename_i hnil
    have hws : ws.dropWhile isBlank = [] := by
      have := dropWhile_blanks_append h []
      simpa using this
    rw [hws, List.isEmpty_iff.1 hnil]
  · exact dropEndWhile_append_blanks h _

theorem strip_blanks {ws : List Char} (h : IsBlankText ws) : strip ws = [] := by
  have := strip_append_blanks h []
  rw [List.nil_append] at this
  rw [this]
  rfl

end NestedSite.Text

namespace NestedSite.Template

open Text

/-! ## Delimiters -/

/-- The two kinds of delimiters. -/
inductive Delimiter where
  | value
  | action
  deriving DecidableEq

namespace Delimiter

/-- The character that opens a fragment where it is doubled. -/
def opener : Delimiter → Char
  | value => '\x7b'
  | action => '<'

/-- The character that closes a fragment where it is doubled. -/
def closer : Delimiter → Char
  | value => '\x7d'
  | action => '>'

/-- What a fragment of the kind becomes. -/
def instruction : Delimiter → String → Instruction
  | value => .expression
  | action => .statement

theorem isBlank_closer (k : Delimiter) : isBlank k.closer = false := by cases k <;> decide

theorem opener_injective {k l : Delimiter} (h : k.opener = l.opener) : k = l := by
  cases k <;> cases l <;> simp_all [opener]

end Delimiter

/-- The character stands doubled at a position. -/
def DoubledAt (c : Char) (cs : List Char) (p : Nat) : Prop := [c, c] <+: cs.drop p

/-- What stands between an opener at `p` and a closer at `q`. -/
def between (cs : List Char) (p q : Nat) : List Char := (cs.take q).drop (p + 2)

namespace DoubledAt

variable {c d : Char} {cs : List Char} {p : Nat}

theorem eq (h : DoubledAt c cs p) : cs.drop p = c :: c :: cs.drop (p + 2) := by
  obtain ⟨rest, hrest⟩ := h
  have hdrop : cs.drop (p + 2) = rest := by rw [← List.drop_drop, ← hrest]; rfl
  rw [hdrop, ← hrest]
  rfl

theorem lt_length (h : DoubledAt c cs p) : p + 2 ≤ cs.length := by
  have hlen := congrArg List.length h.eq
  simp only [List.length_drop, List.length_cons] at hlen
  omega

theorem cut (h : DoubledAt c cs p) : cs = cs.take p ++ c :: c :: cs.drop (p + 2) := by
  rw [← h.eq, List.take_append_drop]

theorem getElem?_eq (h : DoubledAt c cs p) : cs[p]? = some c := by rw [← List.head?_drop, h.eq, List.head?_cons]

theorem mem (h : DoubledAt c cs p) : c ∈ cs := List.mem_of_getElem? h.getElem?_eq

theorem unique (h : DoubledAt c cs p) (k : DoubledAt d cs p) : c = d := by
  have heq := h.eq.symm.trans k.eq
  exact (List.cons.inj heq).1

theorem of_take {n : Nat} (h : DoubledAt c (cs.take n) p) : DoubledAt c cs p := by
  unfold DoubledAt at h
  rw [List.drop_take] at h
  exact h.trans (List.take_prefix _ _)

theorem append_iff {pre : List Char} : DoubledAt c (pre ++ cs) (pre.length + p) ↔ DoubledAt c cs p := by
  unfold DoubledAt
  rw [List.drop_length_add_append]

theorem cons_iff {a : Char} : DoubledAt c (a :: cs) (p + 1) ↔ DoubledAt c cs p := Iff.rfl

theorem zero_iff : DoubledAt c cs 0 ↔ ∃ rest, cs = c :: c :: rest := by
  constructor
  · intro h
    exact ⟨_, h.cut⟩
  · rintro ⟨rest, rfl⟩
    exact ⟨rest, rfl⟩

/-- The first of two characters that stand doubled after blanks is the first that is no blank. -/
theorem blanks_append {ws : List Char} (hws : IsBlankText ws) (hc : isBlank c = false) (h : DoubledAt c (ws ++ cs) p) :
    ws.length ≤ p := by
  by_contra hlt
  have hmem : c ∈ ws := by
    have hget := h.getElem?_eq
    rw [List.getElem?_append_left (by omega)] at hget
    exact List.mem_of_getElem? hget
  rw [hws c hmem] at hc
  cases hc

end DoubledAt

theorem between_append {pre cs : List Char} {p q : Nat} :
    between (pre ++ cs) (pre.length + p) (pre.length + q) = between cs p q := by
  unfold between
  rw [List.take_length_add_append, Nat.add_assoc, List.drop_length_add_append]

namespace Delimiter

variable {k : Delimiter} {cs : List Char} {p q : Nat}

/-- An opener stands at `p` and a closer of its kind at `q`, with at least one character in between. -/
structure Spans (k : Delimiter) (cs : List Char) (p q : Nat) : Prop where
  opens : DoubledAt k.opener cs p
  closes : DoubledAt k.closer cs q
  apart : p + 3 ≤ q

/-- What opens at `p` is closed at `q`: there stands the first closer with something else than blanks before it or,
where no closer has that, the first closer. -/
inductive Closes (k : Delimiter) (cs : List Char) (p q : Nat) : Prop
  | filled (h : IsLeast {q | k.Spans cs p q ∧ ¬IsBlankText (between cs p q)} q)
  | blank (hall : ∀ q, k.Spans cs p q → IsBlankText (between cs p q)) (h : IsLeast {q | k.Spans cs p q} q)

theorem Closes.spans (h : k.Closes cs p q) : k.Spans cs p q := by
  cases h with
  | filled h => exact h.1.1
  | blank _ h => exact h.1

theorem Closes.unique {q' : Nat} (h : k.Closes cs p q) (h' : k.Closes cs p q') : q = q' := by
  cases h with
  | filled h =>
    cases h' with
    | filled h' => exact h.unique h'
    | blank hall _ => exact absurd (hall q h.1.1) h.1.2
  | blank hall h =>
    cases h' with
    | filled h' => exact absurd (hall q' h'.1.1) h'.1.2
    | blank _ h' => exact h.unique h'

theorem spans_append {pre : List Char} :
    k.Spans (pre ++ cs) (pre.length + p) (pre.length + q) ↔ k.Spans cs p q := by
  constructor
  · rintro ⟨ho, hc, ha⟩
    exact ⟨DoubledAt.append_iff.1 ho, DoubledAt.append_iff.1 hc, by omega⟩
  · rintro ⟨ho, hc, ha⟩
    exact ⟨DoubledAt.append_iff.2 ho, DoubledAt.append_iff.2 hc, by omega⟩

/-- A closer of what opens behind a prefix stands behind the prefix. -/
theorem Spans.exists_append {pre : List Char} (h : k.Spans (pre ++ cs) (pre.length + p) q) :
    ∃ q', q = pre.length + q' ∧ k.Spans cs p q' := by
  obtain ⟨q', rfl⟩ : ∃ q', q = pre.length + q' := ⟨q - pre.length, by have := h.apart; omega⟩
  exact ⟨q', rfl, spans_append.1 h⟩

theorem Closes.append {pre : List Char} (h : k.Closes cs p q) :
    k.Closes (pre ++ cs) (pre.length + p) (pre.length + q) := by
  cases h with
  | filled h =>
    refine .filled ⟨⟨spans_append.2 h.1.1, ?_⟩, ?_⟩
    · rw [between_append]
      exact h.1.2
    · rintro _ ⟨hq, hfilled⟩
      obtain ⟨q', rfl, hq'⟩ := hq.exists_append
      rw [between_append] at hfilled
      exact Nat.add_le_add_left (h.2 ⟨hq', hfilled⟩) _
  | blank hall h =>
    refine .blank (fun _ hq => ?_) ⟨spans_append.2 h.1, fun _ hq => ?_⟩
    · obtain ⟨q', rfl, hq'⟩ := hq.exists_append
      rw [between_append]
      exact hall q' hq'
    · obtain ⟨q', rfl, hq'⟩ := Spans.exists_append hq
      exact Nat.add_le_add_left (h.2 hq') _

end Delimiter

/-- A delimiter opens at a position. -/
def Opens (cs : List Char) (p : Nat) : Prop := ∃ k : Delimiter, ∃ q, k.Spans cs p q

theorem opens_append {pre cs : List Char} {p : Nat} : Opens (pre ++ cs) (pre.length + p) ↔ Opens cs p := by
  constructor
  · rintro ⟨k, q, h⟩
    obtain ⟨q', -, h⟩ := h.exists_append
    exact ⟨k, q', h⟩
  · rintro ⟨k, q, h⟩
    exact ⟨k, _, Delimiter.spans_append.2 h⟩

theorem Opens.of_take {cs : List Char} {n p : Nat} (h : Opens (cs.take n) p) : Opens cs p ∧ p < n := by
  obtain ⟨k, q, hspans⟩ := h
  have hlen := hspans.opens.lt_length
  rw [List.length_take] at hlen
  exact ⟨⟨k, q, hspans.opens.of_take, hspans.closes.of_take, hspans.apart⟩, by omega⟩

/-- The literal that a text makes, unless it is empty. -/
def literals (cs : List Char) : List Instruction := if cs.isEmpty then [] else [.literal (.ofList cs)]

/-- The instructions of a source: the first delimiter that opens makes one, after the literal in front of it, and
scanning goes on behind its closer. -/
inductive Scans : List Char → List Instruction → Prop
  | literal {cs : List Char} (h : ∀ p, ¬Opens cs p) : Scans cs (literals cs)
  | fragment {cs : List Char} {is : List Instruction} {k : Delimiter} {p q : Nat}
      (first : IsLeast {p | Opens cs p} p) (closed : k.Closes cs p q) (rest : Scans (cs.drop (q + 2)) is) :
      Scans cs (literals (cs.take p) ++ k.instruction (.ofList (strip (between cs p q))) :: is)

theorem Scans.unique {cs : List Char} {is js : List Instruction} (h : Scans cs is) (k : Scans cs js) : is = js := by
  induction h generalizing js with
  | literal hnone =>
    cases k with
    | literal => rfl
    | fragment first => exact absurd first.1 (hnone _)
  | fragment first closed _ ih =>
    cases k with
    | literal hnone => exact absurd first.1 (hnone _)
    | fragment first' closed' rest' =>
      cases first.unique first'
      cases Delimiter.opener_injective (closed.spans.opens.unique closed'.spans.opens)
      cases closed.unique closed'
      rw [ih rest']

/-! ## What the parts of the scanner find -/

namespace Instruction

theorem closed?_eq_some_iff {c : Char} {cs rest : List Char} :
    closed? c cs = some rest ↔ cs.dropWhile isBlank = c :: c :: rest := by
  unfold closed?
  split
  · rename_i a b r heq
    rw [heq]
    split
    · rename_i hab
      simp_all
    · rename_i hab
      simp only [reduceCtorEq, List.cons.injEq, false_iff, not_and]
      rintro rfl rfl
      simp at hab
  · rename_i hne
    simp only [reduceCtorEq, false_iff]
    exact fun heq => hne _ _ _ heq

/-- A doubled closer stands after blanks. -/
theorem exists_blanks_of_closed? {c : Char} {cs rest : List Char} (h : closed? c cs = some rest) :
    ∃ ws, IsBlankText ws ∧ cs = ws ++ c :: c :: rest := by
  rw [closed?_eq_some_iff] at h
  exact ⟨cs.takeWhile isBlank, isBlankText_takeWhile cs, by rw [← h, List.takeWhile_append_dropWhile]⟩

theorem not_doubledAt_of_closed?_eq_none {c : Char} (hc : isBlank c = false) {cs : List Char}
    (h : closed? c cs = none) : ¬DoubledAt c cs 0 := by
  rw [DoubledAt.zero_iff]
  rintro ⟨rest, rfl⟩
  have hsome : closed? c (c :: c :: rest) = some rest := by
    rw [closed?_eq_some_iff, List.dropWhile_cons_of_neg (by simp [hc])]
  rw [hsome] at h
  cases h

/-- The shortest fragment and the blanks after it end at the first closer. -/
theorem exists_blanks_of_shortest? {c : Char} (hc : isBlank c = false) {cs fragment rest : List Char}
    (h : shortest? c cs = some (fragment, rest)) :
    ∃ ws, IsBlankText ws ∧ cs = fragment ++ ws ++ c :: c :: rest ∧ fragment ≠ [] ∧
      ∀ p, 1 ≤ p → DoubledAt c cs p → (fragment ++ ws).length ≤ p := by
  induction cs generalizing fragment with
  | nil => simp [shortest?] at h
  | cons a cs ih =>
    unfold shortest? at h
    split at h
    · rename_i r hr
      cases h
      obtain ⟨ws, hws, heq⟩ := exists_blanks_of_closed? hr
      refine ⟨ws, hws, by rw [heq]; rfl, List.cons_ne_nil _ _, fun p hp hd => ?_⟩
      obtain ⟨p, rfl⟩ := Nat.exists_eq_succ_of_ne_zero (Nat.one_le_iff_ne_zero.1 hp)
      rw [heq] at hd
      have hle := (DoubledAt.cons_iff.1 hd).blanks_append hws hc
      simpa using hle
    · rename_i hnone
      obtain ⟨⟨f, r⟩, hf, heq⟩ := Option.map_eq_some_iff.1 h
      cases heq
      obtain ⟨ws, hws, hcs, -, hleast⟩ := ih hf
      refine ⟨ws, hws, by rw [hcs]; rfl, List.cons_ne_nil _ _, fun p hp hd => ?_⟩
      obtain ⟨p, rfl⟩ := Nat.exists_eq_succ_of_ne_zero (Nat.one_le_iff_ne_zero.1 hp)
      -- a closer right after the first character would have closed it
      have hp : 1 ≤ p := by
        rw [Nat.one_le_iff_ne_zero]
        rintro rfl
        exact not_doubledAt_of_closed?_eq_none hc hnone (DoubledAt.cons_iff.1 hd)
      have hle := hleast p hp (DoubledAt.cons_iff.1 hd)
      simpa using hle

theorem not_doubledAt_of_shortest?_eq_none {c : Char} (hc : isBlank c = false) {cs : List Char}
    (h : shortest? c cs = none) {p : Nat} (hp : 1 ≤ p) : ¬DoubledAt c cs p := by
  induction cs generalizing p with
  | nil => exact fun hd => absurd hd.lt_length (by simp)
  | cons a cs ih =>
    unfold shortest? at h
    split at h
    · cases h
    · rename_i hnone
      obtain ⟨p, rfl⟩ := Nat.exists_eq_succ_of_ne_zero (Nat.one_le_iff_ne_zero.1 hp)
      rw [Nat.succ_eq_add_one, DoubledAt.cons_iff]
      rcases Nat.eq_zero_or_pos p with rfl | hp
      · exact not_doubledAt_of_closed?_eq_none hc hnone
      · exact ih (Option.map_eq_none_iff.1 h) hp

/-- The fragment after blanks, and what comes after those. -/
theorem fragment?_blanks_append {c : Char} {ws body : List Char} (hws : IsBlankText ws)
    (hbody : body.dropWhile isBlank = body) :
    fragment? c (ws ++ body) = match shortest? c body with
      | some (fragment, rest) => some (strip fragment, rest)
      | none => if ws = [] then none else (closed? c body).map ([], ·) := by
  unfold fragment?
  dsimp only
  rw [dropWhile_blanks_append hws, hbody]
  cases hs : shortest? c body with
  | some found => rfl
  | none =>
    cases ws with
    | nil => simp
    | cons w ws =>
      have hlt : body.length < (w :: ws ++ body).length := by
        rw [List.length_append, List.length_cons]
        omega
      simp only [if_pos hlt, reduceCtorEq, if_false]

end Instruction

section Fragments

variable {k : Delimiter} {ws body : List Char}

/-- Where a fragment can be closed that begins with blanks. -/
theorem Delimiter.spans_fragment_iff (hws : IsBlankText ws) {q : Nat} :
    k.Spans (k.opener :: k.opener :: (ws ++ body)) 0 q ↔
      ∃ p, q = ws.length + 2 + p ∧ DoubledAt k.closer body p ∧ 1 ≤ ws.length + p := by
  constructor
  · rintro ⟨-, hc, ha⟩
    obtain ⟨n, rfl⟩ : ∃ n, q = n + 1 + 1 := ⟨q - 2, by omega⟩
    rw [DoubledAt.cons_iff, DoubledAt.cons_iff] at hc
    have hle := hc.blanks_append hws k.isBlank_closer
    obtain ⟨p, rfl⟩ : ∃ p, n = ws.length + p := ⟨n - ws.length, by omega⟩
    exact ⟨p, by omega, DoubledAt.append_iff.1 hc, by omega⟩
  · rintro ⟨p, rfl, hc, hp⟩
    refine ⟨⟨ws ++ body, rfl⟩, ?_, by omega⟩
    rw [show ws.length + 2 + p = ws.length + p + 1 + 1 by omega, DoubledAt.cons_iff, DoubledAt.cons_iff]
    exact DoubledAt.append_iff.2 hc

theorem between_fragment {o : Char} {p : Nat} :
    between (o :: o :: (ws ++ body)) 0 (ws.length + 2 + p) = ws ++ body.take p := by
  unfold between
  rw [show ws.length + 2 + p = ws.length + p + 1 + 1 by omega, List.take_succ_cons, List.take_succ_cons,
    List.take_length_add_append]
  rfl

/-- What begins with something else than a blank is no text of blanks. -/
theorem not_isBlankText_take (hbody : body.dropWhile isBlank = body) {p : Nat} (hp : 1 ≤ p) (hne : body ≠ []) :
    ¬IsBlankText (body.take p) := by
  obtain ⟨p, rfl⟩ := Nat.exists_eq_succ_of_ne_zero (Nat.one_le_iff_ne_zero.1 hp)
  cases body with
  | nil => exact absurd rfl hne
  | cons c body =>
    rw [List.take_succ_cons]
    intro h
    have hc := h c List.mem_cons_self
    rw [List.dropWhile_cons_of_pos hc] at hbody
    have hlen := congrArg List.length hbody
    have hle := Instruction.length_dropWhile_le isBlank body
    rw [List.length_cons] at hlen
    omega

/-- The scanner closes a fragment where it ends, and finds its code. -/
theorem exists_closes_of_fragment? {cs code rest : List Char}
    (h : Instruction.fragment? k.closer cs = some (code, rest)) :
    ∃ q, k.Closes (k.opener :: k.opener :: cs) 0 q ∧ code = strip (between (k.opener :: k.opener :: cs) 0 q) ∧
      rest = (k.opener :: k.opener :: cs).drop (q + 2) := by
  obtain ⟨ws, body, rfl, hws, hbody⟩ :
      ∃ ws body, cs = ws ++ body ∧ IsBlankText ws ∧ body.dropWhile isBlank = body :=
    ⟨_, _, List.takeWhile_append_dropWhile.symm, isBlankText_takeWhile cs, List.dropWhile_idempotent _ cs⟩
  rw [Instruction.fragment?_blanks_append hws hbody] at h
  have hdrop : ∀ p, (k.opener :: k.opener :: (ws ++ body)).drop (ws.length + 2 + p + 2) = body.drop (p + 2) := by
    intro p
    rw [show ws.length + 2 + p + 2 = ws.length + (p + 2) + 1 + 1 by omega]
    exact List.drop_length_add_append _
  cases hs : Instruction.shortest? k.closer body with
  | some found =>
    obtain ⟨f, r⟩ := found
    rw [hs] at h
    cases h
    obtain ⟨vs, hvs, heq, hne, hleast⟩ := Instruction.exists_blanks_of_shortest? k.isBlank_closer hs
    -- the code begins with something else than a blank, and blanks follow it up to the closer
    have htake : body.take (f ++ vs).length = f ++ vs := by rw [heq]; exact List.take_left
    have hpos : 1 ≤ (f ++ vs).length := by
      rw [List.length_append]
      have := List.length_pos_iff.2 hne
      omega
    have hbodyne : body ≠ [] := by
      rw [heq]
      simp [hne]
    have hclose : DoubledAt k.closer body (f ++ vs).length := by
      unfold DoubledAt
      rw [heq, List.drop_left]
      exact ⟨rest, rfl⟩
    refine ⟨ws.length + 2 + (f ++ vs).length, .filled ⟨⟨?_, ?_⟩, ?_⟩, ?_, ?_⟩
    · exact (Delimiter.spans_fragment_iff hws).2 ⟨_, rfl, hclose, by omega⟩
    · rw [between_fragment, isBlankText_append]
      exact fun hblank => not_isBlankText_take hbody hpos hbodyne hblank.2
    · rintro q ⟨hspans, hfilled⟩
      obtain ⟨p, rfl, hc, -⟩ := (Delimiter.spans_fragment_iff hws).1 hspans
      rw [between_fragment, isBlankText_append] at hfilled
      have hp : 1 ≤ p := by
        rw [Nat.one_le_iff_ne_zero]
        rintro rfl
        exact hfilled ⟨hws, fun c hc => absurd hc (by simp)⟩
      exact Nat.add_le_add_left (hleast p hp hc) _
    · rw [between_fragment, strip_blanks_append hws, htake, strip_append_blanks hvs]
    · rw [hdrop, ← List.drop_drop, heq, List.drop_left]
      rfl
  | none =>
    have hnone := fun {p} => Instruction.not_doubledAt_of_shortest?_eq_none k.isBlank_closer hs (p := p)
    rw [hs] at h
    simp only at h
    split at h
    · cases h
    · rename_i hwsne
      obtain ⟨r, hr, heq⟩ := Option.map_eq_some_iff.1 h
      cases heq
      rw [Instruction.closed?_eq_some_iff, hbody] at hr
      -- only blanks can be closed here, right before the rest
      have honly : ∀ q, k.Spans (k.opener :: k.opener :: (ws ++ body)) 0 q → q = ws.length + 2 + 0 := by
        intro q hspans
        obtain ⟨p, rfl, hc, -⟩ := (Delimiter.spans_fragment_iff hws).1 hspans
        rcases Nat.eq_zero_or_pos p with rfl | hp
        · rfl
        · exact absurd hc (hnone hp)
      have hblank : IsBlankText (between (k.opener :: k.opener :: (ws ++ body)) 0 (ws.length + 2 + 0)) := by
        rw [between_fragment, List.take_zero, List.append_nil]
        exact hws
      refine ⟨ws.length + 2 + 0, .blank (fun q hspans => ?_) ⟨?_, fun q hspans => (honly q hspans).ge⟩, ?_, ?_⟩
      · rw [honly q hspans]
        exact hblank
      · have hpos := List.length_pos_iff.2 hwsne
        exact (Delimiter.spans_fragment_iff hws).2 ⟨0, rfl, DoubledAt.zero_iff.2 ⟨_, hr⟩, by omega⟩
      · rw [strip_blanks hblank]
      · rw [hdrop 0, hr]
        rfl

theorem not_spans_of_fragment?_eq_none {cs : List Char} (h : Instruction.fragment? k.closer cs = none) (q : Nat) :
    ¬k.Spans (k.opener :: k.opener :: cs) 0 q := by
  obtain ⟨ws, body, rfl, hws, hbody⟩ :
      ∃ ws body, cs = ws ++ body ∧ IsBlankText ws ∧ body.dropWhile isBlank = body :=
    ⟨_, _, List.takeWhile_append_dropWhile.symm, isBlankText_takeWhile cs, List.dropWhile_idempotent _ cs⟩
  rw [Instruction.fragment?_blanks_append hws hbody] at h
  intro hspans
  obtain ⟨p, rfl, hc, hpos⟩ := (Delimiter.spans_fragment_iff hws).1 hspans
  cases hs : Instruction.shortest? k.closer body with
  | some found =>
    rw [hs] at h
    cases h
  | none =>
    rw [hs] at h
    rcases Nat.eq_zero_or_pos p with rfl | hp
    · obtain ⟨rest, hrest⟩ := DoubledAt.zero_iff.1 hc
      have hwsne : ws ≠ [] := List.length_pos_iff.1 (by omega)
      have hclosed : Instruction.closed? k.closer body = some rest := by
        rw [Instruction.closed?_eq_some_iff, hbody, hrest]
      simp [hwsne, hclosed] at h
    · exact Instruction.not_doubledAt_of_shortest?_eq_none k.isBlank_closer hs hp hc

end Fragments

namespace Instruction

theorem delimited?_cons (k : Delimiter) (cs : List Char) :
    delimited? (k.opener :: k.opener :: cs) =
      (fragment? k.closer cs).map fun (code, rest) => (k.instruction (.ofList code), rest) := by
  cases k <;> rfl

theorem exists_opener_of_delimited? {cs rest : List Char} {i : Instruction} (h : delimited? cs = some (i, rest)) :
    ∃ k : Delimiter, ∃ cs', cs = k.opener :: k.opener :: cs' := by
  unfold delimited? at h
  split at h
  · exact ⟨.value, _, rfl⟩
  · exact ⟨.action, _, rfl⟩
  · cases h

theorem exists_closes_of_delimited? {cs rest : List Char} {i : Instruction} (h : delimited? cs = some (i, rest)) :
    ∃ k : Delimiter, ∃ q, k.Closes cs 0 q ∧ i = k.instruction (.ofList (strip (between cs 0 q))) ∧
      rest = cs.drop (q + 2) := by
  obtain ⟨k, cs, rfl⟩ := exists_opener_of_delimited? h
  rw [delimited?_cons] at h
  obtain ⟨⟨code, r⟩, hf, heq⟩ := Option.map_eq_some_iff.1 h
  cases heq
  obtain ⟨q, hq, rfl, hr⟩ := exists_closes_of_fragment? hf
  exact ⟨k, q, hq, rfl, hr⟩

theorem not_opens_of_delimited?_eq_none {cs : List Char} (h : delimited? cs = none) : ¬Opens cs 0 := by
  rintro ⟨k, q, hspans⟩
  obtain ⟨rest, rfl⟩ := DoubledAt.zero_iff.1 hspans.opens
  rw [delimited?_cons, Option.map_eq_none_iff] at h
  exact not_spans_of_fragment?_eq_none h q hspans

theorem flush_eq (pending : List Char) : flush pending = literals pending.reverse := by
  unfold flush literals
  rw [List.isEmpty_reverse]

theorem scanFrom_of_some {pending cs rest : List Char} {i : Instruction} (h : delimited? cs = some (i, rest)) :
    scanFrom pending cs = flush pending ++ i :: scanFrom [] rest := by
  rw [scanFrom.eq_def]
  split
  · rename_i heq
    rw [h] at heq
    cases heq
    rfl
  · rename_i heq
    rw [h] at heq
    cases heq

theorem scanFrom_cons_of_none {pending cs : List Char} {c : Char} (h : delimited? (c :: cs) = none) :
    scanFrom pending (c :: cs) = scanFrom (c :: pending) cs := by
  rw [scanFrom.eq_def]
  split
  · rename_i heq
    rw [h] at heq
    cases heq
  · rfl

theorem scans_append_of_delimited? {pre cs rest : List Char} {i : Instruction} {is : List Instruction}
    (hpre : ∀ p < pre.length, ¬Opens (pre ++ cs) p) (h : delimited? cs = some (i, rest)) (hrest : Scans rest is) :
    Scans (pre ++ cs) (literals pre ++ i :: is) := by
  obtain ⟨k, q, hclosed, rfl, rfl⟩ := exists_closes_of_delimited? h
  have hfirst : IsLeast {p | Opens (pre ++ cs) p} pre.length :=
    ⟨opens_append.2 ⟨k, q, hclosed.spans⟩, fun p hp => not_lt.1 fun hlt => hpre p hlt hp⟩
  have hbetween : between (pre ++ cs) (pre.length + 0) (pre.length + q) = between cs 0 q := between_append
  have hdrop : Scans ((pre ++ cs).drop (pre.length + q + 2)) is := by
    rw [Nat.add_assoc, List.drop_length_add_append]
    exact hrest
  have hscans := Scans.fragment hfirst hclosed.append hdrop
  rw [Nat.add_zero] at hbetween
  rw [hbetween, List.take_left] at hscans
  exact hscans

/-- What is pending holds no delimiter; with it in front, the scanner reads the source by the rules. -/
theorem scanFrom_scans (pending cs : List Char) (h : ∀ p < pending.length, ¬Opens (pending.reverse ++ cs) p) :
    Scans (pending.reverse ++ cs) (scanFrom pending cs) := by
  induction pending, cs using scanFrom.induct with
  | case1 pending cs i rest hd _ ih =>
    rw [scanFrom_of_some hd, flush_eq]
    have hrest : Scans rest (scanFrom [] rest) := ih fun p hp => absurd hp (Nat.not_lt_zero p)
    exact scans_append_of_delimited? (fun p hp => h p (by simpa using hp)) hd hrest
  | case2 pending hd =>
    have hnil : scanFrom pending [] = literals pending.reverse := by
      rw [scanFrom.eq_def, ← flush_eq]
      rfl
    rw [hnil, List.append_nil] at *
    refine .literal fun p hp => h p ?_ hp
    obtain ⟨k, q, hspans⟩ := hp
    have hlt := hspans.opens.lt_length
    rw [List.length_reverse] at hlt
    omega
  | case3 pending c cs hd ih =>
    have happend : (c :: pending).reverse ++ cs = pending.reverse ++ c :: cs := by simp
    rw [scanFrom_cons_of_none hd]
    rw [happend] at ih
    refine ih fun p hp => ?_
    rcases Nat.lt_succ_iff_lt_or_eq.1 hp with hlt | rfl
    · exact h p hlt
    · -- the character that becomes pending opens nothing
      have hnone : ¬Opens (pending.reverse ++ c :: cs) (pending.reverse.length + 0) :=
        mt opens_append.1 (not_opens_of_delimited?_eq_none hd)
      rwa [List.length_reverse, Nat.add_zero] at hnone

end Instruction

/-! ## Scanning -/

theorem scan_scans (source : String) : Scans source.toList (Instruction.scan source) :=
  Instruction.scanFrom_scans [] source.toList fun p hp => absurd hp (Nat.not_lt_zero p)

/-- A text without delimiters is one literal. -/
theorem scan_eq_literals {source : String} (h : ∀ p, ¬Opens source.toList p) :
    Instruction.scan source = literals source.toList :=
  (scan_scans source).unique (.literal h)

theorem mem_between {c : Char} {cs : List Char} {n p q : Nat} (h : DoubledAt c cs n) (hp : p + 2 ≤ n) (hq : n < q) :
    c ∈ between cs p q := by
  have hget : (between cs p q)[n - (p + 2)]? = some c := by
    unfold between
    rw [List.getElem?_drop, List.getElem?_take, if_pos (by omega), show p + 2 + (n - (p + 2)) = n by omega,
      h.getElem?_eq]
  exact List.mem_of_getElem? hget

/-- Scanning reads a source by the rules. So the first closer of a delimiter closes it, unless only blanks stand before
that one and another one stands anywhere behind. -/
theorem scan_eq_iff (source : String) :
    (∀ is, Instruction.scan source = is ↔ Scans source.toList is) ∧
    ∀ (k : Delimiter) p q, IsLeast {q | k.Spans source.toList p q} q →
      (k.Closes source.toList p q ↔
        (IsBlankText (between source.toList p q) → ∀ q', q < q' → ¬DoubledAt k.closer source.toList q')) := by
  refine ⟨fun is => ⟨?_, fun h => (scan_scans source).unique h⟩, fun k p q hleast => ⟨?_, fun h => ?_⟩⟩
  · rintro rfl
    exact scan_scans source
  · intro hclosed hblank q' hlt hdoubled
    cases hclosed with
    | filled h => exact h.1.2 hblank
    | blank hall _ =>
      -- the closer at `q` would stand in between, and it is no blank
      have hapart := hleast.1.apart
      have hspans : k.Spans source.toList p q' := ⟨hleast.1.opens, hdoubled, by omega⟩
      have hcloser := hall q' hspans _ (mem_between hleast.1.closes (by omega) hlt)
      rw [k.isBlank_closer] at hcloser
      cases hcloser
  · by_cases hblank : IsBlankText (between source.toList p q)
    · have honly : ∀ q', k.Spans source.toList p q' → q' = q := fun q' hspans =>
        le_antisymm (not_lt.1 fun hlt => h hblank q' hlt hspans.closes) (hleast.2 hspans)
      refine .blank (fun q' hspans => ?_) hleast
      rw [honly q' hspans]
      exact hblank
    · exact .filled ⟨⟨hleast.1, hblank⟩, fun q' hq' => hleast.2 hq'.1⟩

theorem scan_eq_iff_blank :
    (Instruction.scan "<< >>" = [.statement ""] ↔ Scans "<< >>".toList [.statement ""]) ∧
    IsLeast {q | Delimiter.action.Spans "<< >>".toList 0 q} 3 ∧
    (Delimiter.action.Closes "<< >>".toList 0 3 ↔
      (IsBlankText (between "<< >>".toList 0 3) → ∀ q', 3 < q' → ¬DoubledAt '>' "<< >>".toList q')) :=
  have hleast : IsLeast {q | Delimiter.action.Spans "<< >>".toList 0 q} 3 :=
    ⟨⟨⟨_, rfl⟩, ⟨_, rfl⟩, by omega⟩, fun _ h => h.apart⟩
  ⟨(scan_eq_iff "<< >>").1 _, hleast, (scan_eq_iff "<< >>").2 .action 0 3 hleast⟩

/-- The closer right after the blanks is passed over for the one behind. -/
example : Instruction.scan "<< >> a >>" = [.statement ">> a"] := by decide +kernel

/-! ## The pieces of a source -/

/-- The text that an instruction is cut out as. -/
inductive Piece : Instruction → List Char → Prop
  | literal (text : String) : Piece (.literal text) text.toList
  | fragment (k : Delimiter) (inner : List Char) :
      Piece (k.instruction (.ofList (strip inner))) (k.opener :: k.opener :: (inner ++ [k.closer, k.closer]))

def Instruction.IsLiteral (i : Instruction) : Prop := ∃ text, i = .literal text

theorem Delimiter.not_isLiteral_instruction (k : Delimiter) (code : String) : ¬(k.instruction code).IsLiteral := by
  rintro ⟨text, h⟩
  cases k <;> cases h

/-- A delimiter is its opener, what stands between, and its closer. -/
theorem Delimiter.Spans.cut {k : Delimiter} {cs : List Char} {p q : Nat} (h : k.Spans cs p q) :
    cs = cs.take p ++ (k.opener :: k.opener :: (between cs p q ++ [k.closer, k.closer])) ++ cs.drop (q + 2) := by
  have hclose := h.closes.cut
  have hopen : cs.take q = cs.take p ++ k.opener :: k.opener :: between cs p q := by
    have hapart := h.apart
    have hsplit : (cs.take q).drop p = k.opener :: k.opener :: (cs.take q).drop (p + 2) := by
      refine DoubledAt.eq ?_
      unfold DoubledAt
      rw [List.drop_take, h.opens.eq, show q - p = (q - p - 2) + 1 + 1 by omega]
      exact ⟨_, rfl⟩
    have htake := List.take_append_drop p (cs.take q)
    rw [hsplit, List.take_take, Nat.min_eq_left (by omega)] at htake
    exact htake.symm
  rw [hopen] at hclose
  simpa using hclose

theorem literals_pieces (cs : List Char) :
    ∃ pieces, List.Forall₂ Piece (literals cs) pieces ∧ pieces.flatten = cs := by
  unfold literals
  split
  · rename_i hnil
    exact ⟨[], .nil, (List.isEmpty_iff.1 hnil).symm⟩
  · exact ⟨[cs], .cons (by simpa using Piece.literal (.ofList cs)) .nil, by simp⟩

theorem mem_literals {cs : List Char} {text : String} (h : .literal text ∈ literals cs) :
    text.toList = cs ∧ cs ≠ [] := by
  unfold literals at h
  split at h
  · cases h
  · rename_i hne
    cases List.mem_singleton.1 h
    exact ⟨by simp, by simpa using hne⟩

namespace Scans

variable {cs : List Char} {is : List Instruction}

theorem pieces (h : Scans cs is) : ∃ pieces, List.Forall₂ Piece is pieces ∧ pieces.flatten = cs := by
  induction h with
  | literal => exact literals_pieces _
  | @fragment cs is k p q _ closed _ ih =>
    obtain ⟨before, hbefore, heq⟩ := literals_pieces (cs.take p)
    obtain ⟨after, hafter, heq'⟩ := ih
    refine ⟨before ++ _ :: after, List.rel_append hbefore (.cons (.fragment k (between cs p q)) hafter), ?_⟩
    rw [List.flatten_append, List.flatten_cons, heq, heq', ← List.append_assoc]
    exact closed.spans.cut.symm

/-- No delimiter opens in a literal: it would have opened in the source. -/
theorem literal_plain (h : Scans cs is) {text : String} (hmem : .literal text ∈ is) :
    text ≠ "" ∧ ∀ p, ¬Opens text.toList p := by
  have hne : ∀ {cs : List Char}, text.toList = cs ∧ cs ≠ [] → text ≠ "" := by
    rintro _ ⟨rfl, hcs⟩ rfl
    exact hcs rfl
  induction h with
  | literal hnone =>
    have htext := mem_literals hmem
    exact ⟨hne htext, by rw [htext.1]; exact hnone⟩
  | @fragment cs is k p q first _ _ ih =>
    rcases List.mem_append.1 hmem with hmem | hmem
    · have htext := mem_literals hmem
      refine ⟨hne htext, fun p' hopens => ?_⟩
      rw [htext.1] at hopens
      obtain ⟨hopens, hlt⟩ := hopens.of_take
      exact absurd (first.2 hopens) (not_le.2 hlt)
    · rcases List.mem_cons.1 hmem with heq | hmem
      · exact absurd ⟨text, heq.symm⟩ (k.not_isLiteral_instruction _)
      · exact ih hmem

theorem literals_apart (h : Scans cs is) : is.IsChain fun i j => ¬(i.IsLiteral ∧ j.IsLiteral) := by
  induction h with
  | @literal cs hnone =>
    unfold literals
    split
    · exact .nil
    · exact .singleton _
  | @fragment cs is k p q _ _ _ ih =>
    have hrest : (k.instruction (.ofList (strip (between cs p q))) :: is).IsChain
        fun i j => ¬(i.IsLiteral ∧ j.IsLiteral) := by
      refine List.isChain_cons.2 ⟨fun j _ h => k.not_isLiteral_instruction _ h.1, ih⟩
    unfold literals
    split
    · exact hrest
    · exact List.isChain_cons_cons.2 ⟨fun h => k.not_isLiteral_instruction _ h.2, hrest⟩

end Scans

/-- A text without delimiters is put out as it stands, whatever the context, and nothing else happens. -/
theorem render_plain {source : String} (h : ∀ p, ¬Opens source.toList p) :
    ∃ t, compile source = .ok t ∧ ∀ (host : Host) (base : Bindings) (context : Option Nat) (w : World),
      (t.render host base context).run.run w = (.ok source, w) := by
  have hscan := scan_eq_literals h
  unfold literals at hscan
  split at hscan
  · rename_i hnil
    have hempty : source = "" := String.toList_injective (List.isEmpty_iff.1 hnil)
    refine ⟨⟨[], []⟩, ?_, fun host base context w => ?_⟩
    · unfold compile
      rw [hscan]
      rfl
    · rw [hempty]
      rfl
  · refine ⟨⟨[.literal source], [.text source]⟩, ?_, fun host base context w => ?_⟩
    · unfold compile
      rw [hscan, String.ofList_toList]
      rfl
    · have hrun : ((Template.render host base ⟨[.literal source], [.text source]⟩ context).run.run w) =
          (.ok ("" ++ source), w) := rfl
      rw [hrun, String.empty_append]

/-- The instructions of a source are cut out of it one after the other. Literals hold something, but no delimiter, and
never follow one another; so a source without delimiters is put out as it stands. -/
theorem scan_pieces (source : String) :
    (∃ pieces, List.Forall₂ Piece (Instruction.scan source) pieces ∧ pieces.flatten = source.toList) ∧
    (∀ text, .literal text ∈ Instruction.scan source → text ≠ "" ∧ Instruction.scan text = [.literal text]) ∧
    ((Instruction.scan source).IsChain fun i j => ¬(i.IsLiteral ∧ j.IsLiteral)) ∧
    ((∀ p, ¬Opens source.toList p) → ∃ t, compile source = .ok t ∧
      ∀ (host : Host) (base : Bindings) (context : Option Nat) (w : World),
        (t.render host base context).run.run w = (.ok source, w)) := by
  have hscans := scan_scans source
  refine ⟨hscans.pieces, fun text hmem => ?_, hscans.literals_apart, render_plain⟩
  obtain ⟨hne, hplain⟩ := hscans.literal_plain hmem
  refine ⟨hne, ?_⟩
  rw [scan_eq_literals hplain]
  unfold literals
  rw [if_neg (by simpa using hne), String.ofList_toList]

theorem scan_pieces_unclosed :
    (.literal "< " ∈ Instruction.scan "< <<a>> <<" ∧ Instruction.scan "< " = [.literal "< "]) ∧
    (∀ p, ¬Opens "a << b".toList p) ∧ ∃ t, compile "a << b" = .ok t ∧
      ∀ (host : Host) (base : Bindings) (context : Option Nat) (w : World),
        (t.render host base context).run.run w = (.ok "a << b", w) := by
  have hmem : .literal "< " ∈ Instruction.scan "< <<a>> <<" := by decide +kernel
  have hplain : ∀ p, ¬Opens "a << b".toList p := by
    rintro p ⟨k, q, hspans⟩
    have hcloser := hspans.closes.mem
    revert hcloser
    cases k <;> decide
  exact ⟨⟨hmem, ((scan_pieces _).2.1 _ hmem).2⟩, hplain, (scan_pieces _).2.2.2 hplain⟩

end NestedSite.Template
