import Mathlib.Data.List.Basic
import Mathlib.Tactic.IntervalCases
import NestedSite.Template.Dollar
import NestedSite.Template.Grammar

/-!
# The words of a text

`IsWordIn w cs` says that `w` is a word of the text `cs`, where `$` counts as a letter. What is cut out of a text has
its words from there (`IsWordIn.within`, `IsWordIn.of_append`). A text in which `_dollar_` is written for `$`, or a
line feed for another line end, has no other words than the text that it was written for: each is a word of that text,
or what it is spelled as (`Respells.isWordIn`).
-/

namespace NestedSite.Template

open Text

/-! ## Words -/

/-- A character of a word: one that an identifier may hold, or `$`. -/
def isNameChar (c : Char) : Bool := Token.isWordChar c || c == '$'

/-- A character that no word goes on with. -/
def separates (c : Char) : Bool := isBlank c || !isNameChar c

/-- Whether a text begins with a word that may stand right after a number. -/
def followsNumber (cs : List Char) : Bool :=
  ["and", "else", "for", "if", "in", "is", "or", "not"].any fun word => word.toList.isPrefixOf cs

/-- `w` is a word of `cs`: no letter stands right after it, and none right before it unless it may follow a number. -/
def IsWordIn (w cs : List Char) : Prop :=
  ∃ before after, cs = before ++ (w ++ after) ∧ w ≠ [] ∧ (∀ c ∈ w, isNameChar c = true) ∧
    (∀ c ∈ after.head?, separates c = true) ∧
    ((∀ c ∈ before.getLast?, separates c = true) ∨ followsNumber (w ++ after) = true)

/-- No word of a text goes on from `before` into `cs`. -/
def IsCut (before cs : List Char) : Prop :=
  (∀ c ∈ before.getLast?, separates c = true) ∨ (∀ c ∈ cs.head?, isNameChar c = false) ∨ followsNumber cs = true

theorem separates_of_not {c : Char} (h : isNameChar c = false) : separates c = true := by simp [separates, h]

theorem followsNumber_iff {cs : List Char} : followsNumber cs = true ↔
    ∃ word ∈ ["and", "else", "for", "if", "in", "is", "or", "not"], word.toList <+: cs := by
  simp only [followsNumber, List.any_eq_true, List.isPrefixOf_iff_prefix]

theorem followsNumber_append {cs : List Char} (h : followsNumber cs = true) (more : List Char) :
    followsNumber (cs ++ more) = true := by
  obtain ⟨word, hword, hbegins⟩ := followsNumber_iff.mp h
  exact followsNumber_iff.mpr ⟨word, hword, hbegins.trans (List.prefix_append cs more)⟩

theorem followers_letters : ∀ word ∈ ["and", "else", "for", "if", "in", "is", "or", "not"],
    ∀ c ∈ word.toList, isNameChar c = true ∧ c ≠ '_' ∧ c ≠ '\n' := by
  intro word hword c hc
  have hall : ["and", "else", "for", "if", "in", "is", "or", "not"].all (fun word =>
      word.toList.all fun c => isNameChar c && c != '_' && c != '\n') = true := by decide
  simpa [and_assoc] using List.all_eq_true.mp (List.all_eq_true.mp hall word hword) c hc

/-- What begins with a follower of numbers does so before the first character that is no letter. -/
theorem followsNumber_of_append {cs more : List Char} (h : followsNumber (cs ++ more) = true)
    (hmore : ∀ c ∈ more.head?, isNameChar c = false) : followsNumber cs = true := by
  obtain ⟨word, hword, hbegins⟩ := followsNumber_iff.mp h
  refine followsNumber_iff.mpr ⟨word, hword, ?_⟩
  rcases List.prefix_or_prefix_of_prefix hbegins (List.prefix_append cs more) with hinside | ⟨rest, hrest⟩
  · exact hinside
  · rw [← hrest, List.prefix_append_right_inj] at hbegins
    cases rest with
    | nil => exact ⟨[], by rw [List.append_nil, ← hrest, List.append_nil]⟩
    | cons c rest =>
      obtain ⟨others, rfl⟩ := hbegins
      have hletter := (followers_letters word hword c (by rw [← hrest]; simp)).1
      rw [hmore c rfl] at hletter
      cases hletter

variable {w cs x y : List Char}

/-- The words of a part that is cut out of a text are words of the text. -/
theorem IsWordIn.within (h : IsWordIn w cs) (hx : IsCut x (cs ++ y)) (hy : ∀ c ∈ y.head?, separates c = true) :
    IsWordIn w (x ++ (cs ++ y)) := by
  obtain ⟨before, after, rfl, hw, hletters, hafter, hbefore⟩ := h
  refine ⟨x ++ before, after ++ y, by simp, hw, hletters, ?_, ?_⟩
  · cases after with
    | nil => exact hy
    | cons c after => exact hafter
  · rcases hbefore with hseparates | hfollows
    · cases before with
      | nil =>
        rw [List.append_nil]
        rcases hx with hlast | hhead | hfollows
        · exact .inl hlast
        · obtain ⟨c, rest, rfl⟩ := List.exists_cons_of_ne_nil hw
          have hletter := hletters c List.mem_cons_self
          rw [hhead c rfl] at hletter
          cases hletter
        · exact .inr (by simpa using hfollows)
      | cons c before => exact .inl (by simpa [List.getLast?_append] using hseparates)
    · exact .inr (by simpa using followsNumber_append hfollows y)

theorem IsWordIn.after (h : IsWordIn w cs) (hx : IsCut x cs) : IsWordIn w (x ++ cs) := by
  simpa using h.within (x := x) (y := []) (by simpa using hx) (by simp)

theorem IsWordIn.before (h : IsWordIn w cs) (hy : ∀ c ∈ y.head?, separates c = true) : IsWordIn w (cs ++ y) :=
  h.within (x := []) (.inl (by simp)) hy

/-- No word goes across a character that is no letter. -/
theorem IsWordIn.of_append (h : IsWordIn w (x ++ y)) (hy : ∀ c ∈ y.head?, isNameChar c = false) :
    IsWordIn w x ∨ IsWordIn w y := by
  obtain ⟨before, after, heq, hw, hletters, hafter, hbefore⟩ := h
  have hnot {c : Char} {rest : List Char} (hc : c ∈ w) (hrest : y = c :: rest) : False := by
    have hletter := hletters c hc
    rw [hy c (by rw [hrest]; rfl)] at hletter
    cases hletter
  rcases List.append_eq_append_iff.mp heq with ⟨more, rfl, rfl⟩ | ⟨more, rfl, hmore⟩
  · -- the word stands in `y`, after its first character
    refine .inr ⟨more, after, rfl, hw, hletters, hafter, ?_⟩
    rcases hbefore with hseparates | hfollows
    · cases more with
      | nil => exact .inl (by simp)
      | cons c more => exact .inl (by simpa [List.getLast?_append] using hseparates)
    · exact .inr hfollows
  · rcases List.append_eq_append_iff.mp hmore with ⟨rest, rfl, rfl⟩ | ⟨rest, rfl, hrest⟩
    · refine .inl ⟨before, rest, rfl, hw, hletters, ?_, hbefore.imp_right fun hfollows => ?_⟩
      · cases rest with
        | nil => simp
        | cons c rest => exact hafter
      · rw [← List.append_assoc] at hfollows
        exact followsNumber_of_append hfollows hy
    · cases rest with
      | nil =>
        rw [List.nil_append] at hrest
        subst hrest
        rw [List.append_nil] at hw hletters hbefore ⊢
        refine .inl ⟨before, [], by simp, hw, hletters, by simp, hbefore.imp_right fun hfollows => ?_⟩
        rw [List.append_nil]
        exact followsNumber_of_append hfollows hy
      | cons c rest => exact (hnot (by simp) hrest).elim

theorem IsWordIn.of_cons {c : Char} (h : IsWordIn w (c :: cs)) (hc : isNameChar c = false) : IsWordIn w cs := by
  obtain ⟨before, after, heq, hw, hletters, hafter, hbefore⟩ := h
  cases before with
  | nil =>
    obtain ⟨d, rest, rfl⟩ := List.exists_cons_of_ne_nil hw
    cases heq
    have hletter := hletters c List.mem_cons_self
    rw [hc] at hletter
    cases hletter
  | cons d before =>
    cases heq
    refine ⟨before, after, rfl, hw, hletters, hafter, hbefore.imp_left fun hseparates => ?_⟩
    cases before with
    | nil => simp
    | cons d before => exact hseparates

/-- A text without letters has no words. -/
theorem not_isWordIn (h : ∀ c ∈ cs, isNameChar c = false) : ¬IsWordIn w cs := by
  rintro ⟨before, after, rfl, hw, hletters, -⟩
  obtain ⟨c, rest, rfl⟩ := List.exists_cons_of_ne_nil hw
  have hletter := hletters c List.mem_cons_self
  rw [h c (by simp)] at hletter
  cases hletter

/-! ## Other spellings -/

/-- A word as it is written in code. -/
def spelled (w : List Char) : List Char := w.flatMap (Dollar.written true)

@[simp] theorem spelled_nil : spelled [] = [] := rfl

theorem spelled_cons (c : Char) (w : List Char) : spelled (c :: w) = Dollar.written true c ++ spelled w := rfl

theorem spelled_append (v w : List Char) : spelled (v ++ w) = spelled v ++ spelled w := List.flatMap_append ..

theorem spelled_of_not_mem (h : '$' ∉ w) : spelled w = w := by
  induction w with
  | nil => rfl
  | cons c w ih =>
    obtain ⟨hc, hw⟩ := List.ne_and_not_mem_of_not_mem_cons h
    rw [spelled_cons, ih hw]
    simp [Dollar.written, hc.symm]

theorem spelled_dollar (w : List Char) : spelled ('$' :: w) = dollarMark.toList ++ spelled w := rfl

/-- The second text is the first one with `_dollar_` for some `$` of it, and a line feed for some of its line ends. -/
inductive Respells : List Char → List Char → Prop
  | nil : Respells [] []
  | keep (c : Char) {cs gs : List Char} : Respells cs gs → Respells (c :: cs) (c :: gs)
  | mark {cs gs : List Char} : Respells cs gs → Respells ('$' :: cs) (dollarMark.toList ++ gs)
  | lineEnd {cs gs : List Char} : Respells cs gs → Respells ('\r' :: cs) ('\n' :: gs)
  | lineEnds {cs gs : List Char} : Respells cs gs → Respells ('\r' :: '\n' :: cs) ('\n' :: gs)

theorem respells_mangleFrom (stack : List Dollar.Region) (taken : Nat) (before cs : List Char) :
    Respells cs (Dollar.mangleFrom stack taken before cs) := by
  induction cs generalizing stack taken before with
  | nil => exact .nil
  | cons c cs ih =>
    cases taken with
    | succ k => exact .keep c (ih _ _ _)
    | zero =>
      unfold Dollar.mangleFrom
      dsimp only
      unfold Dollar.written
      split
      · rename_i hcode
        rw [beq_iff_eq.mp (Bool.and_eq_true _ _ |>.mp hcode).2]
        exact .mark (ih _ _ _)
      · exact .keep c (ih _ _ _)

theorem respells_mangle (fragment : String) : Respells fragment.toList (mangle fragment).toList := by
  rw [mangle, String.toList_ofList]
  exact respells_mangleFrom _ _ _ _

theorem respells_unifyLineEnds (cs : List Char) : Respells cs (unifyLineEnds cs) := by
  induction cs using unifyLineEnds.induct with
  | case1 cs ih => exact .lineEnds ih
  | case2 cs hcs ih =>
    rw [unifyLineEnds]
    · exact .lineEnd ih
    · exact hcs
  | case3 c cs h h' ih =>
    rw [unifyLineEnds]
    · exact .keep c ih
    · exact h
    · exact h'
  | case4 => exact .nil

namespace Respells

variable {gs : List Char}

theorem ne_nil (h : Respells cs gs) (hcs : cs ≠ []) : gs ≠ [] := by
  cases h
  case nil => exact hcs
  all_goals simp [dollarMark]

/-- Where the second text is cut, the first one is cut as well, unless the cut goes through a `_dollar_`. -/
theorem split (h : Respells cs gs) (heq : gs = x ++ y) :
    (∃ a b, cs = a ++ b ∧ Respells a x ∧ Respells b y) ∨
      ∃ m m' x' y', dollarMark.toList = m ++ m' ∧ m ≠ [] ∧ m' ≠ [] ∧ x = x' ++ m ∧ y = m' ++ y' := by
  induction h generalizing x y with
  | nil =>
    obtain ⟨rfl, rfl⟩ := List.append_eq_nil_iff.mp heq.symm
    exact .inl ⟨[], [], rfl, .nil, .nil⟩
  | @keep c cs gs hrest ih =>
    cases x with
    | nil =>
      subst heq
      exact .inl ⟨[], c :: cs, rfl, .nil, .keep c hrest⟩
    | cons d x =>
      cases heq
      rcases ih rfl with ⟨a, b, rfl, ha, hb⟩ | ⟨m, m', x', y', hm, hne, hne', rfl, rfl⟩
      · exact .inl ⟨c :: a, b, rfl, .keep c ha, hb⟩
      · exact .inr ⟨m, m', c :: x', y', hm, hne, hne', rfl, rfl⟩
  | @mark cs gs hrest ih =>
    rcases List.append_eq_append_iff.mp heq with ⟨more, rfl, rfl⟩ | ⟨more, hmark, rfl⟩
    · rcases ih rfl with ⟨a, b, rfl, ha, hb⟩ | ⟨m, m', x', y', hm, hne, hne', rfl, rfl⟩
      · exact .inl ⟨'$' :: a, b, rfl, .mark ha, hb⟩
      · exact .inr ⟨m, m', dollarMark.toList ++ x', y', hm, hne, hne', by simp, rfl⟩
    · by_cases hx : x = []
      · subst hx
        exact .inl ⟨[], '$' :: cs, rfl, .nil, by rw [List.nil_append] at hmark; exact hmark ▸ .mark hrest⟩
      by_cases hmore : more = []
      · subst hmore
        rw [List.append_nil] at hmark
        exact .inl ⟨['$'], cs, rfl, by rw [← hmark, ← List.append_nil dollarMark.toList]; exact .mark .nil, hrest⟩
      · exact .inr ⟨x, more, [], gs, hmark, hx, hmore, rfl, rfl⟩
  | @lineEnd cs gs hrest ih =>
    cases x with
    | nil =>
      subst heq
      exact .inl ⟨[], '\r' :: cs, rfl, .nil, .lineEnd hrest⟩
    | cons d x =>
      cases heq
      rcases ih rfl with ⟨a, b, rfl, ha, hb⟩ | ⟨m, m', x', y', hm, hne, hne', rfl, rfl⟩
      · exact .inl ⟨'\r' :: a, b, rfl, .lineEnd ha, hb⟩
      · exact .inr ⟨m, m', '\n' :: x', y', hm, hne, hne', rfl, rfl⟩
  | @lineEnds cs gs hrest ih =>
    cases x with
    | nil =>
      subst heq
      exact .inl ⟨[], '\r' :: '\n' :: cs, rfl, .nil, .lineEnds hrest⟩
    | cons d x =>
      cases heq
      rcases ih rfl with ⟨a, b, rfl, ha, hb⟩ | ⟨m, m', x', y', hm, hne, hne', rfl, rfl⟩
      · exact .inl ⟨'\r' :: '\n' :: a, b, rfl, .lineEnds ha, hb⟩
      · exact .inr ⟨m, m', '\n' :: x', y', hm, hne, hne', rfl, rfl⟩

theorem head_separates (h : Respells cs gs) (hgs : ∀ c ∈ gs.head?, separates c = true) :
    ∀ c ∈ cs.head?, separates c = true := by
  cases h with
  | nil => simp
  | keep c => exact hgs
  | mark => exact absurd (hgs '_' rfl) (by decide)
  | lineEnd | lineEnds =>
    rintro c ⟨⟩
    decide

theorem last_separates (h : Respells cs gs) (hgs : ∀ c ∈ gs.getLast?, separates c = true) :
    ∀ c ∈ cs.getLast?, separates c = true := by
  induction h with
  | nil => simp
  | @keep c cs gs hrest ih =>
    by_cases hcs : cs = []
    · subst hcs
      cases hrest
      exact hgs
    · rw [List.getLast?_cons_of_ne_nil hcs]
      exact ih (by rwa [List.getLast?_cons_of_ne_nil (hrest.ne_nil hcs)] at hgs)
  | @mark cs gs hrest ih =>
    by_cases hcs : cs = []
    · subst hcs
      cases hrest
      exact absurd (hgs '_' rfl) (by decide)
    · rw [List.getLast?_cons_of_ne_nil hcs]
      exact ih (by rwa [List.getLast?_append_of_ne_nil _ (hrest.ne_nil hcs)] at hgs)
  | @lineEnd cs gs hrest ih =>
    by_cases hcs : cs = []
    · subst hcs
      rintro c ⟨⟩
      decide
    · rw [List.getLast?_cons_of_ne_nil hcs]
      exact ih (by rwa [List.getLast?_cons_of_ne_nil (hrest.ne_nil hcs)] at hgs)
  | @lineEnds cs gs hrest ih =>
    by_cases hcs : cs = []
    · subst hcs
      rintro c ⟨⟩
      decide
    · rw [List.getLast?_cons_of_ne_nil (List.cons_ne_nil _ _), List.getLast?_cons_of_ne_nil hcs]
      exact ih (by rwa [List.getLast?_cons_of_ne_nil (hrest.ne_nil hcs)] at hgs)

/-- A word, and what it is written for. -/
theorem letters (h : Respells cs gs) (hgs : ∀ c ∈ gs, isNameChar c = true) :
    (∀ c ∈ cs, isNameChar c = true) ∧ spelled cs = spelled gs := by
  induction h with
  | nil => simp
  | keep c _ ih =>
    obtain ⟨hc, hrest⟩ := List.forall_mem_cons.mp hgs
    obtain ⟨hcs, hspelled⟩ := ih hrest
    exact ⟨List.forall_mem_cons.mpr ⟨hc, hcs⟩, by rw [spelled_cons, spelled_cons, hspelled]⟩
  | mark _ ih =>
    obtain ⟨hcs, hspelled⟩ := ih fun c hc => hgs c (List.mem_append_right _ hc)
    refine ⟨List.forall_mem_cons.mpr ⟨rfl, hcs⟩, ?_⟩
    rw [spelled_dollar, spelled_append, hspelled, spelled_of_not_mem (w := dollarMark.toList) (by decide)]
  | lineEnd | lineEnds => exact absurd (hgs '\n' List.mem_cons_self) (by decide)

theorem prefix_of (h : Respells cs gs) {word : List Char} (hword : ∀ c ∈ word, c ≠ '_' ∧ c ≠ '\n')
    (hbegins : word <+: gs) : word <+: cs := by
  induction h generalizing word with
  | nil => exact hbegins
  | keep c _ ih =>
    cases word with
    | nil => exact List.nil_prefix
    | cons d word =>
      obtain ⟨rfl, hrest⟩ := List.cons_prefix_cons.mp hbegins
      exact List.cons_prefix_cons.mpr ⟨rfl, ih (fun c hc => hword c (List.mem_cons_of_mem _ hc)) hrest⟩
  | mark =>
    cases word with
    | nil => exact List.nil_prefix
    | cons d word => exact absurd (List.cons_prefix_cons.mp hbegins).1 (hword d List.mem_cons_self).1
  | lineEnd | lineEnds =>
    cases word with
    | nil => exact List.nil_prefix
    | cons d word => exact absurd (List.cons_prefix_cons.mp hbegins).1 (hword d List.mem_cons_self).2

theorem followsNumber (h : Respells cs gs) (hgs : followsNumber gs = true) : followsNumber cs = true := by
  obtain ⟨word, hword, hbegins⟩ := followsNumber_iff.mp hgs
  exact followsNumber_iff.mpr ⟨word, hword, h.prefix_of (fun c hc => (followers_letters word hword c hc).2) hbegins⟩

/-- A letter stands on both sides of a cut through a `_dollar_`, and nothing that may follow a number after it. -/
theorem mark_cut {m m' : List Char} (hm : dollarMark.toList = m ++ m') (hne : m ≠ []) (hne' : m' ≠ []) :
    (∃ c ∈ m.getLast?, separates c = false) ∧ (∃ c ∈ m'.head?, separates c = false) ∧
      ∀ rest, Template.followsNumber (m' ++ rest) = false := by
  obtain ⟨k, hk⟩ : ∃ k, m.length = k := ⟨_, rfl⟩
  have hleft : m = dollarMark.toList.take k := by rw [hm, ← hk, List.take_left]
  have hright : m' = dollarMark.toList.drop k := by rw [hm, ← hk, List.drop_left]
  have hpositive : 0 < k := hk ▸ List.length_pos_iff.mpr hne
  have hless : k < 8 := by
    have hlength : m.length + m'.length = 8 := by rw [← List.length_append, ← hm]; rfl
    have := List.length_pos_iff.mpr hne'
    omega
  subst hleft hright
  interval_cases k <;> exact ⟨⟨_, rfl, by decide⟩, ⟨_, rfl, by decide⟩, fun _ => rfl⟩

/-- The words of the second text are spelled as words of the first one. -/
theorem isWordIn (h : Respells cs gs) (hw : IsWordIn w gs) : ∃ v, IsWordIn v cs ∧ spelled v = spelled w := by
  obtain ⟨before, after, heq, hne, hletters, hafter, hbefore⟩ := hw
  rcases h.split heq with ⟨a, b, rfl, ha, hb⟩ | ⟨m, m', x', y', hm, hm0, hm0', rfl, hrest⟩
  · rcases hb.split rfl with ⟨v, b, rfl, hv, hb'⟩ | ⟨m, m', x', y', hm, hm0, hm0', -, rfl⟩
    · obtain ⟨hvletters, hspelled⟩ := hv.letters hletters
      refine ⟨v, ⟨a, b, rfl, ?_, hvletters, hb'.head_separates hafter, ?_⟩, hspelled⟩
      · rintro rfl
        cases hv
        exact hne rfl
      · exact hbefore.imp ha.last_separates hb.followsNumber
    · obtain ⟨c, hc, hcut⟩ := (mark_cut hm hm0 hm0').2.1
      have hhead : c ∈ (m' ++ y').head? := by
        obtain ⟨d, rest, rfl⟩ := List.exists_cons_of_ne_nil hm0'
        exact hc
      rw [hafter c hhead] at hcut
      cases hcut
  · obtain ⟨⟨c, hc, hcut⟩, -, hfollows⟩ := mark_cut hm hm0 hm0'
    rcases hbefore with hseparates | hfollows'
    · rw [hseparates c (by rw [List.getLast?_append_of_ne_nil _ hm0]; exact hc)] at hcut
      cases hcut
    · rw [hrest, hfollows] at hfollows'
      cases hfollows'

end Respells

/-! ## Words that are names -/

/-- The name that a word is written for in code. All compatible spellings are one name. -/
def nameOf (w : List Char) : String := .ofList (compatible (spelled w))

/-- The names that the words of a text are written for satisfy `P`, keywords apart. -/
def Words (P : String → Prop) (cs : List Char) : Prop :=
  ∀ w, IsWordIn w cs → String.ofList (spelled w) ∉ Parser.keywords → P (nameOf w)

namespace Words

variable {P : String → Prop}

theorem of_respells {gs : List Char} (h : Words P cs) (hgs : Respells cs gs) : Words P gs := by
  intro w hw hkeyword
  obtain ⟨v, hv, hspelled⟩ := hgs.isWordIn hw
  rw [nameOf, ← hspelled]
  exact h v hv (hspelled ▸ hkeyword)

theorem part (h : Words P (x ++ (cs ++ y))) (hx : IsCut x (cs ++ y)) (hy : ∀ c ∈ y.head?, separates c = true) :
    Words P cs := fun w hw => h w (hw.within hx hy)

theorem rest (h : Words P (x ++ cs)) (hx : IsCut x cs) : Words P cs := fun w hw => h w (hw.after hx)

end Words

end NestedSite.Template
