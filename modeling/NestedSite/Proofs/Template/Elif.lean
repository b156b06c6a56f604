import Mathlib.Data.List.Forall2
import NestedSite.Proofs.Template.Header
import NestedSite.Proofs.Template.Machine
import NestedSite.Proofs.Template.Nesting

/-!
# Further branches as conditions inside

A further branch is short for a condition in the other part of its choice:

* blocks that do the same may stand for one another in every tree (`Step.Same`), and a choice does the same as one that
  keeps some of its branches and has the choice between the others in its other part (`Step.same_under`);
* while instructions are taken, the two spellings leave nestings that differ by one block more that is open
  (`Nesting.Under`), and once that block is closed, by blocks that do the same (`Nesting.Alike`);
* `elif_nested`: the two spellings are accepted alike and render alike.
-/

namespace NestedSite.Template

open Text

/-! ## Blocks that do the same -/

namespace Step

/-- Blocks that do the same wherever they are executed. -/
def Same (b c : Block) : Prop := ∀ setting, execute setting b = execute setting c

def SameAll : List Block → List Block → Prop := List.Forall₂ Same

/-- Branches with the same tests whose bodies do the same. -/
def SameBranches : List (Expr × List Block) → List (Expr × List Block) → Prop :=
  List.Forall₂ fun x y => x.1 = y.1 ∧ SameAll x.2 y.2

theorem Same.refl (b : Block) : Same b b := fun _ => rfl

theorem SameAll.refl (bs : List Block) : SameAll bs bs := List.forall₂_same.2 fun b _ => Same.refl b

theorem SameBranches.refl (branches : List (Expr × List Block)) : SameBranches branches branches :=
  List.forall₂_same.2 fun x _ => ⟨rfl, .refl x.2⟩

variable {bs cs : List Block} {branches others : List (Expr × List Block)} {setting : Setting}

theorem SameAll.executeAll (h : SameAll bs cs) (setting : Setting) :
    Step.executeAll setting bs = Step.executeAll setting cs := by
  induction h with
  | nil => rfl
  | cons hfirst _ ih => rw [Step.executeAll, Step.executeAll, hfirst setting, ih]

theorem SameBranches.executeFirst (h : SameBranches branches others) (setting : Setting) :
    Step.executeFirst setting branches = Step.executeFirst setting others := by
  induction h with
  | nil => rfl
  | @cons x y _ _ hfirst _ ih =>
    obtain ⟨test, body⟩ := x
    obtain ⟨test', body'⟩ := y
    obtain ⟨rfl, hbody⟩ := hfirst
    rw [Step.executeFirst, Step.executeFirst, hbody.executeAll setting, ih]

theorem Same.loop (target iterable : Expr) {body body' orElse orElse' : List Block} (hbody : SameAll body body')
    (horElse : SameAll orElse orElse') :
    Same (.loop target iterable body orElse) (.loop target iterable body' orElse') := by
  intro setting
  rw [execute, execute, hbody.executeAll, horElse.executeAll]

theorem Same.choice {orElse orElse' : List Block} (h : SameBranches branches others) (horElse : SameAll orElse orElse') :
    Same (.choice branches orElse) (.choice others orElse') := by
  intro setting
  rw [execute, execute, h.executeFirst, horElse.executeAll]

/-- Branches are tried in their order. -/
theorem executeFirst_append (setting : Setting) (branches others : List (Expr × List Block)) :
    executeFirst setting (branches ++ others) = (do
      if ← executeFirst setting branches then return true else executeFirst setting others) := by
  induction branches with
  | nil => simp [executeFirst]
  | cons x branches ih =>
    obtain ⟨test, body⟩ := x
    rw [List.cons_append, executeFirst, executeFirst]
    simp only [bind_assoc]
    refine bind_congr fun v => bind_congr fun holds => ?_
    cases holds with
    | true => simp
    | false => exact ih

/-- A choice may leave its last branches to a choice in its other part. -/
theorem same_under (branches others : List (Expr × List Block)) (orElse : List Block) :
    Same (.choice (branches ++ others) orElse) (.choice branches [.choice others orElse]) := by
  intro setting
  have hsingle : executeAll setting [.choice others orElse] = execute setting (.choice others orElse) := by
    rw [executeAll, executeAll]
    exact bind_pure_unit
  rw [execute, execute, executeFirst_append, hsingle, bind_assoc]
  refine bind_congr fun found => ?_
  cases found with
  | true => simp
  | false => simp [execute]

/-- Where no earlier branch is done and the test of the next one holds, the choice is that branch: what comes after it
in the choice, tests included, does not count. -/
theorem execute_first_true {earlier later : List (Expr × List Block)} {test : Expr} {body orElse : List Block}
    {p p₁ p₂ : Progress} {w w₁ w₂ : World}
    (hearlier : ((executeFirst setting earlier).run p).run.run w = (.ok (false, p₁), w₁))
    (htest : ((do Run.truth (← evaluate setting test) : Step Bool).run p₁).run.run w₁ = (.ok (true, p₂), w₂)) :
    ((execute setting (.choice (earlier ++ (test, body) :: later) orElse)).run p).run.run w =
      ((executeAll setting body).run p₂).run.run w₂ := by
  have hfirst : executeFirst setting ((test, body) :: later) =
      ((do Run.truth (← evaluate setting test) : Step Bool) >>= fun holds =>
        if holds then (do executeAll setting body; return true) else executeFirst setting later) := by
    rw [executeFirst, bind_assoc]
  rw [execute, executeFirst_append, hfirst, bind_assoc, run_bind_of_ok hearlier]
  simp only [Bool.false_eq_true, if_false]
  rw [bind_assoc, run_bind_of_ok htest]
  simp

end Step

/-! ## The two spellings -/

/-- Whether an instruction closes a block. -/
def Instruction.closes : Instruction → Bool
  | .statement code => match Turn.ofCode code with
    | .stop => true
    | _ => false
  | _ => false

/-- Whether an instruction opens a block. -/
def Instruction.opens : Instruction → Bool
  | .statement code => match Turn.ofCode code with
    | .loop _ | .condition _ => true
    | _ => false
  | _ => false

/-- The instructions with one more `end` just before the block that is `depth` blocks outside is closed. -/
def endedTwice : Nat → List Instruction → List Instruction
  | _, [] => []
  | depth, i :: is =>
    if i.closes then
      match depth with
      | 0 => .statement "end" :: i :: is
      | depth + 1 => i :: endedTwice depth is
    else i :: endedTwice (if i.opens then depth + 1 else depth) is

theorem endedTwice_of_not_closes {i : Instruction} (h : ¬i.closes = true) (depth : Nat) (is : List Instruction) :
    endedTwice depth (i :: is) = i :: endedTwice (if i.opens then depth + 1 else depth) is := by
  cases depth <;> simp [endedTwice, h]

/-- What stands behind a keyword is found by itself, whichever the keyword is. -/
theorem afterKeyword?_append (keyword other : String) (cs : List Char) :
    afterKeyword? keyword (keyword.toList ++ cs) = afterKeyword? other (other.toList ++ cs) := by
  simp [afterKeyword?, ← String.length_toList, List.isPrefixOf_iff_prefix]

/-- What is read as the header of a further branch is read as the header of a condition. -/
theorem Turn.ofCode_if {tail rest : String} (h : Turn.ofCode ("elif" ++ tail) = .elif rest) :
    Turn.ofCode ("if" ++ tail) = .condition rest := by
  have helif : afterKeyword? "elif" ("elif" ++ tail).toList = some rest := by
    unfold Turn.ofCode at h
    split at h
    · cases h
    · dsimp only at h
      split at h
      · cases h
      · cases h
      · cases h
        assumption
      · cases h
      · cases h
  have hfor : afterKeyword? "for" ("if" ++ tail).toList = none := by
    rw [String.toList_append]
    simp [afterKeyword?]
  have hif : afterKeyword? "if" ("if" ++ tail).toList = some rest := by
    rw [String.toList_append] at helif ⊢
    rw [← helif, afterKeyword?_append "elif" "if"]
  have hclose : ["", "end", "endfor", "endif"].contains ("if" ++ tail) = false := by
    simp [← String.toList_inj, String.toList_append]
  unfold Turn.ofCode
  rw [hclose]
  dsimp only
  rw [hfor, hif]
  rfl

/-- Whether a mark opens a block. -/
def Mark.opens : Mark → Bool
  | .loop .. | .condition _ => true
  | _ => false

theorem Instruction.closes_eq_true_iff {i : Instruction} : i.closes = true ↔ i.mark = .ok .stop := by
  cases i with
  | literal text => simp [closes, mark, pure, Except.pure]
  | expression code =>
    rw [mark, ok_mark_iff]
    simp [closes]
  | statement code =>
    rw [mark, Turn.mark_eq_stop_iff, closes]
    cases Turn.ofCode code <;> simp

theorem Instruction.opens_of_mark {i : Instruction} {m : Mark} (h : i.mark = .ok m) : i.opens = m.opens := by
  cases i with
  | literal text =>
    cases h
    rfl
  | expression code =>
    obtain ⟨e, -, rfl⟩ := ok_mark_iff.1 h
    rfl
  | statement code =>
    rw [mark] at h
    rw [opens]
    generalize Turn.ofCode code = t at h
    cases t with
    | stop | orElse rest =>
      cases h
      rfl
    | action | loop rest | condition rest | elif rest =>
      obtain ⟨_, -, rfl⟩ := ok_mark_iff.1 h
      rfl

namespace Nesting

/-- An instruction that is taken has a fragment that reads. -/
theorem mark_of_step {n n' : Nesting} {i : Instruction} (h : n.step i = .ok n') : ∃ m, i.mark = .ok m := by
  cases i with
  | literal text => exact ⟨_, rfl⟩
  | expression code =>
    obtain ⟨e, he, -⟩ := bind_eq_ok.1 h
    exact ⟨.output e, ok_mark_iff.2 ⟨e, he, rfl⟩⟩
  | statement code =>
    rw [Instruction.mark]
    unfold step at h
    dsimp only at h
    generalize Turn.ofCode code = t at h
    cases t with
    | stop => exact ⟨_, rfl⟩
    | orElse rest => exact ⟨_, rfl⟩
    | action =>
      obtain ⟨s, hs, -⟩ := bind_eq_ok.1 h
      exact ⟨_, ok_mark_iff.2 ⟨s, hs, rfl⟩⟩
    | loop rest =>
      obtain ⟨r, hr, -⟩ := bind_eq_ok.1 h
      exact ⟨_, ok_mark_iff.2 ⟨r, hr, rfl⟩⟩
    | condition rest =>
      obtain ⟨e, he, -⟩ := bind_eq_ok.1 h
      exact ⟨_, ok_mark_iff.2 ⟨e, he, rfl⟩⟩
    | elif rest =>
      dsimp only at h
      split at h
      · obtain ⟨e, he, -⟩ := bind_eq_ok.1 h
        exact ⟨_, ok_mark_iff.2 ⟨e, he, rfl⟩⟩
      · cases h

/-- Taking an instruction is taking its mark. -/
theorem step_eq_ok {n n' : Nesting} {i : Instruction} : n.step i = .ok n' ↔ ∃ m, i.mark = .ok m ∧ n.Takes m n' := by
  constructor
  · intro h
    obtain ⟨m, hm⟩ := mark_of_step h
    rcases step_of_mark hm n with ⟨n'', hstep, htake⟩ | ⟨-, f, fragment, hstep⟩
    · cases h.symm.trans hstep
      exact ⟨m, hm, htake⟩
    · cases h.symm.trans hstep
  · rintro ⟨m, hm, htake⟩
    rcases step_of_mark hm n with ⟨n'', hstep, htake'⟩ | ⟨hnone, -⟩
    · cases htake.unique htake'
      exact hstep
    · exact absurd htake (hnone n')

/-! ## Nestings that come to the same -/

end Nesting

/-- Open blocks whose parts so far do the same. -/
inductive Opened.Alike : Opened → Opened → Prop
  | loopBody (target iterable : Expr) : Alike (.loopBody target iterable) (.loopBody target iterable)
  | loopElse (target iterable : Expr) {body body' : List Block} (same : Step.SameAll body body') :
      Alike (.loopElse target iterable body) (.loopElse target iterable body')
  | branch {earlier earlier' : List (Expr × List Block)} (test : Expr) (same : Step.SameBranches earlier earlier') :
      Alike (.branch earlier test) (.branch earlier' test)
  | choiceElse {branches branches' : List (Expr × List Block)} (same : Step.SameBranches branches branches') :
      Alike (.choiceElse branches) (.choiceElse branches')

namespace Opened

theorem Alike.refl (o : Opened) : o.Alike o := by
  cases o with
  | loopBody target iterable => exact .loopBody target iterable
  | loopElse target iterable body => exact .loopElse target iterable (.refl body)
  | branch earlier test => exact .branch test (.refl earlier)
  | choiceElse branches => exact .choiceElse (.refl branches)

end Opened

theorem Step.SameBranches.snoc {branches others : List (Expr × List Block)} {body body' : List Block} (test : Expr)
    (h : Step.SameBranches branches others) (hbody : Step.SameAll body body') :
    Step.SameBranches (branches ++ [(test, body)]) (others ++ [(test, body')]) :=
  List.rel_append h (.cons ⟨rfl, hbody⟩ .nil)

theorem Step.SameAll.reverse {bs cs : List Block} (h : Step.SameAll bs cs) : Step.SameAll bs.reverse cs.reverse :=
  List.rel_reverse h

theorem Opened.Alike.close {o o' : Opened} {last last' : List Block} (h : o.Alike o') (hlast : Step.SameAll last last') :
    Step.Same (o.close last) (o'.close last') := by
  cases h with
  | loopBody target iterable => exact .loop target iterable hlast .nil
  | loopElse target iterable same => exact .loop target iterable same hlast
  | branch test same => exact .choice (same.snoc test hlast) .nil
  | choiceElse same => exact .choice same hlast

namespace Nesting

/-- Nestings with the same blocks open around blocks that do the same. -/
structure Alike (a b : Nesting) : Prop where
  opened : List.Forall₂ (fun x y => x.1.Alike y.1 ∧ Step.SameAll x.2 y.2) a.opened b.opened
  current : Step.SameAll a.current b.current

variable {a b a' b' : Nesting} {m : Mark}

theorem Alike.add (h : a.Alike b) {x y : Block} (hxy : Step.Same x y) : (a.add x).Alike (b.add y) :=
  ⟨h.opened, .cons hxy h.current⟩

theorem Alike.enter (h : a.Alike b) (o : Opened) : (a.enter o).Alike (b.enter o) :=
  ⟨.cons ⟨.refl o, h.current⟩ h.opened, .nil⟩

/-- What one of two nestings that are alike takes, the other takes as well, and they stay alike. -/
theorem Alike.take (h : a.Alike b) (ha : a.Takes m a') : ∃ b', b.Takes m b' ∧ a'.Alike b' := by
  obtain ⟨bopened, bcurrent⟩ := b
  obtain ⟨hopened, hcurrent⟩ := h
  cases ha with
  | text s => exact ⟨_, .text s, Alike.add ⟨hopened, hcurrent⟩ (.refl _)⟩
  | output e => exact ⟨_, .output e, Alike.add ⟨hopened, hcurrent⟩ (.refl _)⟩
  | action s => exact ⟨_, .action s, Alike.add ⟨hopened, hcurrent⟩ (.refl _)⟩
  | loop target iterable => exact ⟨_, .loop target iterable, Alike.enter ⟨hopened, hcurrent⟩ _⟩
  | condition test => exact ⟨_, .condition test, Alike.enter ⟨hopened, hcurrent⟩ _⟩
  | elif next =>
    obtain _ | @⟨_, ⟨o, outer⟩, _, _, ⟨halike, houter⟩, hrest⟩ := hopened
    cases halike with
    | branch _ same =>
      exact ⟨_, .elif next, .cons ⟨.branch next (same.snoc _ hcurrent.reverse), houter⟩ hrest, .nil⟩
  | loopElse =>
    obtain _ | @⟨_, ⟨o, outer⟩, _, _, ⟨halike, houter⟩, hrest⟩ := hopened
    cases halike with
    | loopBody =>
      exact ⟨_, .loopElse, .cons ⟨.loopElse _ _ hcurrent.reverse, houter⟩ hrest, .nil⟩
  | choiceElse =>
    obtain _ | @⟨_, ⟨o, outer⟩, _, _, ⟨halike, houter⟩, hrest⟩ := hopened
    cases halike with
    | branch _ same =>
      exact ⟨_, .choiceElse, .cons ⟨.choiceElse (same.snoc _ hcurrent.reverse), houter⟩ hrest, .nil⟩
  | stop =>
    obtain _ | @⟨_, ⟨o, outer⟩, _, _, ⟨halike, houter⟩, hrest⟩ := hopened
    exact ⟨_, .stop, hrest, .cons (halike.close hcurrent.reverse) houter⟩

theorem foldlM_cons_eq_ok {n n' : Nesting} {i : Instruction} {is : List Instruction} :
    (i :: is).foldlM Nesting.step n = .ok n' ↔
      ∃ k m, i.mark = .ok m ∧ n.Takes m k ∧ is.foldlM Nesting.step k = .ok n' := by
  rw [List.foldlM_cons, bind_eq_ok]
  constructor
  · rintro ⟨k, hstep, hrest⟩
    obtain ⟨m, hm, htake⟩ := step_eq_ok.1 hstep
    exact ⟨k, m, hm, htake, hrest⟩
  · rintro ⟨k, m, hm, htake, hrest⟩
    exact ⟨k, step_eq_ok.2 ⟨m, hm, htake⟩, hrest⟩

theorem Alike.run {is : List Instruction} (h : a.Alike b) (ha : is.foldlM Nesting.step a = .ok a') :
    ∃ b', is.foldlM Nesting.step b = .ok b' ∧ a'.Alike b' := by
  induction is generalizing a b with
  | nil =>
    cases ha
    exact ⟨b, rfl, h⟩
  | cons i is ih =>
    obtain ⟨k, m, hm, htake, hrest⟩ := foldlM_cons_eq_ok.1 ha
    obtain ⟨k', htake', halike⟩ := h.take htake
    obtain ⟨b', hrun, hb'⟩ := ih halike hrest
    exact ⟨b', foldlM_cons_eq_ok.2 ⟨k', m, hm, htake', hrun⟩, hb'⟩

/-! ## Nestings with one block more -/

variable {branches : List (Expr × List Block)} {outer : List Block} {opened : List (Opened × List Block)}

/-- In the first nesting a choice is open behind `branches`; in the second `branches` are all the branches of that
choice, and what follows them is a choice in its other part. The number says how many blocks are open further in. -/
inductive Under (branches : List (Expr × List Block)) (outer : List Block) (opened : List (Opened × List Block)) :
    Nat → Nesting → Nesting → Prop
  | branch (earlier : List (Expr × List Block)) (test : Expr) (current : List Block) :
      Under branches outer opened 0 ⟨(.branch (branches ++ earlier) test, outer) :: opened, current⟩
        ⟨(.branch earlier test, []) :: (.choiceElse branches, outer) :: opened, current⟩
  | choiceElse (more : List (Expr × List Block)) (current : List Block) :
      Under branches outer opened 0 ⟨(.choiceElse (branches ++ more), outer) :: opened, current⟩
        ⟨(.choiceElse more, []) :: (.choiceElse branches, outer) :: opened, current⟩
  | inside {depth : Nat} {a b : Nesting} (o : Opened) (current : List Block)
      (around : Under branches outer opened depth a b) :
      Under branches outer opened (depth + 1) ⟨(o, a.current) :: a.opened, current⟩
        ⟨(o, b.current) :: b.opened, current⟩

variable {depth : Nat}

theorem Under.add (h : Under branches outer opened depth a b) (x : Block) :
    Under branches outer opened depth (a.add x) (b.add x) := by
  cases h with
  | branch earlier test current => exact .branch earlier test (x :: current)
  | choiceElse more current => exact .choiceElse more (x :: current)
  | inside o current around => exact .inside o (x :: current) around

theorem Under.current_eq (h : Under branches outer opened depth a b) : a.current = b.current := by
  cases h <;> rfl

/-- The two nestings stay so while the block is open. -/
theorem Under.take (h : Under branches outer opened depth a b) (hm : m ≠ .stop) (ha : a.Takes m a') :
    ∃ b', b.Takes m b' ∧ Under branches outer opened (if m.opens then depth + 1 else depth) a' b' := by
  cases ha with
  | text s => exact ⟨_, .text s, h.add _⟩
  | output e => exact ⟨_, .output e, h.add _⟩
  | action s => exact ⟨_, .action s, h.add _⟩
  | loop target iterable => exact ⟨_, .loop target iterable, .inside _ [] h⟩
  | condition test => exact ⟨_, .condition test, .inside _ [] h⟩
  | elif next =>
    cases h with
    | branch earlier test current =>
      refine ⟨_, .elif next, ?_⟩
      rw [List.append_assoc]
      exact .branch _ next []
    | inside o current around => exact ⟨_, .elif next, .inside _ [] around⟩
  | loopElse =>
    cases h with
    | inside o current around => exact ⟨_, .loopElse, .inside _ [] around⟩
  | choiceElse =>
    cases h with
    | branch earlier test current =>
      refine ⟨_, .choiceElse, ?_⟩
      rw [List.append_assoc]
      exact .choiceElse _ []
    | inside o current around => exact ⟨_, .choiceElse, .inside _ [] around⟩
  | stop => exact absurd rfl hm

/-- A block further in is closed. -/
theorem Under.stop_inside (h : Under branches outer opened (depth + 1) a b) (ha : a.Takes .stop a') :
    ∃ b', b.Takes .stop b' ∧ Under branches outer opened depth a' b' := by
  cases h with
  | inside o current around =>
    cases ha
    exact ⟨_, .stop, around.add _⟩

/-- The block is closed once in the first nesting and twice in the second. -/
theorem Under.stop_twice (h : Under branches outer opened 0 a b) (ha : a.Takes .stop a') :
    ∃ k b', b.Takes .stop k ∧ k.Takes .stop b' ∧ a'.Alike b' := by
  have hopened : List.Forall₂ (fun x y => x.1.Alike y.1 ∧ Step.SameAll x.2 y.2) opened opened :=
    List.forall₂_same.2 fun x _ => ⟨.refl x.1, .refl x.2⟩
  cases h with
  | branch earlier test current =>
    cases ha
    refine ⟨_, _, .stop, .stop, hopened, .cons ?_ (Step.SameAll.refl outer)⟩
    simpa [Opened.close] using Step.same_under branches (earlier ++ [(test, current.reverse)]) []
  | choiceElse more current =>
    cases ha
    refine ⟨_, _, .stop, .stop, hopened, .cons ?_ (Step.SameAll.refl outer)⟩
    simpa [Opened.close] using Step.same_under branches more current.reverse

theorem Under.run {is : List Instruction} {bs : List Block} (h : Under branches outer opened depth a b)
    (ha : is.foldlM Nesting.step a = .ok ⟨[], bs⟩) :
    ∃ b', (endedTwice depth is).foldlM Nesting.step b = .ok b' ∧ Alike ⟨[], bs⟩ b' := by
  have hend : Instruction.mark (.statement "end") = .ok .stop :=
    Instruction.mark_eq_stop_iff.2 ⟨"end", by simp, rfl⟩
  induction is generalizing depth a b with
  | nil =>
    cases ha
    cases h
  | cons i is ih =>
    obtain ⟨k, m, hm, htake, hrest⟩ := foldlM_cons_eq_ok.1 ha
    by_cases hclose : i.closes = true
    · cases hm.symm.trans (Instruction.closes_eq_true_iff.1 hclose)
      cases depth with
      | zero =>
        obtain ⟨k₁, k₂, hfirst, hsecond, halike⟩ := h.stop_twice htake
        obtain ⟨b', hrun, hb'⟩ := halike.run hrest
        refine ⟨b', ?_, hb'⟩
        simp only [endedTwice, hclose, if_true]
        exact foldlM_cons_eq_ok.2 ⟨k₁, _, hend, hfirst, foldlM_cons_eq_ok.2 ⟨k₂, _, hm, hsecond, hrun⟩⟩
      | succ depth =>
        obtain ⟨k', htake', hunder⟩ := h.stop_inside htake
        obtain ⟨b', hrun, hb'⟩ := ih hunder hrest
        refine ⟨b', ?_, hb'⟩
        simp only [endedTwice, hclose, if_true]
        exact foldlM_cons_eq_ok.2 ⟨k', _, hm, htake', hrun⟩
    · have hstop : m ≠ .stop := by
        rintro rfl
        exact hclose (Instruction.closes_eq_true_iff.2 hm)
      obtain ⟨k', htake', hunder⟩ := h.take hstop htake
      rw [← Instruction.opens_of_mark hm] at hunder
      obtain ⟨b', hrun, hb'⟩ := ih hunder hrest
      refine ⟨b', ?_, hb'⟩
      rw [endedTwice_of_not_closes hclose]
      exact foldlM_cons_eq_ok.2 ⟨k', m, hm, htake', hrun⟩

end Nesting

theorem buildBlocks_eq_ok {is : List Instruction} {bs : List Block} :
    buildBlocks is = .ok bs ↔ is.foldlM Nesting.step ⟨[], []⟩ = .ok ⟨[], bs.reverse⟩ := by
  unfold buildBlocks
  rw [bind_eq_ok]
  constructor
  · rintro ⟨⟨opened, current⟩, hfold, hdone⟩
    cases opened with
    | nil =>
      cases hdone
      rw [List.reverse_reverse]
      exact hfold
    | cons _ _ => cases hdone
  · intro hfold
    exact ⟨_, hfold, by rw [List.reverse_reverse]; rfl⟩

/-- In a sequence of instructions that has a tree, `elif` may be spelled as `else` and `if`, with one more `end` where
its choice is closed: the sequence has a tree again, and executing it does the same in every setting, to the output, to
what is assigned, to the store and as to faults. In either spelling no test behind the first one that holds is
evaluated. -/
theorem elif_nested {before after : List Instruction} {tail rest : String} {blocks : List Block}
    (hturn : Turn.ofCode ("elif" ++ tail) = .elif rest)
    (h : buildBlocks (before ++ .statement ("elif" ++ tail) :: after) = .ok blocks) :
    (∃ blocks', buildBlocks (before ++ .statement "else" :: .statement ("if" ++ tail) :: endedTwice 0 after) =
        .ok blocks' ∧
      (∀ setting, Step.executeAll setting blocks' = Step.executeAll setting blocks) ∧
      ∀ host base context, Template.render host base
          ⟨before ++ .statement "else" :: .statement ("if" ++ tail) :: endedTwice 0 after, blocks'⟩ context =
        Template.render host base ⟨before ++ .statement ("elif" ++ tail) :: after, blocks⟩ context) ∧
    ∀ setting earlier test body later orElse p p₁ p₂ w w₁ w₂,
      ((Step.executeFirst setting earlier).run p).run.run w = (.ok (false, p₁), w₁) →
      ((do Run.truth (← Step.evaluate setting test) : Step Bool).run p₁).run.run w₁ = (.ok (true, p₂), w₂) →
      ((Step.execute setting (.choice (earlier ++ (test, body) :: later) orElse)).run p).run.run w =
        ((Step.executeAll setting body).run p₂).run.run w₂ := by
  refine ⟨?_, fun setting earlier test body later orElse p p₁ p₂ w w₁ w₂ hearlier htest =>
    Step.execute_first_true hearlier htest⟩
  rw [buildBlocks_eq_ok, List.foldlM_append, bind_eq_ok] at h
  obtain ⟨n, hbefore, hafter⟩ := h
  obtain ⟨n', m, hm, htake, hafter⟩ := Nesting.foldlM_cons_eq_ok.1 hafter
  obtain ⟨next, hnext, rfl⟩ : ∃ e, parseTest rest ("elif" ++ tail) = .ok e ∧ Mark.elif e = m := by
    rw [Instruction.mark, hturn] at hm
    exact ok_mark_iff.1 hm
  -- the same test stands behind `if`
  have hif : Instruction.mark (.statement ("if" ++ tail)) = .ok (.condition next) := by
    rw [Instruction.mark, Turn.ofCode_if hturn]
    exact ok_mark_iff.2 ⟨next, parseTest_eq_ok.2 (parseTest_eq_ok.1 hnext), rfl⟩
  have helse : Instruction.mark (.statement "else") = .ok (.orElse "") := rfl
  cases htake with
  | @elif earlier test outer current opened next =>
    have hunder : Nesting.Under (earlier ++ [(test, current.reverse)]) outer opened 0 _ _ := .branch [] next []
    rw [List.append_nil] at hunder
    obtain ⟨⟨opened', current'⟩, hrun, halike⟩ := hunder.run hafter
    obtain ⟨hopened, hcurrent⟩ := halike
    cases hopened
    have hsame : ∀ setting, Step.executeAll setting current'.reverse = Step.executeAll setting blocks := by
      intro setting
      have hreverse := Step.SameAll.reverse hcurrent
      rw [List.reverse_reverse] at hreverse
      exact (hreverse.executeAll setting).symm
    refine ⟨current'.reverse, ?_, hsame, ?_⟩
    · rw [buildBlocks_eq_ok, List.foldlM_append, List.reverse_reverse]
      have hopen : (.statement ("if" ++ tail) :: endedTwice 0 after).foldlM Nesting.step
          ⟨(.choiceElse (earlier ++ [(test, current.reverse)]), outer) :: opened, []⟩ = .ok ⟨[], current'⟩ :=
        Nesting.foldlM_cons_eq_ok.2 ⟨_, _, hif, .condition next, hrun⟩
      exact bind_eq_ok.2 ⟨_, hbefore, Nesting.foldlM_cons_eq_ok.2 ⟨_, _, helse, .choiceElse, hopen⟩⟩
    · intro host base context
      unfold Template.render
      dsimp only
      rw [hsame]

/-- A further branch with a loop inside, another branch and another part behind it. -/
theorem elif_nested_loop : ∃ blocks blocks',
    buildBlocks [.statement "if a", .literal "A", .statement "elif b:", .statement "for x in y", .literal "B",
      .statement "end", .statement "elif c", .literal "C", .statement "else", .literal "D", .statement "endif",
      .literal "E"] = .ok blocks ∧
    buildBlocks [.statement "if a", .literal "A", .statement "else", .statement "if b:", .statement "for x in y",
      .literal "B", .statement "end", .statement "elif c", .literal "C", .statement "else", .literal "D",
      .statement "end", .statement "endif", .literal "E"] = .ok blocks' ∧
    ∀ setting, Step.executeAll setting blocks' = Step.executeAll setting blocks := by
  have haccepted : (buildBlocks ([.statement "if a", .literal "A"] ++ .statement ("elif" ++ " b:") ::
      [.statement "for x in y", .literal "B", .statement "end", .statement "elif c", .literal "C", .statement "else",
        .literal "D", .statement "endif", .literal "E"])).isOk = true := by decide +kernel
  obtain ⟨blocks, hblocks⟩ := Except.exists_of_isOk haccepted
  have hturn : Turn.ofCode ("elif" ++ " b:") = .elif "b" := rfl
  obtain ⟨⟨blocks', hblocks', hsame, -⟩, -⟩ := elif_nested hturn hblocks
  exact ⟨blocks, blocks', hblocks, hblocks', hsame⟩

end NestedSite.Template
