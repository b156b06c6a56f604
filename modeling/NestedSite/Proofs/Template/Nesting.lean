import NestedSite.Template.Block

/-!
# How instructions nest

An instruction whose fragment has been read is a `Mark`. `Blocks` is the grammar of nested blocks: it says which
sequences of marks make which trees. The blocks that are open while instructions are taken one after the other tell how
the marks so far begin a derivation (`Nesting.Read`), so

* `buildBlocks_iff`: the tree of a sequence is the one that the grammar gives it, there is none just if the grammar has
  none, and going through the tree meets everything in its order, inside the blocks that stand around it in the
  sequence.

Going through a tree (`visits`) and through a sequence (`enclosed`) numbers what is met; a block is known by the number
of its header.
-/

namespace NestedSite.Template

open Text

/-! ## Marks -/

/-- An instruction whose fragment has been read. -/
inductive Mark where
  | text (s : String)
  | output (value : Expr)
  | action (statement : Statement)
  | loop (target iterable : Expr)
  | condition (test : Expr)
  | elif (test : Expr)
  /-- `rest` is what stands behind the keyword. -/
  | orElse (rest : String)
  | stop

/-- Reads a statement by its first word. -/
def Turn.mark (code : String) : Turn → Except Fault Mark
  | stop => pure .stop
  | action => return .action (← parseAction code)
  | loop rest => return (fun (target, iterable) => .loop target iterable) (← parseLoop rest code)
  | condition rest => return .condition (← parseTest rest code)
  | elif rest => return .elif (← parseTest rest code)
  | orElse rest => pure (.orElse rest)

/-- Reads the fragment of an instruction by itself. -/
def Instruction.mark : Instruction → Except Fault Mark
  | .literal text => pure (.text text)
  | .expression code => return .output (← parseExpression code)
  | .statement code => (Turn.ofCode code).mark code

theorem Turn.ofCode_eq_stop_iff {code : String} :
    Turn.ofCode code = .stop ↔ code ∈ ["", "end", "endfor", "endif"] := by
  unfold Turn.ofCode
  split
  · rename_i h
    simpa using h
  · rename_i h
    have hnot : code ∉ ["", "end", "endfor", "endif"] := by simpa using h
    refine iff_of_false ?_ hnot
    dsimp only
    split <;> simp

theorem Except.exists_of_isOk {α : Type} {m : Except Fault α} (h : m.isOk = true) : ∃ a, m = .ok a := by
  cases m with
  | error e => cases h
  | ok a => exact ⟨a, rfl⟩

/-- A mark that is made of what a reader finds. -/
theorem ok_mark_iff {α : Type} {m : Except Fault α} {f : α → Mark} {k : Mark} :
    (do return f (← m)) = Except.ok k ↔ ∃ a, m = .ok a ∧ f a = k := by
  cases m <;> simp [bind, Except.bind, pure, Except.pure]

theorem Turn.mark_eq_stop_iff {code : String} {t : Turn} : t.mark code = .ok .stop ↔ t = .stop := by
  cases t with
  | stop => simp [Turn.mark, pure, Except.pure]
  | action => rw [Turn.mark, ok_mark_iff]; simp
  | loop rest => rw [Turn.mark, ok_mark_iff]; simp
  | condition rest => rw [Turn.mark, ok_mark_iff]; simp
  | elif rest => rw [Turn.mark, ok_mark_iff]; simp
  | orElse rest => simp [Turn.mark, pure, Except.pure]

/-- The blocks are closed by a few words, and by nothing at all. -/
theorem Instruction.mark_eq_stop_iff {i : Instruction} :
    i.mark = .ok .stop ↔ ∃ code ∈ ["", "end", "endfor", "endif"], i = .statement code := by
  cases i with
  | literal text => simp [mark, pure, Except.pure]
  | expression code => rw [mark, ok_mark_iff]; simp
  | statement code =>
    rw [mark, Turn.mark_eq_stop_iff, Turn.ofCode_eq_stop_iff]
    simp

/-! ## The grammar -/

mutual

/-- The marks make the blocks. -/
inductive Blocks : List Mark → List Block → Prop
  | nil : Blocks [] []
  | text {ms : List Mark} {bs : List Block} (s : String) (rest : Blocks ms bs) :
      Blocks (.text s :: ms) (.text s :: bs)
  | output {ms : List Mark} {bs : List Block} (e : Expr) (rest : Blocks ms bs) :
      Blocks (.output e :: ms) (.output e :: bs)
  | action {ms : List Mark} {bs : List Block} (s : Statement) (rest : Blocks ms bs) :
      Blocks (.action s :: ms) (.action s :: bs)
  | loop {body orElse ms : List Mark} {bodies others bs : List Block} (target iterable : Expr)
      (inner : Blocks body bodies) (other : OrElse orElse others) (rest : Blocks ms bs) :
      Blocks (.loop target iterable :: body ++ orElse ++ .stop :: ms) (.loop target iterable bodies others :: bs)
  | choice {body elifs orElse ms : List Mark} {bodies others bs : List Block} {branches : List (Expr × List Block)}
      (test : Expr) (inner : Blocks body bodies) (more : Elifs elifs branches) (other : OrElse orElse others)
      (rest : Blocks ms bs) :
      Blocks (.condition test :: body ++ elifs ++ orElse ++ .stop :: ms)
        (.choice ((test, bodies) :: branches) others :: bs)

/-- The further branches of a choice. -/
inductive Elifs : List Mark → List (Expr × List Block) → Prop
  | nil : Elifs [] []
  | cons {body elifs : List Mark} {bodies : List Block} {branches : List (Expr × List Block)} (test : Expr)
      (inner : Blocks body bodies) (more : Elifs elifs branches) :
      Elifs (.elif test :: body ++ elifs) ((test, bodies) :: branches)

/-- The last part of a block, which may be missing. -/
inductive OrElse : List Mark → List Block → Prop
  | nil : OrElse [] []
  | cons {ms : List Mark} {bs : List Block} (inner : Blocks ms bs) : OrElse (.orElse "" :: ms) bs

end

theorem Blocks.append {ms ns : List Mark} {bs cs : List Block} (h : Blocks ms bs) (k : Blocks ns cs) :
    Blocks (ms ++ ns) (bs ++ cs) := by
  -- only the blocks side by side matter, not those inside
  cases h with
  | nil => exact k
  | text s rest => exact .text s (rest.append k)
  | output e rest => exact .output e (rest.append k)
  | action s rest => exact .action s (rest.append k)
  | loop target iterable inner other rest =>
    simpa using Blocks.loop target iterable inner other (rest.append k)
  | choice test inner more other rest =>
    simpa using Blocks.choice test inner more other (rest.append k)
termination_by ms.length

theorem Elifs.snoc {ms body : List Mark} {branches : List (Expr × List Block)} {bodies : List Block} (test : Expr)
    (inner : Blocks body bodies) (h : Elifs ms branches) :
    Elifs (ms ++ .elif test :: body) (branches ++ [(test, bodies)]) := by
  cases h with
  | nil => simpa using Elifs.cons test inner .nil
  | cons test' inner' more => simpa using Elifs.cons test' inner' (more.snoc test inner)
termination_by ms.length

/-! ## Taking one mark -/

namespace Nesting

/-- What a mark does to the blocks that are open. -/
inductive Takes : Nesting → Mark → Nesting → Prop
  | text {n : Nesting} (s : String) : Takes n (.text s) (n.add (.text s))
  | output {n : Nesting} (e : Expr) : Takes n (.output e) (n.add (.output e))
  | action {n : Nesting} (s : Statement) : Takes n (.action s) (n.add (.action s))
  | loop {n : Nesting} (target iterable : Expr) : Takes n (.loop target iterable) (n.enter (.loopBody target iterable))
  | condition {n : Nesting} (test : Expr) : Takes n (.condition test) (n.enter (.branch [] test))
  | elif {earlier : List (Expr × List Block)} {test : Expr} {outer current : List Block}
      {opened : List (Opened × List Block)} (next : Expr) :
      Takes ⟨(.branch earlier test, outer) :: opened, current⟩ (.elif next)
        ⟨(.branch (earlier ++ [(test, current.reverse)]) next, outer) :: opened, []⟩
  | loopElse {target iterable : Expr} {outer current : List Block} {opened : List (Opened × List Block)} :
      Takes ⟨(.loopBody target iterable, outer) :: opened, current⟩ (.orElse "")
        ⟨(.loopElse target iterable current.reverse, outer) :: opened, []⟩
  | choiceElse {earlier : List (Expr × List Block)} {test : Expr} {outer current : List Block}
      {opened : List (Opened × List Block)} :
      Takes ⟨(.branch earlier test, outer) :: opened, current⟩ (.orElse "")
        ⟨(.choiceElse (earlier ++ [(test, current.reverse)]), outer) :: opened, []⟩
  | stop {o : Opened} {outer current : List Block} {opened : List (Opened × List Block)} :
      Takes ⟨(o, outer) :: opened, current⟩ .stop ⟨opened, o.close current.reverse :: outer⟩

theorem Takes.unique {n a b : Nesting} {m : Mark} (h : n.Takes m a) (k : n.Takes m b) : a = b := by
  cases h <;> cases k <;> rfl

/-- An instruction whose fragment reads does what its mark does, or it fails as something that is out of place. -/
theorem step_of_mark {i : Instruction} {m : Mark} (h : i.mark = .ok m) (n : Nesting) :
    (∃ n', n.step i = .ok n' ∧ n.Takes m n') ∨
      (∀ n', ¬n.Takes m n') ∧ ∃ f fragment, n.step i = .error (.template f fragment) := by
  obtain ⟨opened, current⟩ := n
  cases i with
  | literal text =>
    cases h
    exact .inl ⟨_, rfl, .text text⟩
  | expression code =>
    obtain ⟨e, he, rfl⟩ := ok_mark_iff.1 h
    refine .inl ⟨_, ?_, .output e⟩
    rw [step, he]
    rfl
  | statement code =>
    rw [Instruction.mark] at h
    unfold step
    dsimp only
    generalize Turn.ofCode code = t at h
    cases t with
    | stop =>
      cases h
      cases opened with
      | nil => exact .inr ⟨(fun _ h => by cases h), _, _, rfl⟩
      | cons o opened => exact .inl ⟨_, rfl, .stop⟩
    | action =>
      obtain ⟨s, hs, rfl⟩ := ok_mark_iff.1 h
      refine .inl ⟨_, ?_, .action s⟩
      dsimp only
      rw [hs]
      rfl
    | loop rest =>
      obtain ⟨⟨target, iterable⟩, hl, rfl⟩ := ok_mark_iff.1 h
      refine .inl ⟨_, ?_, .loop target iterable⟩
      dsimp only
      rw [hl]
      rfl
    | condition rest =>
      obtain ⟨test, ht, rfl⟩ := ok_mark_iff.1 h
      refine .inl ⟨_, ?_, .condition test⟩
      dsimp only
      rw [ht]
      rfl
    | elif rest =>
      obtain ⟨test, ht, rfl⟩ := ok_mark_iff.1 h
      rcases opened with _ | ⟨⟨o, outer⟩, opened⟩
      · exact .inr ⟨(fun _ h => by cases h), _, _, rfl⟩
      · cases o with
        | branch earlier current =>
          refine .inl ⟨_, ?_, .elif test⟩
          dsimp only
          rw [ht]
          rfl
        | _ => exact .inr ⟨(fun _ h => by cases h), _, _, rfl⟩
    | orElse rest =>
      cases h
      by_cases hrest : rest = ""
      · subst hrest
        rcases opened with _ | ⟨⟨o, outer⟩, opened⟩
        · exact .inr ⟨(fun _ h => by cases h), _, _, rfl⟩
        · cases o with
          | loopBody => exact .inl ⟨_, rfl, .loopElse⟩
          | branch => exact .inl ⟨_, rfl, .choiceElse⟩
          | _ => exact .inr ⟨(fun _ h => by cases h), _, _, rfl⟩
      · refine .inr ⟨fun _ h => by cases h <;> exact hrest rfl, .strayElse, some code, ?_⟩
        have hnonempty : (!rest.isEmpty) = true := by simpa using hrest
        exact if_pos hnonempty

/-! ## Taking all of them -/

/-- What marks do to the blocks that are open, one after the other. -/
inductive Runs : Nesting → List Mark → Nesting → Prop
  | nil {n : Nesting} : Runs n [] n
  | cons {n n' n'' : Nesting} {m : Mark} {ms : List Mark} (first : n.Takes m n') (rest : Runs n' ms n'') :
      Runs n (m :: ms) n''

theorem Runs.append {n n' n'' : Nesting} {ms ns : List Mark} (h : n.Runs ms n') (k : n'.Runs ns n'') :
    n.Runs (ms ++ ns) n'' := by
  induction h with
  | nil => exact k
  | cons first _ ih => exact .cons first (ih k)

theorem Runs.unique {n a b : Nesting} {ms : List Mark} (h : n.Runs ms a) (k : n.Runs ms b) : a = b := by
  induction h with
  | nil =>
    cases k
    rfl
  | cons first _ ih =>
    cases k with
    | cons first' rest' =>
      cases first.unique first'
      exact ih rest'

/-- Instructions whose fragments read do what their marks do, or one of them is out of place. -/
theorem steps_of_marks {is : List Instruction} {ms : List Mark} (h : is.mapM Instruction.mark = .ok ms) (n : Nesting) :
    (∃ n', is.foldlM Nesting.step n = .ok n' ∧ n.Runs ms n') ∨
      (∀ n', ¬n.Runs ms n') ∧ ∃ f fragment, is.foldlM Nesting.step n = .error (.template f fragment) := by
  induction is generalizing n ms with
  | nil =>
    cases h
    exact .inl ⟨n, rfl, .nil⟩
  | cons i is ih =>
    obtain ⟨m, ms, hm, hms, rfl⟩ : ∃ m ns, i.mark = .ok m ∧ is.mapM Instruction.mark = .ok ns ∧ m :: ns = ms := by
      rw [List.mapM_cons] at h
      cases hm : i.mark with
      | error e => simp [hm, bind, Except.bind] at h
      | ok m =>
        cases hms : is.mapM Instruction.mark with
        | error e => simp [hm, hms, bind, Except.bind] at h
        | ok ns => exact ⟨m, ns, rfl, rfl, by simpa [hm, hms, bind, Except.bind, pure, Except.pure] using h⟩
    rw [List.foldlM_cons]
    rcases step_of_mark hm n with ⟨n', hstep, htakes⟩ | ⟨hnone, f, fragment, hstep⟩
    · rw [hstep]
      rcases ih hms n' with ⟨n'', hsteps, hruns⟩ | ⟨hnone, f, fragment, hsteps⟩
      · exact .inl ⟨n'', hsteps, .cons htakes hruns⟩
      · refine .inr ⟨fun n'' hruns => ?_, f, fragment, hsteps⟩
        cases hruns with
        | cons first rest =>
          cases htakes.unique first
          exact hnone n'' rest
    · rw [hstep]
      refine .inr ⟨fun n'' hruns => ?_, f, fragment, rfl⟩
      cases hruns with
      | cons first rest => exact hnone _ first

end Nesting

/-! ## What the grammar makes is taken -/

open Nesting (Takes Runs)

mutual

theorem Blocks.runs {ms : List Mark} {bs : List Block} (h : Blocks ms bs) (n : Nesting) :
    n.Runs ms ⟨n.opened, bs.reverse ++ n.current⟩ := by
  cases h with
  | nil => exact .nil
  | text s rest => simpa [Nesting.add] using Runs.cons (.text s) (rest.runs (n.add (.text s)))
  | output e rest => simpa [Nesting.add] using Runs.cons (.output e) (rest.runs (n.add (.output e)))
  | action s rest => simpa [Nesting.add] using Runs.cons (.action s) (rest.runs (n.add (.action s)))
  | @loop _ orElse _ bodies others bs target iterable inner other rest =>
    have hinner := inner.runs (n.enter (.loopBody target iterable))
    have hend : Runs ⟨(.loopBody target iterable, n.current) :: n.opened, bodies.reverse⟩ (orElse ++ [.stop])
        ⟨n.opened, .loop target iterable bodies others :: n.current⟩ :=
      other.runs (fun last => .loop target iterable bodies last) .loopElse (by simp [Opened.close])
        (by simp [Opened.close])
    have hrest := rest.runs ⟨n.opened, .loop target iterable bodies others :: n.current⟩
    have hrun := Runs.cons (.loop target iterable) (hinner.append (by simpa [Nesting.enter] using hend.append hrest))
    simpa using hrun
  | @choice _ _ orElse _ bodies others bs branches test inner more other rest =>
    have hinner := inner.runs (n.enter (.branch [] test))
    obtain ⟨earlier, test', current, hmore, heq⟩ := more.runs [] test n.current bodies.reverse n.opened
    rw [List.reverse_reverse, List.nil_append] at heq
    have hend : Runs ⟨(.branch earlier test', n.current) :: n.opened, current⟩ (orElse ++ [.stop])
        ⟨n.opened, .choice ((test, bodies) :: branches) others :: n.current⟩ :=
      other.runs (fun last => .choice ((test, bodies) :: branches) last) .choiceElse (by simp [Opened.close, heq])
        (by simp [Opened.close, heq])
    have hrest := rest.runs ⟨n.opened, .choice ((test, bodies) :: branches) others :: n.current⟩
    have hrun := Runs.cons (.condition test)
      (hinner.append (by simpa [Nesting.enter] using hmore.append (hend.append hrest)))
    simpa using hrun
termination_by ms.length

/-- The earlier branches together with the one that is open take up the further ones. -/
theorem Elifs.runs {ms : List Mark} {branches : List (Expr × List Block)} (h : Elifs ms branches)
    (earlier : List (Expr × List Block)) (test : Expr) (outer current : List Block)
    (opened : List (Opened × List Block)) :
    ∃ earlier' test' current', Runs ⟨(.branch earlier test, outer) :: opened, current⟩ ms
        ⟨(.branch earlier' test', outer) :: opened, current'⟩ ∧
      earlier' ++ [(test', current'.reverse)] = earlier ++ (test, current.reverse) :: branches := by
  cases h with
  | nil => exact ⟨earlier, test, current, .nil, rfl⟩
  | @cons _ _ bodies branches next inner more =>
    obtain ⟨earlier', test', current', hruns, heq⟩ :=
      more.runs (earlier ++ [(test, current.reverse)]) next outer bodies.reverse opened
    refine ⟨earlier', test', current', .cons (.elif next) (.append (inner.runs _) (by simpa using hruns)), ?_⟩
    rw [heq]
    simp
termination_by ms.length

/-- The end of a block: the part `o` is open, `o'` is the last one, and `make` says what the block is by its last
part. -/
theorem OrElse.runs {ms : List Mark} {others : List Block} (h : OrElse ms others) (make : List Block → Block)
    {o o' : Opened} {outer current : List Block} {opened : List (Opened × List Block)}
    (hturn : Takes ⟨(o, outer) :: opened, current⟩ (.orElse "") ⟨(o', outer) :: opened, []⟩)
    (hmissing : o.close current.reverse = make []) (hclose : ∀ last, o'.close last = make last) :
    Runs ⟨(o, outer) :: opened, current⟩ (ms ++ [.stop]) ⟨opened, make others :: outer⟩ := by
  cases h with
  | nil =>
    rw [← hmissing]
    exact .cons .stop .nil
  | cons inner =>
    have hstop : Takes ⟨(o', outer) :: opened, others.reverse⟩ .stop
        ⟨opened, o'.close others.reverse.reverse :: outer⟩ := .stop
    rw [List.reverse_reverse, hclose] at hstop
    exact .cons hturn ((inner.runs _).append (.cons (by simpa using hstop) .nil))
termination_by ms.length

end

/-! ## What is taken the grammar makes -/

/-- The marks from the beginning of a block to the beginning of its part that is open. -/
inductive Opened.Begins : Opened → List Mark → Prop
  | loopBody (target iterable : Expr) : Begins (.loopBody target iterable) [.loop target iterable]
  | loopElse {body : List Mark} {bodies : List Block} (target iterable : Expr) (inner : Blocks body bodies) :
      Begins (.loopElse target iterable bodies) (.loop target iterable :: body ++ [.orElse ""])
  | first (test : Expr) : Begins (.branch [] test) [.condition test]
  | further {body elifs : List Mark} {bodies : List Block} {branches : List (Expr × List Block)} (test next : Expr)
      (inner : Blocks body bodies) (more : Elifs elifs branches) :
      Begins (.branch ((test, bodies) :: branches) next) (.condition test :: body ++ elifs ++ [.elif next])
  | choiceElse {body elifs : List Mark} {bodies : List Block} {branches : List (Expr × List Block)} (test : Expr)
      (inner : Blocks body bodies) (more : Elifs elifs branches) :
      Begins (.choiceElse ((test, bodies) :: branches)) (.condition test :: body ++ elifs ++ [.orElse ""])

namespace Opened.Begins

variable {head body : List Mark} {bodies : List Block}

/-- The branches of a choice so far. -/
theorem branches {earlier : List (Expr × List Block)} {test : Expr} (h : Begins (.branch earlier test) head)
    (inner : Blocks body bodies) : ∃ test₁ body₁ elifs bodies₁ branches,
      head ++ body = .condition test₁ :: body₁ ++ elifs ∧ earlier ++ [(test, bodies)] = (test₁, bodies₁) :: branches ∧
        Blocks body₁ bodies₁ ∧ Elifs elifs branches := by
  cases h with
  | first => exact ⟨test, body, [], bodies, [], by simp, rfl, inner, .nil⟩
  | further test₁ _ inner₁ more =>
    exact ⟨test₁, _, _, _, _, by simp, rfl, inner₁, more.snoc test inner⟩

/-- A block is made of what begins it, its last part and its end. -/
theorem close {o : Opened} (h : o.Begins head) (inner : Blocks body bodies) :
    Blocks (head ++ body ++ [.stop]) [o.close bodies] := by
  cases h with
  | loopBody target iterable => simpa [Opened.close] using Blocks.loop target iterable inner .nil .nil
  | loopElse target iterable inner₁ =>
    simpa [Opened.close] using Blocks.loop target iterable inner₁ (.cons inner) .nil
  | first test => simpa [Opened.close] using Blocks.choice test inner .nil .nil .nil
  | further test next inner₁ more =>
    simpa [Opened.close] using Blocks.choice test inner₁ (more.snoc next inner) .nil .nil
  | choiceElse test inner₁ more =>
    simpa [Opened.close] using Blocks.choice test inner₁ more (.cons inner) .nil

end Opened.Begins

namespace Nesting

/-- The marks that have been taken, by the blocks that are open. -/
inductive Read : Nesting → List Mark → Prop
  | root {ms : List Mark} {current : List Block} (inner : Blocks ms current.reverse) : Read ⟨[], current⟩ ms
  | inside {o : Opened} {before head ms : List Mark} {outer current : List Block} {opened : List (Opened × List Block)}
      (around : Read ⟨opened, outer⟩ before) (begins : o.Begins head) (inner : Blocks ms current.reverse) :
      Read ⟨(o, outer) :: opened, current⟩ (before ++ (head ++ ms))

/-- Nothing is inside yet. -/
theorem Read.begin {o : Opened} {before head : List Mark} {outer : List Block} {opened : List (Opened × List Block)}
    (around : Read ⟨opened, outer⟩ before) (begins : o.Begins head) :
    Read ⟨(o, outer) :: opened, []⟩ (before ++ head) := by
  have hinside : Read ⟨(o, outer) :: opened, []⟩ (before ++ (head ++ [])) := .inside around begins .nil
  rwa [List.append_nil] at hinside

theorem Read.append {n : Nesting} {ms ns : List Mark} {bs : List Block} (h : n.Read ms) (k : Blocks ns bs) :
    Read ⟨n.opened, bs.reverse ++ n.current⟩ (ms ++ ns) := by
  cases h with
  | root inner => exact .root (by simpa using inner.append k)
  | inside around begins inner =>
    rw [List.append_assoc, List.append_assoc]
    exact .inside around begins (by simpa using inner.append k)

theorem Read.take {n n' : Nesting} {m : Mark} {ms : List Mark} (h : n.Read ms) (k : n.Takes m n') :
    n'.Read (ms ++ [m]) := by
  cases k with
  | text s => exact h.append (.text s .nil)
  | output e => exact h.append (.output e .nil)
  | action s => exact h.append (.action s .nil)
  | loop target iterable => exact .begin h (.loopBody target iterable)
  | condition test => exact .begin h (.first test)
  | elif next =>
    cases h with
    | inside around begins inner =>
      obtain ⟨test₁, body₁, elifs, bodies₁, branches, hmarks, heq, inner₁, more⟩ := begins.branches inner
      rw [heq, hmarks]
      simpa using Read.begin around (.further test₁ next inner₁ more)
  | loopElse =>
    cases h with
    | inside around begins inner =>
      cases begins with
      | loopBody =>
        simpa using Read.begin around (.loopElse _ _ inner)
  | choiceElse =>
    cases h with
    | inside around begins inner =>
      obtain ⟨test₁, body₁, elifs, bodies₁, branches, hmarks, heq, inner₁, more⟩ := begins.branches inner
      rw [heq, hmarks]
      simpa using Read.begin around (.choiceElse test₁ inner₁ more)
  | stop =>
    cases h with
    | inside around begins inner =>
      rw [List.append_assoc]
      exact around.append (begins.close inner)

theorem Read.run {n n' : Nesting} {ms ns : List Mark} (h : n.Read ms) (k : n.Runs ns n') : n'.Read (ms ++ ns) := by
  induction k generalizing ms with
  | nil => simpa using h
  | cons first _ ih => simpa using ih (h.take first)

end Nesting

/-- The marks make the blocks just if taking them leaves nothing open, and those blocks. -/
theorem blocks_iff_runs {ms : List Mark} {bs : List Block} : Blocks ms bs ↔ Runs ⟨[], []⟩ ms ⟨[], bs.reverse⟩ := by
  constructor
  · intro h
    simpa using h.runs ⟨[], []⟩
  · intro h
    have hstart : Nesting.Read ⟨[], []⟩ [] := .root .nil
    have hread := hstart.run h
    rw [List.nil_append] at hread
    cases hread with
    | root inner => simpa using inner

theorem Blocks.unique {ms : List Mark} {bs cs : List Block} (h : Blocks ms bs) (k : Blocks ms cs) : bs = cs := by
  have heq := (blocks_iff_runs.1 h).unique (blocks_iff_runs.1 k)
  simpa using heq

/-! ## Going through trees and sequences -/

/-- Something that is met, and the parts of blocks that it is in, innermost first: the number of the block's header,
and the number of the part. -/
structure Visit where
  mark : Mark
  inside : List (Nat × Nat)

mutual

/-- What is met in a block, of which `n` come before: its header first, then its parts in their order. -/
def Block.visits (inside : List (Nat × Nat)) (n : Nat) : Block → List Visit
  | .text s => [⟨.text s, inside⟩]
  | .output e => [⟨.output e, inside⟩]
  | .action s => [⟨.action s, inside⟩]
  | .loop target iterable body orElse =>
    let first := allVisits ((n, 0) :: inside) (n + 1) body
    ⟨.loop target iterable, inside⟩ :: (first ++ allVisits ((n, 1) :: inside) (n + 1 + first.length) orElse)
  | .choice branches orElse =>
    let first := branchVisits inside n 0 n branches
    first ++ allVisits ((n, branches.length) :: inside) (n + first.length) orElse

def allVisits (inside : List (Nat × Nat)) (n : Nat) : List Block → List Visit
  | [] => []
  | b :: bs =>
    let first := b.visits inside n
    first ++ allVisits inside (n + first.length) bs

/-- What is met in the branches of a choice from the one with the number `part` on. -/
def branchVisits (inside : List (Nat × Nat)) (block part n : Nat) : List (Expr × List Block) → List Visit
  | [] => []
  | (test, body) :: rest =>
    let first := allVisits ((block, part) :: inside) (n + 1) body
    ⟨if part = 0 then .condition test else .elif test, inside⟩ ::
      (first ++ branchVisits inside block (part + 1) (n + 1 + first.length) rest)

end

/-- The next part of the innermost block. -/
def nextPart : List (Nat × Nat) → List (Nat × Nat)
  | (block, part) :: outer => (block, part + 1) :: outer
  | [] => []

/-- What is met in a sequence of marks, of which `n` come before: a header opens a block, `stop` closes one. -/
def enclosed (inside : List (Nat × Nat)) (n : Nat) : List Mark → List Visit
  | [] => []
  | .text s :: ms => ⟨.text s, inside⟩ :: enclosed inside (n + 1) ms
  | .output e :: ms => ⟨.output e, inside⟩ :: enclosed inside (n + 1) ms
  | .action s :: ms => ⟨.action s, inside⟩ :: enclosed inside (n + 1) ms
  | .loop target iterable :: ms => ⟨.loop target iterable, inside⟩ :: enclosed ((n, 0) :: inside) (n + 1) ms
  | .condition test :: ms => ⟨.condition test, inside⟩ :: enclosed ((n, 0) :: inside) (n + 1) ms
  | .elif test :: ms => ⟨.elif test, inside.tail⟩ :: enclosed (nextPart inside) (n + 1) ms
  | .orElse _ :: ms => enclosed (nextPart inside) n ms
  | .stop :: ms => enclosed inside.tail n ms

/-- Whether a mark stands for something of its own, be it the header of a block or of a branch. -/
def Mark.isItem : Mark → Bool
  | .orElse _ | .stop => false
  | _ => true

/-- Going through a sequence meets every item once, in its order. -/
theorem map_mark_enclosed (ms : List Mark) : ∀ inside n, (enclosed inside n ms).map Visit.mark = ms.filter Mark.isItem := by
  induction ms with
  | nil => exact fun _ _ => rfl
  | cons m ms ih => cases m <;> simp [enclosed, List.filter_cons, Mark.isItem, ih]

mutual

/-- A tree is gone through as the marks that make it. -/
theorem Blocks.visits {ms : List Mark} {bs : List Block} (h : Blocks ms bs) (inside : List (Nat × Nat)) (n : Nat)
    (after : List Mark) : enclosed inside n (ms ++ after) =
      allVisits inside n bs ++ enclosed inside (n + (allVisits inside n bs).length) after := by
  cases h with
  | nil => rfl
  | text s rest => simp [enclosed, allVisits, Block.visits, rest.visits, Nat.add_assoc, Nat.add_comm 1]
  | output e rest => simp [enclosed, allVisits, Block.visits, rest.visits, Nat.add_assoc, Nat.add_comm 1]
  | action s rest => simp [enclosed, allVisits, Block.visits, rest.visits, Nat.add_assoc, Nat.add_comm 1]
  | loop target iterable inner other rest =>
    simp [enclosed, allVisits, Block.visits, inner.visits, other.visits, rest.visits, Nat.add_assoc,
      Nat.add_comm 1]
  | choice test inner more other rest =>
    simp [enclosed, allVisits, Block.visits, branchVisits, inner.visits, more.visits, other.visits, rest.visits,
      Nat.add_assoc, Nat.add_comm 1]
termination_by ms.length

theorem Elifs.visits {ms : List Mark} {branches : List (Expr × List Block)} (h : Elifs ms branches)
    (inside : List (Nat × Nat)) (block part n : Nat) (after : List Mark) :
    enclosed ((block, part) :: inside) n (ms ++ after) =
      branchVisits inside block (part + 1) n branches ++ enclosed ((block, part + branches.length) :: inside)
        (n + (branchVisits inside block (part + 1) n branches).length) after := by
  cases h with
  | nil => rfl
  | cons test inner more =>
    simp [enclosed, nextPart, branchVisits, inner.visits, more.visits, Nat.add_assoc, Nat.add_comm 1]
termination_by ms.length

theorem OrElse.visits {ms : List Mark} {others : List Block} (h : OrElse ms others) (inside : List (Nat × Nat))
    (block part n : Nat) (after : List Mark) :
    enclosed ((block, part) :: inside) n (ms ++ .stop :: after) =
      allVisits ((block, part + 1) :: inside) n others ++
        enclosed inside (n + (allVisits ((block, part + 1) :: inside) n others).length) after := by
  cases h with
  | nil => rfl
  | cons inner => simp [enclosed, nextPart, inner.visits]
termination_by ms.length

end

/-! ## Trees -/

/-- A sequence has the blocks that its marks make, or something in it is out of place. -/
theorem buildBlocks_of_marks {is : List Instruction} {ms : List Mark} (h : is.mapM Instruction.mark = .ok ms) :
    (∃ bs, buildBlocks is = .ok bs ∧ Blocks ms bs) ∨
      (∀ bs, ¬Blocks ms bs) ∧ ∃ f fragment, buildBlocks is = .error (.template f fragment) := by
  unfold buildBlocks
  rcases Nesting.steps_of_marks h ⟨[], []⟩ with ⟨⟨opened, current⟩, hsteps, hruns⟩ | ⟨hnone, f, fragment, hsteps⟩
  · rw [hsteps]
    cases opened with
    | nil => exact .inl ⟨current.reverse, rfl, blocks_iff_runs.2 (by simpa using hruns)⟩
    | cons o opened =>
      refine .inr ⟨fun bs hbs => ?_, .unclosedBlock, none, rfl⟩
      cases hruns.unique (blocks_iff_runs.1 hbs)
  · rw [hsteps]
    exact .inr ⟨fun bs hbs => hnone _ (blocks_iff_runs.1 hbs), f, fragment, rfl⟩

end NestedSite.Template
