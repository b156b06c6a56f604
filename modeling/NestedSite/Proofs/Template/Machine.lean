import Mathlib.Logic.Relation
import NestedSite.Proofs.Store.Confined
import NestedSite.Template.Render

/-!
# The states of a rendering

Executing blocks is described a second time, in small steps. A state has the tasks that are left, what has been assigned
and put out, and the world; one step does what begins the first task, and puts in its place what is left to do of it
(`Task.step`). Executing a task is taking that step and then executing what is left (`Task.run_eq`). So every state that
is gone through comes to what the whole comes to (`State.Next.outcome_eq`), and what is executed without a fault is
gone through to its end (`State.executeAll_eq_ok`).
-/

namespace NestedSite.Template

/-- What is left to do. -/
inductive Task where
  | block (b : Block)
  /-- The items that a cursor of a loop has left; `looped` says whether there was one already. -/
  | items (cursor : Nat) (target : Expr) (body orElse : List Block) (fuel : Nat) (looped : Bool)

namespace Task

open Step

variable (setting : Setting)

/-- Does all that is left to do. -/
def run : Task → Step Unit
  | .block b => execute setting b
  | .items cursor target body orElse fuel looped => do
    let looped ← forEach cursor (fun v => do
      assign target v
      executeAll setting body) fuel looped
    if !looped then executeAll setting orElse

def runAll : List Task → Step Unit
  | [] => return
  | t :: ts => do
    t.run setting
    runAll ts

/-- Does what begins a task, and says what is left to do of it. -/
def step : Task → Step (List Task)
  | .block (.text s) => do
    put s
    return []
  | .block (.output e) => do
    match ← evaluate setting e with
    | .none => return []
    | v =>
      put (← Run.text v)
      return []
  | .block (.action s) => do
    perform setting s
    return []
  | .block (.loop target iterable body orElse) => do
    let cursor ← Run.cursor (← evaluate setting iterable)
    let left ← Run.left cursor
    return [.items cursor target body orElse (left + sizeLimit) false]
  | .block (.choice [] orElse) => return orElse.map .block
  | .block (.choice ((test, body) :: rest) orElse) => do
    if ← Run.truth (← evaluate setting test) then return body.map .block else return [.block (.choice rest orElse)]
  | .items _ _ _ _ 0 _ => do
    Run.record .breakOff
    throw .tooLarge
  | .items cursor target body orElse (n + 1) looped => do
    match ← Run.next? cursor with
    | none => return if looped then [] else orElse.map .block
    | some v =>
      assign target v
      return body.map .block ++ [.items cursor target body orElse n true]

variable {setting}

theorem runAll_append (ts us : List Task) : runAll setting (ts ++ us) = (do runAll setting ts; runAll setting us) := by
  induction ts with
  | nil => simp [runAll]
  | cons t ts ih => simp [runAll, ih]

theorem runAll_blocks (bs : List Block) : runAll setting (bs.map .block) = executeAll setting bs := by
  induction bs with
  | nil => simp [runAll, executeAll]
  | cons b bs ih => simp [runAll, executeAll, run, ih]

theorem runAll_singleton (t : Task) : runAll setting [t] = t.run setting := by
  simp [runAll]

/-- Doing a task is doing what begins it, and then what is left of it. -/
theorem run_eq (t : Task) : t.run setting = (do runAll setting (← t.step setting)) := by
  cases t with
  | block b =>
    cases b with
    | text s => simp [run, step, execute, runAll]
    | output e =>
      simp only [run, step, execute, bind_assoc]
      refine bind_congr fun v => ?_
      cases v <;> simp [runAll]
    | action s => simp [run, step, execute, runAll]
    | loop target iterable body orElse => simp [run, step, execute, forAll, runAll_singleton]
    | choice branches orElse =>
      cases branches with
      | nil => simp [run, step, execute, executeFirst, runAll_blocks]
      | cons x rest =>
        obtain ⟨test, body⟩ := x
        simp only [run, step, execute, executeFirst, bind_assoc]
        refine bind_congr fun v => bind_congr fun holds => ?_
        cases holds with
        | true => simp [runAll_blocks]
        | false => simp [runAll_singleton, run, execute]
  | items cursor target body orElse fuel looped =>
    cases fuel with
    | zero =>
      simp only [run, step, forEach, bind_assoc]
      exact bind_congr fun _ => rfl
    | succ n =>
      simp only [run, step, forEach, bind_assoc]
      refine bind_congr fun item => ?_
      cases item with
      | none => cases looped <;> simp [runAll, runAll_blocks]
      | some v => simp [runAll_append, runAll_blocks, runAll_singleton, run]

end Task

/-! ## Steps of a rendering that succeed -/

/-- What the names mean after what has been assigned so far. -/
def Setting.scope (setting : Setting) (p : Progress) : Scope := ⟨p.locals, setting.context, setting.base⟩

namespace Step

variable {α β : Type} {m : Step α} {f : α → Step β} {p p' : Progress} {w w' : World}

/-- A step succeeds just if its first part does, and the rest from there. -/
theorem bind_eq_ok {b : β} : ((m >>= f).run p).run.run w = (.ok (b, p'), w') ↔
    ∃ a q u, (m.run p).run.run w = (.ok (a, q), u) ∧ ((f a).run q).run.run u = (.ok (b, p'), w') := by
  rw [StateT.run_bind, Run.bind_eq_ok]
  constructor
  · rintro ⟨⟨a, q⟩, u, hm, hf⟩
    exact ⟨a, q, u, hm, hf⟩
  · rintro ⟨a, q, u, hm, hf⟩
    exact ⟨(a, q), u, hm, hf⟩

/-- A step that succeeds goes on with what it gives. -/
theorem run_bind_of_ok {a : α} (h : (m.run p).run.run w = (.ok (a, p'), w')) :
    ((m >>= f).run p).run.run w = ((f a).run p').run.run w' := by
  rw [StateT.run_bind, Run.run_bind, h]

/-- An expression is evaluated with what has been assigned so far. -/
theorem evaluate_of_ok {setting : Setting} {e : Expr} {v : Value}
    (h : (e.eval setting.host (setting.scope p)).run.run w = (.ok v, w')) :
    ((evaluate setting e).run p).run.run w = (.ok (v, p), w') := by
  show (e.eval setting.host (setting.scope p) >>= fun v => pure (v, p)).run.run w = _
  rw [Run.run_bind, h]
  rfl

theorem perform_of_ok {setting : Setting} {e : Expr} {v : Value}
    (h : (e.eval setting.host (setting.scope p)).run.run w = (.ok v, w')) :
    ((perform setting (.expression e)).run p).run.run w = (.ok ((), p), w') := by
  show ((evaluate setting e >>= fun _ => pure () : Step Unit).run p).run.run w = _
  rw [run_bind_of_ok (evaluate_of_ok h)]
  rfl

/-- What a step gives, if it succeeds, is as `Q` says. -/
def Gives (m : Step α) (Q : α → Prop) : Prop :=
  ∀ p w a p' w', (m.run p).run.run w = (.ok (a, p'), w') → Q a

theorem Gives.pure {a : α} {Q : α → Prop} (h : Q a) : Gives (Pure.pure a) Q := fun p w b p' w' hrun => by
  cases hrun
  exact h

theorem Gives.bind {Q : β → Prop} (h : ∀ a, Gives (f a) Q) : Gives (m >>= f) Q := by
  intro p w b p' w' hrun
  obtain ⟨a, q, u, -, hf⟩ := bind_eq_ok.1 hrun
  exact h a q u b p' w' hf

theorem Gives.throw {e : Fault} {Q : α → Prop} : Gives (MonadExcept.throw e) Q := fun _ _ _ _ _ hrun => by cases hrun

end Step

/-! ## States -/

structure State where
  tasks : List Task
  progress : Progress
  world : World

namespace State

variable {setting : Setting} {σ τ : State}

/-- The state before the blocks of a template. -/
def start (bs : List Block) (w : World) : State := ⟨bs.map .block, {}, w⟩

/-- What comes of a state in the end. -/
def outcome (setting : Setting) (σ : State) : Except Fault (Unit × Progress) × World :=
  ((Task.runAll setting σ.tasks).run σ.progress).run.run σ.world

/-- One step: the first task begins, and what is left of it takes its place. -/
inductive Next (setting : Setting) : State → State → Prop
  | intro {t : Task} {ts more : List Task} {p p' : Progress} {w w' : World}
      (h : ((t.step setting).run p).run.run w = (.ok (more, p'), w')) : Next setting ⟨t :: ts, p, w⟩ ⟨more ++ ts, p', w'⟩

/-- What a state comes to, the next one comes to. -/
theorem Next.outcome_eq (h : Next setting σ τ) : σ.outcome setting = τ.outcome setting := by
  cases h with
  | intro h =>
    unfold outcome
    rw [Task.runAll, Task.run_eq, bind_assoc, Step.run_bind_of_ok h, Task.runAll_append]

/-- There is one way to go on at most. -/
theorem Next.unique {τ' : State} (h : Next setting σ τ) (h' : Next setting σ τ') : τ = τ' := by
  cases h with
  | intro h =>
    cases h' with
    | intro h' =>
      cases h.symm.trans h'
      rfl

abbrev Reaches (setting : Setting) : State → State → Prop := Relation.ReflTransGen (Next setting)

theorem Reaches.outcome_eq (h : Reaches setting σ τ) : σ.outcome setting = τ.outcome setting := by
  induction h with
  | refl => rfl
  | tail _ hnext ih => exact ih.trans hnext.outcome_eq

/-- Where nothing is left to do, the blocks of the start have been executed. -/
theorem Reaches.executeAll {bs : List Block} {w w' : World} {p' : Progress}
    (h : Reaches setting (start bs w) ⟨[], p', w'⟩) :
    ((Step.executeAll setting bs).run {}).run.run w = (.ok ((), p'), w') := by
  have houtcome := h.outcome_eq
  unfold outcome start at houtcome
  rw [Task.runAll_blocks] at houtcome
  exact houtcome

/-! ## What succeeds is gone through to its end -/

/-- Where a task succeeds, the states go on to where it is done. -/
def Ends (setting : Setting) (t : Task) : Prop := ∀ ts p w p' w',
  ((t.run setting).run p).run.run w = (.ok ((), p'), w') → Reaches setting ⟨t :: ts, p, w⟩ ⟨ts, p', w'⟩

theorem reaches_of_runAll {ts : List Task} (h : ∀ t ∈ ts, Ends setting t) (us : List Task) {p p' : Progress}
    {w w' : World} (hrun : ((Task.runAll setting ts).run p).run.run w = (.ok ((), p'), w')) :
    Reaches setting ⟨ts ++ us, p, w⟩ ⟨us, p', w'⟩ := by
  induction ts generalizing p w with
  | nil =>
    cases hrun
    exact .refl
  | cons t ts ih =>
    obtain ⟨ht, hts⟩ := List.forall_mem_cons.1 h
    obtain ⟨_, q, u, hfirst, hrest⟩ := Step.bind_eq_ok.1 hrun
    exact (ht (ts ++ us) p w q u hfirst).trans (ih hts hrest)

/-- A task ends if all that it leaves to do ends. -/
theorem Ends.of_step {t : Task} (h : Step.Gives (t.step setting) fun more => ∀ u ∈ more, Ends setting u) :
    Ends setting t := by
  intro ts p w p' w' hrun
  rw [Task.run_eq] at hrun
  obtain ⟨more, q, u, hstep, hmore⟩ := Step.bind_eq_ok.1 hrun
  exact .head (.intro hstep) (reaches_of_runAll (h p w more q u hstep) ts hmore)

theorem ends_items {target : Expr} {body orElse : List Block} (hbody : ∀ b ∈ body, Ends setting (.block b))
    (horElse : ∀ b ∈ orElse, Ends setting (.block b)) (cursor fuel : Nat) (looped : Bool) :
    Ends setting (.items cursor target body orElse fuel looped) := by
  induction fuel generalizing looped with
  | zero => exact .of_step (.bind fun _ => .throw)
  | succ n ih =>
    refine .of_step (.bind fun item => ?_)
    cases item with
    | none =>
      refine .pure ?_
      cases looped with
      | true => simp
      | false => simpa using horElse
    | some v =>
      refine .bind fun _ => .pure ?_
      simp only [List.mem_append, List.mem_map, List.mem_singleton]
      rintro u (⟨b, hb, rfl⟩ | rfl)
      · exact hbody b hb
      · exact ih true

mutual

theorem ends_block : ∀ b : Block, Ends setting (.block b)
  | .text s => .of_step (.bind fun _ => .pure nofun)
  | .output e => by
    refine .of_step (.bind fun v => ?_)
    split
    · exact .pure nofun
    · exact .bind fun _ => .bind fun _ => .pure nofun
  | .action s => .of_step (.bind fun _ => .pure nofun)
  | .loop target iterable body orElse => by
    refine .of_step (.bind fun _ => .bind fun _ => .bind fun _ => .pure ?_)
    simp only [List.mem_singleton, forall_eq]
    exact ends_items (ends_blocks body) (ends_blocks orElse) _ _ _
  | .choice branches orElse => ends_choice branches orElse (ends_blocks orElse)

theorem ends_blocks : ∀ bs : List Block, ∀ b ∈ bs, Ends setting (.block b)
  | [] => nofun
  | b :: bs => List.forall_mem_cons.2 ⟨ends_block b, ends_blocks bs⟩

theorem ends_choice : ∀ (branches : List (Expr × List Block)) (orElse : List Block),
    (∀ b ∈ orElse, Ends setting (.block b)) → Ends setting (.block (.choice branches orElse))
  | [], orElse, h => .of_step (.pure (by simpa using h))
  | (test, body) :: rest, orElse, h => by
    refine .of_step (.bind fun _ => .bind fun holds => ?_)
    split
    · exact .pure (by simpa using ends_blocks body)
    · refine .pure ?_
      simp only [List.mem_singleton, forall_eq]
      exact ends_choice rest orElse h

end

/-- Blocks are executed without a fault just if their states go on to where nothing is left to do. -/
theorem executeAll_eq_ok {bs : List Block} {w w' : World} {p' : Progress} :
    ((Step.executeAll setting bs).run {}).run.run w = (.ok ((), p'), w') ↔
      Reaches setting (start bs w) ⟨[], p', w'⟩ := by
  constructor
  · intro h
    rw [← Task.runAll_blocks] at h
    have hends : ∀ t ∈ bs.map Task.block, Ends setting t := by simpa using ends_blocks bs
    have hreaches := reaches_of_runAll hends [] h
    rwa [List.append_nil] at hreaches
  · intro h
    exact h.executeAll

/-- What a template puts out, where its states go on to the end. -/
theorem render_of_reaches {t : Template} {w w' : World} {p' : Progress}
    (h : Reaches setting (start t.blocks w) ⟨[], p', w'⟩) :
    (t.render setting.host setting.base setting.context).run.run w = (.ok p'.output, w') := by
  rw [Template.render, Run.run_bind, executeAll_eq_ok.2 h]
  rfl

end State

end NestedSite.Template
