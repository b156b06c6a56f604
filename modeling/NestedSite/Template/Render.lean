import NestedSite.Template.Evaluate

/-!
# Rendering templates

`Template.render` executes the blocks of a template in their order and gives the text that they put out. What a
template assigns is known to that one rendering; the context changes only where something that is called changes it.
-/

namespace NestedSite.Template

/-- What a rendering has assigned and put out. -/
structure Progress where
  locals : Bindings := []
  output : String := ""

/-- A step of a rendering. -/
abbrev Step := StateT Progress Run

/-- What stays the same during a rendering. -/
structure Setting where
  host : Host
  context : Option Nat
  base : Bindings

namespace Step

def put (text : String) : Step Unit := modify fun p => { p with output := p.output ++ text }

def evaluate (setting : Setting) (e : Expr) : Step Value := do
  e.eval setting.host ⟨(← get).locals, setting.context, setting.base⟩

mutual

/-- Assigns a value to a name, or its items to several targets. -/
def assign : Expr → Value → Step Unit
  | .name id, v => modify fun p => { p with locals := p.locals.bind (scopeKey id) v }
  | .tuple targets, v | .list targets, v => do
    let vs ← Run.items v
    if vs.length != targets.length then throw (.unpacking vs.length targets.length)
    assignAll targets vs
  | _, _ => Run.lack .target

def assignAll : List Expr → List Value → Step Unit
  | t :: ts, v :: vs => do
    assign t v
    assignAll ts vs
  | _, _ => return

end

def perform (setting : Setting) : Statement → Step Unit
  | .expression e => discard <| evaluate setting e
  | .assign targets e => do
    let v ← evaluate setting e
    targets.forM fun t => assign t v
  | .augmented target op e => do
    let current ← evaluate setting target
    Run.needRule op.hasRule (.binary op)
    let v ← evaluate setting e
    assign target (← Run.binary op current v)
  | s => Run.lack (.statement s.kind)

/-- Does `body` for every item that a cursor has left, and says whether there was one. A loop that makes itself more
items is broken off in the end. -/
def forEach (cursor : Nat) (body : Value → Step Unit) : Nat → Bool → Step Bool
  | 0, _ => do
    Run.record .breakOff
    throw .tooLarge
  | n + 1, looped => do
    match ← Run.next? cursor with
    | none => return looped
    | some v =>
      body v
      forEach cursor body n true

/-- Does `body` for every item of a value, and says whether there was one. -/
def forAll (v : Value) (body : Value → Step Unit) : Step Bool := do
  let cursor ← Run.cursor v
  let left ← Run.left cursor
  forEach cursor body (left + sizeLimit) false

mutual

def execute (setting : Setting) : Block → Step Unit
  | .text s => put s
  | .output e => do
    match ← evaluate setting e with
    | .none => return
    | v => put (← Run.text v)
  | .action s => perform setting s
  | .loop target iterable body orElse => do
    let looped ← forAll (← evaluate setting iterable) fun v => do
      assign target v
      executeAll setting body
    if !looped then executeAll setting orElse
  | .choice branches orElse => do
    if !(← executeFirst setting branches) then executeAll setting orElse

def executeAll (setting : Setting) : List Block → Step Unit
  | [] => return
  | b :: bs => do
    execute setting b
    executeAll setting bs

/-- Executes the first branch whose test holds, and says whether there was one. -/
def executeFirst (setting : Setting) : List (Expr × List Block) → Step Bool
  | [] => return false
  | (test, body) :: rest => do
    if ← Run.truth (← evaluate setting test) then
      executeAll setting body
      return true
    else executeFirst setting rest

end

end Step

end Template

/-- The text that a template puts out for the context at a place; `base` is the scope that it was compiled with. -/
def Template.render (host : Host) (base : Template.Bindings) (t : Template) (context : Option Nat) : Run String := do
  let ((), progress) ← (Template.Step.executeAll ⟨host, context, base⟩ t.blocks).run {}
  return progress.output

/-- The base scope of a template: the builtins, and what `imports` adds to them or puts in their place. -/
def Template.baseScope (imports : Template.Bindings) : Template.Bindings :=
  Template.builtinBindings.bindAll imports

end NestedSite
