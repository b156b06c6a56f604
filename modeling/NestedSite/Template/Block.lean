import NestedSite.Template.Check
import NestedSite.Template.Grammar
import NestedSite.Template.Instruction

/-!
# Blocks

A template is a tree of texts, outputs, actions, loops and choices (`Block`). `Template.compile` scans a source into
its instructions, parses their fragments and nests them: `for` and `if` open a block, `elif` and `else` continue it,
and `end`, `endfor`, `endif` or an empty statement close the innermost one.
-/

namespace NestedSite.Template

open Text

inductive Block where
  | text (s : String)
  /-- The value of an expression is put out; nothing is put out for no value. -/
  | output (value : Expr)
  | action (statement : Statement)
  /-- `orElse` is done if there was no item. -/
  | loop (target iterable : Expr) (body orElse : List Block)
  /-- The first branch whose test holds is done, or `orElse`. -/
  | choice (branches : List (Expr × List Block)) (orElse : List Block)
  deriving Inhabited

/-! ## Fragments -/

/-- Refuses an expression with a fault. -/
def checkExpr (fragment : String) (e : Expr) : Except Fault Unit :=
  match e.faults with
  | [] => pure ()
  | f :: _ => throw (.template f (some fragment))

def checkTarget (fragment : String) (e : Expr) : Except Fault Unit :=
  match targetFault? e with
  | none => pure ()
  | some f => throw (.template f (some fragment))

/-- Reads a fragment as an expression that templates may contain. -/
def parseExpression (fragment : String) : Except Fault Expr := do
  match expression? (strip (mangle fragment).toList) with
  | none => throw (.template .badExpression (some fragment))
  | some e =>
    checkExpr fragment e
    return e

/-- Reads a fragment as a statement: an expression or an assignment. -/
def parseAction (code : String) : Except Fault Statement := do
  let refuse := fun {α : Type} (f : TemplateFault) => (throw (Fault.template f (some code)) : Except Fault α)
  match statements? (mangle code).toList with
  | none => refuse .badStatement
  | some [s] =>
    match s with
    | .expression value => checkExpr code value
    | .assign targets value =>
      targets.forM (checkTarget code)
      checkExpr code value
    | .augmented target op value =>
      match target with
      | .name _ => checkTarget code target
      | _ => refuse .badTarget
      checkExpr code (.binary op (.literal (.int 0)) value)
    | s => refuse (.foreignStatement s.kind)
    return s
  | some _ => refuse .severalStatements

/-- Reads what stands after a keyword as the header of a block, with the body that the grammar asks for. -/
def parseHeader (keyword rest code : String) : Except Fault Statement :=
  let text := mangle (if rest.isEmpty then keyword else keyword ++ " " ++ rest)
  match statements? (text ++ ":\n    pass").toList with
  | some (s :: _) => pure s
  | _ => throw (.template (.badHeader keyword) (some code))

def parseLoop (rest code : String) : Except Fault (Expr × Expr) := do
  match ← parseHeader "for" rest code with
  | .loop target iterable =>
    checkTarget code target
    checkExpr code iterable
    return (target, iterable)
  | _ => throw (.template (.badHeader "for") (some code))

def parseTest (rest code : String) : Except Fault Expr := do
  match ← parseHeader "if" rest code with
  | .condition test =>
    checkExpr code test
    return test
  | _ => throw (.template (.badHeader "if") (some code))

/-! ## Statements by their first word -/

/-- What a statement does to the nesting of blocks. -/
inductive Turn where
  | stop
  | loop (rest : String)
  | condition (rest : String)
  | elif (rest : String)
  | orElse (rest : String)
  | action

/-- What follows a keyword that ends there, without the blanks around it and one colon at its end. -/
def afterKeyword? (keyword : String) (code : List Char) : Option String :=
  match code.drop keyword.length with
  | rest =>
    if keyword.toList.isPrefixOf code && !(rest.head?.any fun c => isAlphanumeric c || c == '_') then
      let rest := rest.dropWhile isBlank
      let rest := if rest.getLast? == some ':' then rest.dropLast else rest
      some (.ofList (dropEndWhile isBlank rest))
    else none

def Turn.ofCode (code : String) : Turn :=
  if ["", "end", "endfor", "endif"].contains code then .stop
  else
    let cs := code.toList
    match afterKeyword? "for" cs, afterKeyword? "if" cs, afterKeyword? "elif" cs, afterKeyword? "else" cs with
    | some rest, _, _, _ => .loop rest
    | _, some rest, _, _ => .condition rest
    | _, _, some rest, _ => .elif rest
    | _, _, _, some rest => .orElse rest
    | _, _, _, _ => .action

/-! ## Nesting -/

/-- A block that is not yet closed, and what it holds so far apart from the part that is being filled. -/
inductive Opened where
  | loopBody (target iterable : Expr)
  | loopElse (target iterable : Expr) (body : List Block)
  | branch (earlier : List (Expr × List Block)) (test : Expr)
  | choiceElse (branches : List (Expr × List Block))

/-- The finished block, with `last` in the part that is being filled. -/
def Opened.close (last : List Block) : Opened → Block
  | loopBody target iterable => .loop target iterable last []
  | loopElse target iterable body => .loop target iterable body last
  | branch earlier test => .choice (earlier ++ [(test, last)]) []
  | choiceElse branches => .choice branches last

/-- The blocks that are open, innermost first, each with the blocks before it, and the blocks of the part that is
being filled; the blocks are in reverse order. -/
structure Nesting where
  opened : List (Opened × List Block)
  current : List Block

namespace Nesting

def add (n : Nesting) (b : Block) : Nesting := { n with current := b :: n.current }

def enter (n : Nesting) (o : Opened) : Nesting := ⟨(o, n.current) :: n.opened, []⟩

/-- Takes one more instruction. -/
def step (n : Nesting) : Instruction → Except Fault Nesting
  | .literal text => pure (n.add (.text text))
  | .expression code => return n.add (.output (← parseExpression code))
  | .statement code =>
    let refuse := fun (f : TemplateFault) => throw (Fault.template f (some code))
    match Turn.ofCode code with
    | .stop =>
      match n.opened with
      | (o, outer) :: rest => pure ⟨rest, o.close n.current.reverse :: outer⟩
      | [] => refuse .strayEnd
    | .action => return n.add (.action (← parseAction code))
    | .loop rest => do
      let (target, iterable) ← parseLoop rest code
      return n.enter (.loopBody target iterable)
    | .condition rest => return n.enter (.branch [] (← parseTest rest code))
    | .elif rest =>
      match n.opened with
      | (.branch earlier test, outer) :: opened => do
        let next ← parseTest rest code
        return ⟨(.branch (earlier ++ [(test, n.current.reverse)]) next, outer) :: opened, []⟩
      | _ => refuse .strayElif
    | .orElse rest =>
      if !rest.isEmpty then refuse .strayElse
      else match n.opened with
      | (.loopBody target iterable, outer) :: opened =>
        pure ⟨(.loopElse target iterable n.current.reverse, outer) :: opened, []⟩
      | (.branch earlier test, outer) :: opened =>
        pure ⟨(.choiceElse (earlier ++ [(test, n.current.reverse)]), outer) :: opened, []⟩
      | _ => refuse .strayElse

end Nesting

/-- The tree of a sequence of instructions. -/
def buildBlocks (instructions : List Instruction) : Except Fault (List Block) := do
  let n ← instructions.foldlM Nesting.step ⟨[], []⟩
  match n.opened with
  | [] => return n.current.reverse
  | _ => throw (.template .unclosedBlock none)

end Template

/-- A template that can be rendered. -/
structure Template where
  instructions : List Template.Instruction
  blocks : List Template.Block
  deriving Inhabited

namespace Template

def compile (source : String) : Except Fault Template := do
  let instructions := Instruction.scan source
  return ⟨instructions, ← buildBlocks instructions⟩

end NestedSite.Template
