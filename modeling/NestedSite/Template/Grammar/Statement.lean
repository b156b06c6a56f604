import NestedSite.Template.Grammar.Expression
import NestedSite.Template.Grammar.Pattern

/-!
# The grammar of statements

Simple statements, which end with their line, and compound ones with their blocks. Of these the header of a loop or a
condition is kept, and of the others the kind alone.
-/

namespace NestedSite.Template

namespace Parser

/-- The names of a module, with dots between them. -/
def moduleName (n : Nat) : Parser Unit := dottedName n

/-- A name that something imported gets. -/
def importAlias : Parser Unit := do
  if ← acceptWord "as" then
    let _ ← identifier

/-- A statement that begins with a keyword and ends with its line. -/
def keywordStatement (n : Nat) (keyword : String) : Parser Statement := do
  word keyword
  match keyword with
  | "return" =>
    let _ ← (some <$> starExpressions n) <|> pure none
    return .foreign "Return"
  | "import" =>
    let _ ← items n (do moduleName n; importAlias)
    return .foreign "Import"
  | "from" =>
    let dots ← many n (op "." <|> op "...")
    if !(← seesWord "import") || dots.isEmpty then moduleName n
    word "import"
    let name : Parser Unit := do
      let _ ← identifier
      importAlias
    if ← acceptOp "(" then
      let _ ← items n name
      let _ ← acceptOp ","
      op ")"
    else if ← acceptOp "*" then pure ()
    else
      let _ ← items n name
    return .foreign "ImportFrom"
  | "raise" =>
    let cause : Parser Unit := do
      let _ ← expression n
      if ← acceptWord "from" then
        let _ ← expression n
    cause <|> pure ()
    return .foreign "Raise"
  | "pass" => return .foreign "Pass"
  | "del" =>
    let one : Parser Unit := do check (isDeletable (← primary n))
    let _ ← items n one
    let _ ← acceptOp ","
    check ((← seesOp ";") || (← sees .lineEnd))
    return .foreign "Delete"
  | "assert" =>
    let _ ← expression n
    if ← acceptOp "," then
      let _ ← expression n
    return .foreign "Assert"
  | "break" => return .foreign "Break"
  | "continue" => return .foreign "Continue"
  | "global" =>
    let _ ← items n identifier
    return .foreign "Global"
  | "nonlocal" =>
    let _ ← items n identifier
    return .foreign "Nonlocal"
  | _ => failure

/-- The words that begin a statement of one line. -/
def statementWords : List String :=
  ["return", "import", "from", "raise", "pass", "del", "assert", "break", "continue", "global", "nonlocal"]

/-- An expression or an assignment. -/
def plainStatement (n : Nat) : Parser Statement := do
  if ← seesWord "yield" then return .expression (← yielded n)
  else
    let first ← starExpressions n
    if ← seesOp "=" then
      let rest ← many n (do op "="; assigned n)
      match rest.getLast? with
      | some value =>
        let targets := first :: rest.dropLast
        check (areTargets targets)
        return .assign targets value
      | none => failure
    else if ← acceptOp ":" then
      check (isSingleTarget first)
      let _ ← expression n
      if ← acceptOp "=" then
        let _ ← assigned n
      return .foreign "AnnAssign"
    else
      (do
        let o ← operatorOf augmentedOps
        check (isSingleTarget first)
        return .augmented first o (← assigned n)) <|> return .expression first

def simpleStatement (n : Nat) : Parser Statement := do
  match ← peek with
  | some (.name w) => if statementWords.contains w then keywordStatement n w else plainStatement n
  | _ => plainStatement n

/-- The statements of one line. -/
def lineStatements (n : Nat) : Parser (List Statement) := do
  let first ← simpleStatement n
  let rest ← many n (do op ";"; simpleStatement n)
  let _ ← acceptOp ";"
  token .lineEnd
  return first :: rest

mutual

/-- The statements that a header governs: the rest of its line or an indented block. -/
def block : Nat → Parser Unit
  | 0 => failure
  | fuel + 1 => do
    if ← accept .lineEnd then
      token .indent
      let _ ← statement fuel
      let _ ← many fuel (statement fuel)
      token .dedent
    else
      let _ ← lineStatements fuel

/-- A keyword, a colon and a block, if the keyword comes next. -/
def optionalBlock : Nat → String → Parser Bool
  | 0, _ => failure
  | fuel + 1, keyword => do
    if ← acceptWord keyword then
      op ":"
      block fuel
      return true
    else return false

def conditionRest : Nat → Parser Statement
  | 0 => failure
  | fuel + 1 => do
    let test ← named fuel
    op ":"
    block fuel
    if ← acceptWord "elif" then
      let _ ← conditionRest fuel
    else
      let _ ← optionalBlock fuel "else"
    return .condition test

def loopRest : Nat → Parser Statement
  | 0 => failure
  | fuel + 1 => do
    let t ← targets fuel
    word "in"
    let iterable ← starExpressions fuel
    op ":"
    block fuel
    let _ ← optionalBlock fuel "else"
    return .loop t iterable

def resourceRest : Nat → Parser Unit
  | 0 => failure
  | fuel + 1 => do
    let item : Parser Unit := do
      (do
        let _ ← expression fuel
        word "as"
        let _ ← target fuel
        check ((← seesOp ",") || (← seesOp ")") || (← seesOp ":"))) <|>
      (do let _ ← expression fuel)
    (do
      op "("
      let _ ← items fuel item
      let _ ← acceptOp ","
      op ")"
      op ":"
      block fuel) <|>
    (do
      let _ ← items fuel item
      op ":"
      block fuel)

def functionRest : Nat → Parser Unit
  | 0 => failure
  | fuel + 1 => do
    let _ ← identifier
    op "("
    parameters fuel true
    op ")"
    if ← acceptOp "->" then
      let _ ← expression fuel
    op ":"
    block fuel

def classRest : Nat → Parser Unit
  | 0 => failure
  | fuel + 1 => do
    let _ ← identifier
    if ← acceptOp "(" then
      let _ ← arguments fuel
      op ")"
    op ":"
    block fuel

/-- A `try`; its handlers are all plain or all for groups. -/
def attemptRest : Nat → Parser Statement
  | 0 => failure
  | fuel + 1 => do
    op ":"
    block fuel
    if ← optionalBlock fuel "finally" then return .foreign "Try"
    else
      let handler := fun (group : Bool) => do
        word "except"
        if group then op "*"
        let needed := group || !(← seesOp ":")
        if needed then
          let _ ← expression fuel
          importAlias
        op ":"
        block fuel
      let close : Parser Unit := do
        let _ ← optionalBlock fuel "else"
        let _ ← optionalBlock fuel "finally"
      let plain ← many fuel (handler false)
      if plain.isEmpty then
        handler true
        let _ ← many fuel (handler true)
        close
        return .foreign "TryStar"
      else
        close
        return .foreign "Try"

def choiceRest : Nat → Parser Unit
  | 0 => failure
  | fuel + 1 => do
    let first ← starNamed fuel
    if ← seesOp "," then
      let _ ← moreItems fuel (starNamed fuel)
      let _ ← acceptOp ","
    else check !(isStarred first)
    op ":"
    token .lineEnd
    token .indent
    let case : Parser Unit := do
      word "case"
      openPattern fuel
      if ← acceptWord "if" then
        let _ ← named fuel
      op ":"
      block fuel
    case
    let _ ← many fuel case
    token .dedent

/-- A statement with a block, or the statements of one line. -/
def statement : Nat → Parser (List Statement)
  | 0 => failure
  | fuel + 1 => do
    if ← acceptWord "if" then return [← conditionRest fuel]
    else if ← acceptWord "for" then return [← loopRest fuel]
    else if ← acceptWord "while" then
      let _ ← named fuel
      op ":"
      block fuel
      let _ ← optionalBlock fuel "else"
      return [.foreign "While"]
    else if ← acceptWord "with" then
      resourceRest fuel
      return [.foreign "With"]
    else if ← acceptWord "try" then return [← attemptRest fuel]
    else if ← acceptWord "async" then
      if ← acceptWord "def" then
        functionRest fuel
        return [.foreign "AsyncFunctionDef"]
      else if ← acceptWord "for" then
        let _ ← loopRest fuel
        return [.foreign "AsyncFor"]
      else
        word "with"
        resourceRest fuel
        return [.foreign "AsyncWith"]
    else
      let decorators ← many fuel (do
        op "@"
        let _ ← named fuel
        token .lineEnd)
      if ← acceptWord "def" then
        functionRest fuel
        return [.foreign "FunctionDef"]
      else if ← acceptWord "class" then
        classRest fuel
        return [.foreign "ClassDef"]
      else if ← acceptWord "async" then
        check !decorators.isEmpty
        word "def"
        functionRest fuel
        return [.foreign "AsyncFunctionDef"]
      else
        check decorators.isEmpty
        (do
          word "match"
          choiceRest fuel
          return [.foreign "Match"]) <|> lineStatements fuel

end

end Parser

end NestedSite.Template
