import NestedSite.Number.Reading
import NestedSite.Template.Expr
import NestedSite.Template.Token
import NestedSite.Text.Compatibility

/-!
# Parsers of tokens

A parser maps the tokens that are left to a value and the tokens left after it (`Parser`). Here are the parsers of
single tokens and of lists, the operators by their binding strength, the values of numbers, and what can be assigned
to or deleted.
-/

namespace NestedSite.Template

/-- A parser: it fails, or it reads a value from the front of the tokens. -/
abbrev Parser := StateT (List Token) Option

namespace Parser

/-- The words that are no names. -/
def keywords : List String :=
  ["False", "None", "True", "and", "as", "assert", "async", "await", "break", "class", "continue", "def", "del",
    "elif", "else", "except", "finally", "for", "from", "global", "if", "import", "in", "is", "lambda", "nonlocal",
    "not", "or", "pass", "raise", "return", "try", "while", "with", "yield"]

def peek : Parser (Option Token) := do return (← get).head?

/-- Takes the next token if it is `t`. -/
def token (t : Token) : Parser Unit := fun
  | u :: rest => if u == t then some ((), rest) else none
  | [] => none

def op (text : String) : Parser Unit := token (.operator text)

def word (text : String) : Parser Unit := token (.name text)

/-- Whether the next token is `t`, which is then taken. -/
def accept (t : Token) : Parser Bool := fun
  | u :: rest => if u == t then some (true, rest) else some (false, u :: rest)
  | [] => some (false, [])

def acceptOp (text : String) : Parser Bool := accept (.operator text)

def acceptWord (text : String) : Parser Bool := accept (.name text)

/-- Whether the next token is `t`, which is left. -/
def sees (t : Token) : Parser Bool := do return (← peek) == some t

def seesOp (text : String) : Parser Bool := sees (.operator text)

def seesWord (text : String) : Parser Bool := sees (.name text)

/-- A name that is not written as a keyword. All compatible spellings are one name. -/
def identifier : Parser String := fun
  | .name text :: rest =>
    if keywords.contains text then none else some (.ofList (Text.compatible text.toList), rest)
  | _ => none

/-- As many as there are, up to `n`. -/
def many {α : Type} : Nat → Parser α → Parser (List α)
  | 0, _ => pure []
  | n + 1, p => (do let x ← p; return x :: (← many n p)) <|> pure []

/-- Items after the first one, with a comma before each; a comma that no item follows is left. -/
def moreItems {α : Type} (n : Nat) (p : Parser α) : Parser (List α) := many n (do op ","; p)

/-- One or more items with commas between them. -/
def items {α : Type} (n : Nat) (p : Parser α) : Parser (List α) := do
  let x ← p
  return x :: (← moreItems n p)

/-- Succeeds if `p` would not. -/
def notAhead {α : Type} (p : Parser α) : Parser Unit := fun ts =>
  match p ts with
  | some _ => none
  | none => some ((), ts)

/-! ## Numbers and targets -/

/-- The value of a number token. -/
def numberLiteral? (text : String) : Option Literal :=
  let cs := text.toList.filter (· ≠ '_')
  match cs with
  | '0' :: x :: ds =>
    if x == 'x' || x == 'X' then (Number.natural? 16 ds).map .int
    else if x == 'o' || x == 'O' then (Number.natural? 8 ds).map .int
    else if x == 'b' || x == 'B' then (Number.natural? 2 ds).map .int
    else decimal cs
  | cs => decimal cs
where
  /-- Whole numbers have a limit on their digits, which binary and hexadecimal ones do not share. -/
  decimal (cs : List Char) : Option Literal :=
    match cs.getLast? with
    | some j =>
      if j == 'j' || j == 'J' then
        (Number.decimal? cs.dropLast).map fun (ds, e) => .imaginary (Number.nearestDecimal ds e)
      else if cs.all Text.isAsciiDigit then
        if cs.length ≤ 4300 then (Number.natural? 10 cs).map .int else none
      else (Number.decimal? cs).map fun (ds, e) => .float (Number.nearestDecimal ds e)
    | none => none

mutual

/-- Whether a value can be assigned to an expression. -/
def isTarget : Expr → Bool
  | .name _ | .attribute .. | .subscript .. => true
  | .tuple es | .list es => areTargets es
  | .starred e => isTarget e && !isStarred e
  | _ => false

def areTargets : List Expr → Bool
  | [] => true
  | e :: es => isTarget e && areTargets es

def isStarred : Expr → Bool
  | .starred _ => true
  | _ => false

end

/-- A target without unpacking. -/
def isSingleTarget : Expr → Bool
  | .name _ | .attribute .. | .subscript .. => true
  | _ => false

mutual

/-- Whether an expression can be deleted. -/
def isDeletable : Expr → Bool
  | .name _ | .attribute .. | .subscript .. => true
  | .tuple es | .list es => areDeletable es
  | _ => false

def areDeletable : List Expr → Bool
  | [] => true
  | e :: es => isDeletable e && areDeletable es

end

/-- Goes on only if the test holds. -/
def check (b : Bool) : Parser Unit := if b then pure () else failure

/-! ## Operators by binding strength -/

/-- The binary operators, the loosest first. -/
def binaryLevels : List (List (String × BinaryOp)) :=
  [[("|", .bitOr)], [("^", .bitXor)], [("&", .bitAnd)], [("<<", .shiftLeft), (">>", .shiftRight)],
    [("+", .add), ("-", .sub)], [("*", .mul), ("/", .div), ("//", .floorDiv), ("%", .mod), ("@", .matMul)]]

def augmentedOps : List (String × BinaryOp) :=
  [("+=", .add), ("-=", .sub), ("*=", .mul), ("/=", .div), ("//=", .floorDiv), ("%=", .mod), ("**=", .pow),
    ("@=", .matMul), ("<<=", .shiftLeft), (">>=", .shiftRight), ("|=", .bitOr), ("^=", .bitXor), ("&=", .bitAnd)]

/-- Takes the next token if it is one of the operators. -/
def operatorOf (ops : List (String × BinaryOp)) : Parser BinaryOp := fun
  | .operator text :: rest => (ops.lookup text).map fun o => (o, rest)
  | _ => none

def compareOp : Parser CompareOp := fun
  | .operator "==" :: rest => some (.eq, rest)
  | .operator "!=" :: rest => some (.ne, rest)
  | .operator "<=" :: rest => some (.le, rest)
  | .operator "<" :: rest => some (.lt, rest)
  | .operator ">=" :: rest => some (.ge, rest)
  | .operator ">" :: rest => some (.gt, rest)
  | .name "not" :: .name "in" :: rest => some (.notIn, rest)
  | .name "in" :: rest => some (.in, rest)
  | .name "is" :: .name "not" :: rest => some (.isNot, rest)
  | .name "is" :: rest => some (.is, rest)
  | _ => none

end Parser

end NestedSite.Template
