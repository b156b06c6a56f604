import NestedSite.Template.Grammar.Basic
import NestedSite.Template.Grammar.Field
import NestedSite.Template.StringLiteral

/-!
# The grammar of expressions

Expressions by falling binding strength, with the calls, subscripts and literals that they are made of. The number that
each parser takes first bounds the depth of its calls.
-/

namespace NestedSite.Template

namespace Parser

/-- Whether a name is bound to a value here. -/
def seesBinding : Parser Bool := do
  match (← get).take 2 with
  | [.name _, .operator ":="] => return true
  | _ => return false

/-- Whether a comprehension goes on here. -/
def seesClause : Parser Bool := do
  return (← seesWord "for") || (← seesWord "async")

/-- The order of arguments, after names and after unpacked mappings. -/
def ordered (names mappings : Bool) : List (Expr ⊕ (Option String × Expr)) → Bool
  | [] => true
  | .inl (.starred _) :: rest => !mappings && ordered names mappings rest
  | .inl _ :: rest => !names && !mappings && ordered names mappings rest
  | .inr (some _, _) :: rest => ordered true mappings rest
  | .inr (none, _) :: rest => ordered names true rest

/-- Parameters with a default come after those without. -/
def sorted (seen : Bool) : List Bool → Bool
  | [] => true
  | d :: ds => (d || !seen) && sorted (seen || d) ds

mutual

/-- The parts of a format string, or of a format specification if `nested`, and what follows the latter. -/
def formatParts? (raw : Bool) (nested : Nat) : Nat → List Char → Option (List Expr × List Char)
  | 0, _ => none
  | fuel + 1, cs =>
    (literalPart? (nested ≠ 0) cs).bind fun (literal, doubled, rest) =>
      (StringLiteral.text? raw literal).bind fun text =>
        if doubled then
          (formatParts? raw nested fuel rest).map fun (parts, rest) => (literalExpr text ++ parts, rest)
        else match rest with
          | '\x7b' :: rest =>
            (formatField? raw nested fuel rest).bind fun (field, rest) =>
              (formatParts? raw nested fuel rest).map fun (parts, rest) => (literalExpr text ++ field ++ parts, rest)
          | rest => some (literalExpr text, rest)

/-- A replacement field after its opening brace. Fields may stand in the specification of a field, but not in that of
such a field again. -/
def formatField? (raw : Bool) (nested : Nat) : Nat → List Char → Option (List Expr × List Char)
  | 0, _ => none
  | fuel + 1, cs =>
    if 2 ≤ nested then none
    else (fieldText? [] [] 0 cs).bind fun (text, rest) =>
      if text.all isFieldBlank then none
      else (Token.lex? true ('(' :: text ++ [')'])).bind fun ts =>
        (starExpressions fuel ts).bind fun (value, _) =>
          -- an equals sign shows the expression's own text
          let (shown, rest) := match rest with
            | '=' :: rest =>
              let blanks := rest.takeWhile isFieldBlank
              (text ++ '=' :: blanks, rest.dropWhile isFieldBlank)
            | rest => ([], rest)
          let converted : Option (Option Conversion × List Char) := match rest with
            | '!' :: c :: rest => (conversion? c).map fun k => (some k, rest)
            | '!' :: [] => none
            | rest => some (none, rest)
          converted.bind fun (conversion, rest) =>
            let specified : Option (Option Expr × List Char) := match rest with
              | ':' :: rest =>
                (formatParts? raw (nested + 1) fuel rest).map fun (parts, rest) => (some (.joined parts), rest)
              | rest => some (none, rest)
            specified.bind fun (spec, rest) =>
              match rest with
              | '\x7d' :: rest =>
                let conversion :=
                  if !shown.isEmpty && spec.isNone && conversion.isNone then some Conversion.repr else conversion
                some (literalExpr shown ++ [.formatted value conversion spec], rest)
              | _ => none

/-- Adjacent string literals make one string. -/
def strings : Nat → Parser Expr
  | 0 => failure
  | fuel + 1 => do
    let first ← stringPart fuel
    let rest ← many fuel (stringPart fuel)
    let parts := first :: rest
    if parts.all (fun p => p.1) then
      return .literal (.bytes (parts.flatMap fun p => match p.2 with
        | [.literal (.bytes bs)] => bs
        | _ => []))
    else if parts.any (fun p => p.1) then failure
    else
      let formatted := parts.any fun p => p.2.any fun e => match e with
        | .literal (.text _) => false
        | _ => true
      let all := parts.flatMap (·.2)
      if formatted then return .joined (all.filter fun e => match e with | .joined [] => false | _ => true)
      else
        let text := String.join (all.map fun e => match e with | .literal (.text s) => s | _ => "")
        return .literal (.text text)

/-- One string literal: whether it is a byte string, and its parts. -/
def stringPart : Nat → Parser (Bool × List Expr)
  | 0 => failure
  | fuel + 1 => fun
    | .string markers _ body :: rest =>
      let has := fun (c : Char) => markers.any (fun m => m.toLower == c)
      if has 'b' then
        (StringLiteral.bytes? (has 'r') body).map fun bs => ((true, [.literal (.bytes bs)]), rest)
      else if has 'f' then
        (formatParts? (has 'r') 0 fuel body).bind fun (parts, after) =>
          -- an empty marker keeps the literal a format string
          if after.isEmpty then some ((false, .joined [] :: parts), rest) else none
      else (StringLiteral.text? (has 'r') body).map fun cs => ((false, [.literal (.text (.ofList cs))]), rest)
    | _ => none

/-- An expression: a conditional, a chain of operators or a function. -/
def expression : Nat → Parser Expr
  | 0 => failure
  | fuel + 1 => do
    if ← acceptWord "lambda" then
      parameters fuel false
      op ":"
      let _ ← expression fuel
      return .foreign "Lambda"
    else
      let body ← disjunction fuel
      let rest ← get
      if ← acceptWord "if" then
        (do
          let test ← disjunction fuel
          word "else"
          let orElse ← expression fuel
          return .conditional test body orElse) <|> (do set rest; return body)
      else return body

def disjunction : Nat → Parser Expr
  | 0 => failure
  | fuel + 1 => do
    let first ← conjunction fuel
    let rest ← many fuel (do word "or"; conjunction fuel)
    return if rest.isEmpty then first else .boolean true (first :: rest)

def conjunction : Nat → Parser Expr
  | 0 => failure
  | fuel + 1 => do
    let first ← inversion fuel
    let rest ← many fuel (do word "and"; inversion fuel)
    return if rest.isEmpty then first else .boolean false (first :: rest)

def inversion : Nat → Parser Expr
  | 0 => failure
  | fuel + 1 => do
    if ← acceptWord "not" then return .unary .not (← inversion fuel)
    else
      let first ← binary fuel binaryLevels
      let rest ← many fuel (do let o ← compareOp; return (o, ← binary fuel binaryLevels))
      return if rest.isEmpty then first else .compare first rest

/-- A chain of binary operators, those of the first level binding loosest. -/
def binary : Nat → List (List (String × BinaryOp)) → Parser Expr
  | 0, _ => failure
  | fuel + 1, [] => factor fuel
  | fuel + 1, ops :: levels => do
    let first ← binary fuel levels
    let rest ← many fuel (do let o ← operatorOf ops; return (o, ← binary fuel levels))
    return rest.foldl (fun left (o, right) => .binary o left right) first

def factor : Nat → Parser Expr
  | 0 => failure
  | fuel + 1 => do
    if ← acceptOp "+" then return .unary .plus (← factor fuel)
    else if ← acceptOp "-" then return .unary .minus (← factor fuel)
    else if ← acceptOp "~" then return .unary .invert (← factor fuel)
    else
      let base ← if ← acceptWord "await" then (do let _ ← primary fuel; pure (Expr.foreign "Await"))
        else primary fuel
      if ← acceptOp "**" then return .binary .pow base (← factor fuel) else return base

/-- An atom with the attributes, subscripts and calls that follow it. -/
def primary : Nat → Parser Expr
  | 0 => failure
  | fuel + 1 => do
    let base ← atom fuel
    let trailers ← many fuel (trailer fuel)
    return trailers.foldl (fun e t => t e) base

def trailer : Nat → Parser (Expr → Expr)
  | 0 => failure
  | fuel + 1 => do
    if ← acceptOp "." then
      let attr ← identifier
      return fun e => .attribute e attr
    else if ← acceptOp "[" then
      let index ← subscripts fuel
      op "]"
      return fun e => .subscript e index
    else
      op "("
      let (positional, named) ← arguments fuel
      op ")"
      return fun e => .call e positional named

/-- What stands between the brackets of a subscript. -/
def subscripts : Nat → Parser Expr
  | 0 => failure
  | fuel + 1 => do
    let one : Parser Expr := do
      if ← acceptOp "*" then return .starred (← expression fuel) else slice fuel
    let first ← one
    if ← seesOp "," then
      let rest ← moreItems fuel one
      let _ ← acceptOp ","
      return .tuple (first :: rest)
    else return if isStarred first then .tuple [first] else first

def slice : Nat → Parser Expr
  | 0 => failure
  | fuel + 1 => do
    let bound : Parser (Option Expr) := (some <$> expression fuel) <|> pure none
    let slicing := fun (lower : Option Expr) => do
      op ":"
      let upper ← bound
      let step ← if ← acceptOp ":" then bound else pure none
      return .slice lower upper step
    if ← seesOp ":" then slicing none
    else
      let binds ← seesBinding
      let e ← named fuel
      if !binds && (← seesOp ":") then slicing (some e) else return e

/-- An expression that may bind a name to its value. -/
def named : Nat → Parser Expr
  | 0 => failure
  | fuel + 1 => do
    (do
      let _ ← identifier
      op ":="
      let _ ← expression fuel
      return .foreign "NamedExpr") <|>
    (do
      let e ← expression fuel
      check !(← seesOp ":=")
      return e)

/-- An item of a display: an expression or one that is unpacked. -/
def starNamed : Nat → Parser Expr
  | 0 => failure
  | fuel + 1 => do
    if ← acceptOp "*" then return .starred (← binary fuel binaryLevels) else named fuel

def starExpression : Nat → Parser Expr
  | 0 => failure
  | fuel + 1 => do
    if ← acceptOp "*" then return .starred (← binary fuel binaryLevels) else expression fuel

/-- Expressions with commas between them make a tuple. -/
def starExpressions : Nat → Parser Expr
  | 0 => failure
  | fuel + 1 => do
    let first ← starExpression fuel
    if ← seesOp "," then
      let rest ← moreItems fuel (starExpression fuel)
      let _ ← acceptOp ","
      return .tuple (first :: rest)
    else return first

/-- A `yield`, which has a value. -/
def yielded : Nat → Parser Expr
  | 0 => failure
  | fuel + 1 => do
    word "yield"
    if ← acceptWord "from" then
      let _ ← expression fuel
      return .foreign "YieldFrom"
    else
      let _ ← (some <$> starExpressions fuel) <|> pure none
      return .foreign "Yield"

/-- The value of an assignment. -/
def assigned : Nat → Parser Expr
  | 0 => failure
  | fuel + 1 => do if ← seesWord "yield" then yielded fuel else starExpressions fuel

/-- A target of a loop or comprehension. -/
def target : Nat → Parser Expr
  | 0 => failure
  | fuel + 1 => do
    let star ← acceptOp "*"
    let e ← primary fuel
    check (isTarget e)
    return if star then .starred e else e

def targets : Nat → Parser Expr
  | 0 => failure
  | fuel + 1 => do
    let first ← target fuel
    if ← seesOp "," then
      let rest ← moreItems fuel (target fuel)
      let _ ← acceptOp ","
      return .tuple (first :: rest)
    else return first

/-- The clauses of a comprehension. -/
def clauses : Nat → Parser Unit
  | 0 => failure
  | fuel + 1 => do
    let clause : Parser Unit := do
      let _ ← acceptWord "async"
      word "for"
      let _ ← targets fuel
      word "in"
      let _ ← disjunction fuel
      let _ ← many fuel (do word "if"; disjunction fuel)
    clause
    let _ ← many fuel clause

/-- The arguments of a call: those without a name, and the named ones. Arguments without a name come first, but
unpacked sequences may stand among names, and unpacked mappings after both. -/
def arguments : Nat → Parser (List Expr × List (Option String × Expr))
  | 0 => failure
  | fuel + 1 => do
    if ← seesOp ")" then return ([], [])
    else
      let first ← argument fuel
      if ← seesClause then
        match first with
        | .inl (.starred _) => failure
        | .inl _ =>
          clauses fuel
          check (← seesOp ")")
          return ([.foreign "GeneratorExp"], [])
        | .inr _ => failure
      else
        let rest ← moreItems fuel (argument fuel)
        let _ ← acceptOp ","
        let all := first :: rest
        check (ordered false false all)
        return (all.filterMap fun a => a.getLeft?, all.filterMap fun a => a.getRight?)

def argument : Nat → Parser (Expr ⊕ (Option String × Expr))
  | 0 => failure
  | fuel + 1 => do
    if ← acceptOp "*" then return .inl (.starred (← expression fuel))
    else if ← acceptOp "**" then return .inr (none, ← expression fuel)
    else
      (do
        let name ← identifier
        op "="
        return .inr (some name, ← expression fuel)) <|>
      (do
        let e ← named fuel
        check !(← seesOp "=")
        return .inl e)

/-- Parameters of a function, with annotations if `annotated`, up to the closing bracket or colon. -/
def parameters : Nat → Bool → Parser Unit
  | 0, _ => failure
  | fuel + 1, annotated => do
    let last := if annotated then ")" else ":"
    let annotation : Parser Unit := do
      if annotated then
        if ← acceptOp ":" then
          let _ ← expression fuel
    let starAnnotation : Parser Unit := do
      if annotated then
        if ← acceptOp ":" then
          let _ ← starExpression fuel
    -- a parameter: whether it has a default
    let plain : Parser Bool := do
      let _ ← identifier
      annotation
      if ← acceptOp "=" then (do let _ ← expression fuel; pure true) else pure false
    let separator : Parser Unit := do
      if ← seesOp last then pure () else op ","
    let positional ← many fuel (do let d ← plain; separator; return d)
    let slash ← acceptOp "/"
    if slash then
      check !positional.isEmpty
      separator
    let later ← if slash then many fuel (do let d ← plain; separator; return d) else pure []
    check (sorted false (positional ++ later))
    if ← acceptOp "*" then
      if ← acceptOp "," then
        let rest ← many fuel (do let d ← plain; separator; return d)
        check !rest.isEmpty
      else
        let _ ← identifier
        starAnnotation
        separator
        let _ ← many fuel (do let d ← plain; separator; return d)
    if ← acceptOp "**" then
      let _ ← identifier
      annotation
      separator
    check (← seesOp last)

/-- A name, a literal or something in brackets. -/
def atom : Nat → Parser Expr
  | 0 => failure
  | fuel + 1 => do
    match ← peek with
    | some (.name "True") => word "True"; return .literal (.bool true)
    | some (.name "False") => word "False"; return .literal (.bool false)
    | some (.name "None") => word "None"; return .literal .none
    | some (.name _) => return .name (← identifier)
    | some (.string ..) => strings fuel
    | some (.number text) =>
      token (.number text)
      match numberLiteral? text with
      | some value => return .literal value
      | none => failure
    | some (.operator "...") => op "..."; return .literal .ellipsis
    | some (.operator "(") => op "("; bracketed fuel
    | some (.operator "[") =>
      op "["
      if ← acceptOp "]" then return .list []
      else
        let first ← starNamed fuel
        if ← seesClause then
          check !(isStarred first)
          clauses fuel
          op "]"
          return .foreign "ListComp"
        else
          let rest ← moreItems fuel (starNamed fuel)
          let _ ← acceptOp ","
          op "]"
          return .list (first :: rest)
    | some (.operator "\x7b") => op "\x7b"; braced fuel
    | _ => failure

/-- After an opening parenthesis: a group, a tuple or a generator. -/
def bracketed : Nat → Parser Expr
  | 0 => failure
  | fuel + 1 => do
    if ← acceptOp ")" then return .tuple []
    else if ← seesWord "yield" then
      let e ← yielded fuel
      op ")"
      return e
    else
      let first ← starNamed fuel
      if ← seesClause then
        check !(isStarred first)
        clauses fuel
        op ")"
        return .foreign "GeneratorExp"
      else if ← acceptOp ")" then
        check !(isStarred first)
        return first
      else
        op ","
        let rest ← (items fuel (starNamed fuel)) <|> pure []
        let _ ← if rest.isEmpty then pure false else acceptOp ","
        op ")"
        return .tuple (first :: rest)

/-- After an opening brace: a dictionary, a set or a comprehension of either. -/
def braced : Nat → Parser Expr
  | 0 => failure
  | fuel + 1 => do
    let entry : Parser (Option Expr × Expr) := do
      if ← acceptOp "**" then return (none, ← binary fuel binaryLevels)
      else
        let key ← expression fuel
        op ":"
        return (some key, ← expression fuel)
    if ← acceptOp "\x7d" then return .dict []
    else if ← seesOp "**" then
      let entries ← items fuel entry
      let _ ← acceptOp ","
      op "\x7d"
      return .dict entries
    else
      let binds ← seesBinding
      let first ← starNamed fuel
      if ← acceptOp ":" then
        check (!binds && !isStarred first)
        let value ← expression fuel
        if ← seesClause then
          clauses fuel
          op "\x7d"
          return .foreign "DictComp"
        else
          let rest ← moreItems fuel entry
          let _ ← acceptOp ","
          op "\x7d"
          return .dict ((some first, value) :: rest)
      else if ← seesClause then
        check !(isStarred first)
        clauses fuel
        op "\x7d"
        return .foreign "SetComp"
      else
        let rest ← moreItems fuel (starNamed fuel)
        let _ ← acceptOp ","
        op "\x7d"
        return .set (first :: rest)

end

end Parser

end NestedSite.Template
