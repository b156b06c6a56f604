import NestedSite.Template.Grammar.Statement

/-!
# The grammar of fragments

`expression?` reads a whole text as one expression, `statements?` as a sequence of statements. The grammar is that of
a general-purpose language, of which templates use a part; the rest is read in full, so that a fragment outside the
template language is told apart from one that is no fragment at all. `fuelFor` gives the parsers of a text more depth
than they need.
-/

namespace NestedSite.Template

/-- More than the depth of the calls on a text. -/
def Parser.fuelFor (cs : List Char) : Nat := 60 * (cs.length + 4)

/-- Reads a text as one expression; several with commas between them make a tuple. -/
def expression? (text : List Char) : Option Expr :=
  (Token.lex? false text).bind fun ts =>
    match whole (Parser.fuelFor text) ts with
    | some (e, rest) => if rest.all (· == .lineEnd) then some e else none
    | none => none
where
  whole (fuel : Nat) : Parser Expr := do
    let first ← Parser.expression fuel
    if ← Parser.seesOp "," then
      let rest ← Parser.moreItems fuel (Parser.expression fuel)
      let _ ← Parser.acceptOp ","
      return .tuple (first :: rest)
    else return first

/-- Reads a text as a sequence of statements. -/
def statements? (text : List Char) : Option (List Statement) :=
  (Token.lex? true text).bind fun ts =>
    let fuel := Parser.fuelFor text
    match Parser.many fuel (Parser.statement fuel) ts with
    | some (all, []) => some all.flatten
    | _ => none

end NestedSite.Template
