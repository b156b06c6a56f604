/-!
# Patterns

A pattern is a tree of what it matches (`Pattern.Node`). The flags of a pattern are resolved into its nodes: each node
says by itself whether case matters, which characters are letters, and where lines end. `Node.width` bounds the number
of characters that a node matches.
-/

namespace NestedSite.Pattern

/-- A class of characters. -/
inductive Class where
  | digit | blank | word
  deriving Repr, DecidableEq

/-- A member of a set of characters. -/
inductive SetItem where
  | char (c : Char)
  | range (low high : Char)
  /-- A class, or what is not in it; `ascii` narrows the class to ASCII. -/
  | cls (c : Class) (negated ascii : Bool)
  deriving Repr, DecidableEq

/-- A condition on a position. -/
inductive Anchor where
  | textStart
  | textEnd
  /-- The end of the text, or the line end at its end. -/
  | lastLineEnd
  | lineStart
  | lineEnd
  | boundary (negated ascii : Bool)
  deriving Repr, DecidableEq

inductive Style where
  | greedy | lazy
  /-- As often as possible, and never less once that is done. -/
  | possessive
  deriving Repr, DecidableEq

inductive Node where
  | char (c : Char) (anyCase : Bool)
  /-- Any character; with `lineEnds`, also the end of a line. -/
  | any (lineEnds : Bool)
  | set (items : List SetItem) (negated anyCase : Bool)
  | anchor (a : Anchor)
  /-- Keeps what the body matches under a number. -/
  | group (index : Nat) (body : Node)
  /-- What a group has kept, once more. -/
  | back (index : Nat) (anyCase : Bool)
  /-- The body matches at this position, or, with `width`, so many characters before it. -/
  | look (positive : Bool) (width : Option Nat) (body : Node)
  /-- One of two ways on, by whether a group has kept something. -/
  | given (index : Nat) (yes no : Node)
  /-- The first way in which the body matches, and no other. -/
  | atomic (body : Node)
  | repeat (least : Nat) (most : Option Nat) (style : Style) (body : Node)
  | seq (items : List Node)
  | alt (branches : List Node)
  deriving Inhabited

/-- A bound of a width; none is unbounded. -/
abbrev Bound := Option Nat

namespace Bound

def add : Bound → Bound → Bound
  | some a, some b => some (a + b)
  | _, _ => none

def mul : Bound → Bound → Bound
  | some a, some b => some (a * b)
  | some 0, none | none, some 0 => some 0
  | _, _ => none

def max : Bound → Bound → Bound
  | some a, some b => some (Nat.max a b)
  | _, _ => none

end Bound

mutual

/-- The least and the greatest number of characters that a node matches; `groups` gives those of the groups. -/
def Node.width (groups : List (Nat × Nat × Bound)) : Node → Nat × Bound
  | .char .. | .any _ | .set .. => (1, some 1)
  | .anchor _ | .look .. => (0, some 0)
  | .group _ body | .atomic body => body.width groups
  | .back i _ => ((groups.find? fun g => g.1 == i).map Prod.snd).getD (0, some 0)
  | .given _ yes no =>
    let (a, b) := yes.width groups
    let (c, d) := no.width groups
    (min a c, b.max d)
  | .repeat least most _ body =>
    let (a, b) := body.width groups
    (a * least, b.mul most)
  | .seq items => seqWidth groups items
  | .alt branches => altWidth groups branches

def seqWidth (groups : List (Nat × Nat × Bound)) : List Node → Nat × Bound
  | [] => (0, some 0)
  | n :: ns =>
    let (a, b) := n.width groups
    let (c, d) := seqWidth groups ns
    (a + c, b.add d)

def altWidth (groups : List (Nat × Nat × Bound)) : List Node → Nat × Bound
  | [] => (0, some 0)
  | [n] => n.width groups
  | n :: ns =>
    let (a, b) := n.width groups
    let (c, d) := altWidth groups ns
    (min a c, b.max d)

end

end NestedSite.Pattern

namespace NestedSite

/-- A pattern that can be searched for. -/
structure Pattern where
  root : Pattern.Node
  /-- The number of its groups. -/
  groups : Nat
  /-- The groups that have names. -/
  names : List (String × Nat)
  deriving Inhabited

end NestedSite
