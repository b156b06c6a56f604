import NestedSite.Pattern.Match
import NestedSite.Pattern.Parse

/-!
# Globs

In a glob, `*` stands for any characters, `?` for one, and brackets for one of a set, or, after `!`, for one outside
it. A glob matches whole texts (`Glob.holds`). Sets are read as those of patterns, once their ranges are in order.
-/

namespace NestedSite

open Text

namespace Glob

/-- Cuts the inside of brackets at the hyphens that make ranges: such a hyphen stands neither at the front nor within
three characters of the one before. `skip` characters cannot be such a hyphen. -/
def chunks (skip : Nat) (current : List Char) : List Char → List (List Char)
  | [] => [current.reverse]
  | c :: cs =>
    match skip with
    | k + 1 => chunks k (c :: current) cs
    | 0 => if c == '-' then current.reverse :: chunks 2 [] cs else chunks 0 (c :: current) cs

/-- A hyphen at the end makes no range. -/
def mendLast : List (List Char) → List (List Char)
  | [a, []] => [a ++ ['-']]
  | a :: rest => a :: mendLast rest
  | [] => []

/-- Drops the ranges that run backwards, from the last one on. -/
def dropEmptyRanges : List (List Char) → List (List Char)
  | [] => []
  | a :: rest =>
    match dropEmptyRanges rest with
    | [] => [a]
    | b :: rest =>
      match a.getLast?, b.head? with
      | some low, some high => if high < low then (a.dropLast ++ b.drop 1) :: rest else a :: b :: rest
      | _, _ => a :: b :: rest

/-- Puts a backslash before the characters that `p` picks. -/
def escapeWhere (p : Char → Bool) (cs : List Char) : List Char :=
  cs.flatMap fun c => if p c then ['\\', c] else [c]

/-- The inside of brackets as that of a set in a pattern. -/
def setText (body : List Char) : List Char :=
  let stuff :=
    if body.contains '-' then
      let skip := if body.head? == some '!' then 2 else 1
      let parts := dropEmptyRanges (mendLast (chunks skip [] body))
      ['-'].intercalate (parts.map (escapeWhere fun c => c == '\\' || c == '-'))
    else escapeWhere (· == '\\') body
  escapeWhere (fun c => c == '&' || c == '~' || c == '|') stuff

/-- What a glob matches at one place. -/
inductive Part where
  | many
  | one
  | char (c : Char)
  /-- A set, as it is written in a pattern. -/
  | set (text : List Char)
  /-- A set without members. -/
  | nothing

/-- The inside of the brackets that open here, if they are closed; a closing bracket at the front belongs to it. -/
def bracketed? (cs : List Char) : Option (List Char) :=
  let lead := match cs with
    | '!' :: ']' :: _ => 2
    | ']' :: _ | '!' :: _ => 1
    | _ => 0
  let rest := cs.drop lead
  let body := rest.takeWhile (· != ']')
  if body.length == rest.length then none else some (cs.take lead ++ body)

def setPart (body : List Char) : Part :=
  match setText body with
  | [] => .nothing
  | ['!'] => .one
  | '!' :: rest => .set ('^' :: rest)
  | c :: rest => .set (if c == '^' || c == '[' then '\\' :: c :: rest else c :: rest)

/-- Reads a glob; `skip` characters are read already. -/
def parts (skip : Nat) : List Char → List Part
  | [] => []
  | c :: cs =>
    match skip with
    | k + 1 => parts k cs
    | 0 =>
      if c == '*' then .many :: parts 0 cs
      else if c == '?' then .one :: parts 0 cs
      else if c == '[' then
        match bracketed? cs with
        | some body => setPart body :: parts (body.length + 1) cs
        | none => .char c :: parts 0 cs
      else .char c :: parts 0 cs

def Part.node : Part → Pattern.Node
  | many => .repeat 0 none .greedy (.any true)
  | one => .any true
  | char c => .char c false
  | nothing => .alt []
  | set text =>
    match Pattern.parse (.ofList ('[' :: text ++ [']'])) with
    | .ok p => p.root
    | .error _ => .alt []

/-- A glob as a pattern for whole texts. -/
def toPattern (glob : String) : Pattern :=
  ⟨.seq ((parts 0 glob.toList).map Part.node ++ [.anchor .textEnd]), 0, []⟩

/-- Whether a glob matches a text. -/
def holds (glob text : String) : Bool := (toPattern glob).matchesStart text

end Glob

end NestedSite
