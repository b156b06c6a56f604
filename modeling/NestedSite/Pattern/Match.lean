import NestedSite.Pattern.Basic
import NestedSite.Text.Blank
import NestedSite.Text.Case
import NestedSite.Text.Letter

/-!
# Searching with patterns

`Node.step` tries the ways in which a node matches, one after the other, until what comes after it matches, too; what
comes after is given as a function. `Pattern.findFrom?` finds the first place where a pattern matches, and
`Pattern.findAll` all such places that do not overlap.
-/

namespace NestedSite.Pattern

open Text

/-- A text and its characters by position. -/
abbrev Subject := Array Char

/-- How far a match has come, and what its groups have kept: the bounds of parts of the text. -/
structure State where
  position : Nat
  kept : Array (Option (Nat × Nat))
  deriving Inhabited

/-! ## Characters -/

/-- Characters that count as one where case does not matter, apart from those that their lower case joins. -/
def sameCaseless : List (List Nat) :=
  [[0x69, 0x131], [0x73, 0x17f], [0xb5, 0x3bc], [0x345, 0x3b9, 0x1fbe], [0x390, 0x1fd3], [0x3b0, 0x1fe3],
    [0x3b2, 0x3d0], [0x3b5, 0x3f5], [0x3b8, 0x3d1], [0x3ba, 0x3f0], [0x3c0, 0x3d6], [0x3c1, 0x3f1],
    [0x3c2, 0x3c3], [0x3c6, 0x3d5], [0x432, 0x1c80], [0x434, 0x1c81], [0x43e, 0x1c82], [0x441, 0x1c83],
    [0x442, 0x1c84, 0x1c85], [0x44a, 0x1c86], [0x463, 0x1c87], [0xa64b, 0x1c88], [0x1e61, 0x1e9b],
    [0xfb05, 0xfb06]]

def lowered (c : Char) : Char := ((lower c).head?).getD c

def raised (c : Char) : Char :=
  match upper c with
  | [d] => d
  | _ => c

/-- The lower case of a character, and the characters that count as one with it. -/
def lowerVariants (c : Char) : List Char :=
  let d := lowered c
  match sameCaseless.find? (·.contains d.toNat) with
  | some ns => ns.map Char.ofNat
  | none => [d]

/-- The character that stands for all that differ from `c` only in case. -/
def caseless (c : Char) : Char := (lowerVariants c).headD c

/-- The characters that differ from `c` only in case. -/
def variants (c : Char) : List Char := c :: (lowerVariants c).flatMap fun d => [d, raised d]

def sameChar (anyCase : Bool) (c d : Char) : Bool := if anyCase then caseless c == caseless d else c == d

def isWordChar (ascii : Bool) (c : Char) : Bool :=
  c == '_' || (if ascii then isAsciiLetter c || isAsciiDigit c else isAlphanumeric c)

def Class.contains (k : Class) (ascii : Bool) (c : Char) : Bool :=
  match k with
  | digit => if ascii then isAsciiDigit c else isDecimal c
  | blank => if ascii then c == ' ' || (9 ≤ c.toNat && c.toNat ≤ 13) else isBlank c
  | word => isWordChar ascii c

def SetItem.contains (anyCase : Bool) (c : Char) : SetItem → Bool
  | char d => sameChar anyCase c d
  | range low high => (if anyCase then variants c else [c]).any fun d => low ≤ d && d ≤ high
  | cls k negated ascii => k.contains ascii c != negated

/-! ## Positions -/

def Anchor.holds (t : Subject) (at? : Nat) : Anchor → Bool
  | textStart => at? == 0
  | textEnd => at? == t.size
  | lastLineEnd => at? == t.size || (at? + 1 == t.size && t[at?]? == some '\n')
  | lineStart => at? == 0 || t[at? - 1]? == some '\n'
  | lineEnd => at? == t.size || t[at?]? == some '\n'
  | boundary negated ascii =>
    let before := at? != 0 && (t[at? - 1]?).any (isWordChar ascii)
    let after := (t[at?]?).any (isWordChar ascii)
    t.size != 0 && (before != after) != negated

/-- Whether the text has the characters between two bounds once more at a position. -/
def repeats (t : Subject) (anyCase : Bool) (start stop position : Nat) : Bool :=
  (List.range (stop - start)).all fun i =>
    match t[start + i]?, t[position + i]? with
    | some c, some d => sameChar anyCase c d
    | _, _ => false

/-! ## Nodes -/

/-- What is left to match. -/
abbrev Rest := State → Option State

/-- Repeats `body` greedily. Having been done `least` times, the body is not tried again where it has just been tried
(`last`). -/
def repeatGreedy (body : State → Rest → Option State) (least : Nat) (most : Option Nat) :
    Nat → Nat → Option Nat → State → Rest → Option State
  | 0, _, _, s, k => k s
  | fuel + 1, count, last, s, k =>
    if count < least then body s fun s' => repeatGreedy body least most fuel (count + 1) last s' k
    else if most.all (count < ·) && last != some s.position then
      match body s fun s' => repeatGreedy body least most fuel (count + 1) (some s.position) s' k with
      | some r => some r
      | none => k s
    else k s

/-- Repeats `body` as seldom as possible. -/
def repeatLazy (body : State → Rest → Option State) (least : Nat) (most : Option Nat) :
    Nat → Nat → Option Nat → State → Rest → Option State
  | 0, _, _, s, k => k s
  | fuel + 1, count, last, s, k =>
    if count < least then body s fun s' => repeatLazy body least most fuel (count + 1) last s' k
    else
      match k s with
      | some r => some r
      | none =>
        if most.all (count < ·) && last != some s.position then
          body s fun s' => repeatLazy body least most fuel (count + 1) (some s.position) s' k
        else none

/-- Takes one character if it satisfies `p`. -/
def one (t : Subject) (p : Char → Bool) (s : State) (k : Rest) : Option State :=
  match t[s.position]? with
  | some c => if p c then k { s with position := s.position + 1 } else none
  | none => none

mutual

/-- Matches a node and what is left after it. -/
def Node.step (t : Subject) : Node → State → Rest → Option State
  | .char c anyCase, s, k => one t (sameChar anyCase c) s k
  | .any lineEnds, s, k => one t (fun c => lineEnds || c != '\n') s k
  | .set items negated anyCase, s, k => one t (fun c => items.any (·.contains anyCase c) != negated) s k
  | .anchor a, s, k => if a.holds t s.position then k s else none
  | .group i body, s, k =>
    body.step t s fun s' => k { s' with kept := s'.kept.setIfInBounds i (some (s.position, s'.position)) }
  | .back i anyCase, s, k =>
    match (s.kept[i]?).join with
    | some (a, b) =>
      if repeats t anyCase a b s.position then k { s with position := s.position + (b - a) } else none
    | none => none
  | .look positive width body, s, k =>
    let start := match width with
      | some w => if w ≤ s.position then some (s.position - w) else none
      | none => some s.position
    let found := start.bind fun p => body.step t { s with position := p } some
    match found, positive with
    | some r, true => k { s with kept := r.kept }
    | none, false => k s
    | _, _ => none
  | .given i yes no, s, k => if ((s.kept[i]?).join).isSome then yes.step t s k else no.step t s k
  | .atomic body, s, k => (body.step t s some).bind k
  | .repeat least most style body, s, k =>
    let fuel := least + (t.size - s.position) + 2
    match style with
    | .greedy => repeatGreedy (body.step t) least most fuel 0 none s k
    | .lazy => repeatLazy (body.step t) least most fuel 0 none s k
    | .possessive => (repeatGreedy (body.step t) least most fuel 0 none s some).bind k
  | .seq items, s, k => stepAll t items s k
  | .alt branches, s, k => stepFirst t branches s k

def stepAll (t : Subject) : List Node → State → Rest → Option State
  | [], s, k => k s
  | n :: ns, s, k => n.step t s fun s' => stepAll t ns s' k

/-- The first branch that matches with what is left. -/
def stepFirst (t : Subject) : List Node → State → Rest → Option State
  | [], _, _ => none
  | n :: ns, s, k =>
    match n.step t s k with
    | some r => some r
    | none => stepFirst t ns s k

end

end Pattern

/-- A place where a pattern matches: its bounds, and those of what its groups have kept. -/
structure Pattern.Found where
  start : Nat
  stop : Nat
  kept : Array (Option (Nat × Nat))
  deriving Inhabited

namespace Pattern

/-- Matches at a position; with `advance`, not the empty text. -/
def matchAt? (p : Pattern) (t : Subject) (advance : Bool) (start : Nat) : Option Found :=
  let final : Rest := fun s => if advance && s.position == start then none else some s
  (p.root.step t ⟨start, Array.replicate (p.groups + 1) none⟩ final).map fun s => ⟨start, s.position, s.kept⟩

/-- The first of the next `count` positions where the pattern matches. -/
def search? (p : Pattern) (t : Subject) : Nat → Bool → Nat → Option Found
  | 0, _, _ => none
  | count + 1, advance, start =>
    match p.matchAt? t advance start with
    | some f => some f
    | none => search? p t count false (start + 1)

/-- The first place from a position on; with `advance`, the empty text there does not count. -/
def findFrom? (p : Pattern) (t : Subject) (advance : Bool) (start : Nat) : Option Found :=
  p.search? t (t.size + 1 - start) advance start

/-- Whether a pattern matches somewhere in a text. -/
def occursIn (p : Pattern) (text : String) : Bool := (p.findFrom? text.toList.toArray false 0).isSome

/-- Whether a pattern matches a text from its beginning on. -/
def matchesStart (p : Pattern) (text : String) : Bool := (p.matchAt? text.toList.toArray false 0).isSome

/-- The places where a pattern matches, from left to right. An empty place may follow another place directly, but not
an empty one. -/
def findAll (p : Pattern) (t : Subject) : List Found := go (2 * t.size + 2) false 0
where
  go : Nat → Bool → Nat → List Found
    | 0, _, _ => []
    | fuel + 1, advance, start =>
      match p.findFrom? t advance start with
      | some f => f :: go fuel (f.start == f.stop) f.stop
      | none => []

end Pattern

end NestedSite
