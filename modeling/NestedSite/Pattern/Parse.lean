import NestedSite.Number.Reading
import NestedSite.Pattern.Basic
import NestedSite.Text.CharSet
import NestedSite.Text.Identifier
import NestedSite.Text.Letter

/-!
# Reading patterns

`Pattern.parse` reads the notation of regular expressions: character classes, groups with and without names, looks
ahead and behind, repetitions of all styles, and flags for the whole pattern or for a part of it. A reader goes through
the characters with the groups seen so far; its first argument bounds how deep groups nest.
-/

namespace NestedSite.Pattern

open Text

/-- Why a text is no pattern. -/
inductive ParseFault where
  | malformed
  /-- A number of repetitions is too large. -/
  | tooLarge
  deriving Repr, DecidableEq

/-- The flags in force. -/
structure Mode where
  anyCase : Bool := false
  multiline : Bool := false
  dotAll : Bool := false
  verbose : Bool := false
  ascii : Bool := false

structure Progress where
  rest : List Char
  mode : Mode := {}
  /-- The groups that are opened so far. -/
  groups : Nat := 0
  names : List (String × Nat) := []
  /-- The groups that are closed, with their widths. -/
  closed : List (Nat × Nat × Bound) := []
  /-- Inside a look behind, the number of groups opened before it. -/
  behind : Option Nat := none
  /-- The groups that conditions ask for. -/
  asked : List Nat := []

abbrev Reader := StateT Progress (Except ParseFault)

namespace Reader

def fail : Reader α := throw .malformed

def peek : Reader (Option Char) := return (← get).rest.head?

def next : Reader Char := do
  match (← get).rest with
  | c :: rest => modify fun p => { p with rest }; return c
  | [] => fail

/-- Whether `text` comes next, which is then taken. -/
def accept (text : String) : Reader Bool := do
  let p ← get
  if text.toList.isPrefixOf p.rest then
    set { p with rest := p.rest.drop text.length }
    return true
  else return false

def expect (text : String) : Reader Unit := do if !(← accept text) then fail

/-- Takes at most `most` characters that satisfy `p`. -/
def takeWhile (most : Nat) (p : Char → Bool) : Reader (List Char) := do
  let taken := ((← get).rest.take most).takeWhile p
  modify fun s => { s with rest := s.rest.drop taken.length }
  return taken

/-- What stands before `close`, which is taken; it must not be empty. -/
def untilChar (close : Char) : Reader (List Char) := do
  let rest := (← get).rest
  let name := rest.takeWhile (· != close)
  if name.isEmpty || name.length == rest.length then fail
  modify fun s => { s with rest := rest.drop (name.length + 1) }
  return name

def groupName (close : Char) : Reader String := do
  let name ← untilChar close
  if isIdentifier name then return .ofList name else fail

end Reader

open Reader

/-! ## Escapes -/

/-- What an escape stands for. -/
inductive Escape where
  | char (c : Char)
  | cls (c : Class) (negated : Bool)
  | anchor (a : Anchor)
  | back (index : Nat)

def charOfCode (n : Nat) : Reader Char := if n ≤ 0x10ffff then return Char.ofNat n else fail

/-- A character given by exactly `count` hexadecimal digits. -/
def hexEscape (count : Nat) : Reader Escape := do
  let digits ← takeWhile count fun c => (hexDigit? c).isSome
  if digits.length != count then fail
  return .char (← charOfCode (hexValue (.ofList digits)))

def isOctal (c : Char) : Bool := '0' ≤ c && c ≤ '7'

def octalValue (cs : List Char) : Nat := cs.foldl (fun n c => 8 * n + (c.toNat - 48)) 0

def decimalValue (cs : List Char) : Nat := cs.foldl (fun n c => 10 * n + (c.toNat - 48)) 0

def plainEscape? : Char → Option Char
  | 'a' => some '\x07'
  | 'f' => some '\x0c'
  | 'n' => some '\n'
  | 'r' => some '\r'
  | 't' => some '\t'
  | 'v' => some '\x0b'
  | '\\' => some '\\'
  | _ => none

def classEscape? : Char → Option Escape
  | 'd' => some (.cls .digit false)
  | 'D' => some (.cls .digit true)
  | 's' => some (.cls .blank false)
  | 'S' => some (.cls .blank true)
  | 'w' => some (.cls .word false)
  | 'W' => some (.cls .word true)
  | _ => none

/-- The escapes that sets and patterns share; the escaped character is `c`. -/
def commonEscape (c : Char) : Reader Escape := do
  match plainEscape? c, classEscape? c with
  | some d, _ => return .char d
  | _, some e => return e
  | _, _ =>
    if c == 'x' then hexEscape 2
    else if c == 'u' then hexEscape 4
    else if c == 'U' then hexEscape 8
    else if isAsciiLetter c || isAsciiDigit c then fail
    else return .char c

/-- An escape in a set. -/
def setEscape : Reader Escape := do
  let c ← next
  if c == 'b' then return .char '\x08'
  else if isOctal c then
    let n := octalValue (c :: (← takeWhile 2 isOctal))
    if 0o377 < n then fail else return .char (Char.ofNat n)
  else commonEscape c

/-- A group that may be referred to here. -/
def checkGroup (index : Nat) : Reader Unit := do
  let p ← get
  if !(p.closed.any fun g => g.1 == index) then fail
  match p.behind with
  | some n => if n < index then fail
  | none => return

/-- An escape outside sets. -/
def escape : Reader Escape := do
  let c ← next
  let ascii := (← get).mode.ascii
  match c with
  | 'A' => return .anchor .textStart
  | 'Z' => return .anchor .textEnd
  | 'b' => return .anchor (.boundary false ascii)
  | 'B' => return .anchor (.boundary true ascii)
  | '0' => return .char (Char.ofNat (octalValue (← takeWhile 2 isOctal)))
  | c =>
    if isAsciiDigit c then
      let second ← takeWhile 1 isAsciiDigit
      let third := ((← get).rest.take 1).filter isOctal
      if isOctal c && second.all isOctal && !second.isEmpty && !third.isEmpty then
        discard next
        let n := octalValue (c :: second ++ third)
        if 0o377 < n then fail else return .char (Char.ofNat n)
      else
        let index := decimalValue (c :: second)
        checkGroup index
        return .back index
    else commonEscape c

/-! ## Sets -/

def setMember : Reader SetItem := do
  let c ← next
  if c == '\\' then
    match ← setEscape with
    | .char d => return .char d
    | .cls k negated => return .cls k negated (← get).mode.ascii
    | _ => fail
  else return .char c

/-- The members up to the closing bracket, which may itself be the first member. -/
def setMembers : Nat → List SetItem → Reader (List SetItem)
  | 0, _ => fail
  | n + 1, done => do
    let closed ← if done.isEmpty then pure false else accept "]"
    if closed then return done.reverse
    let low ← setMember
    if ← accept "-" then
      if ← accept "]" then return (.char '-' :: low :: done).reverse
      match low, ← setMember with
      | .char a, .char b => if b < a then fail else setMembers n (.range a b :: done)
      | _, _ => fail
    else setMembers n (low :: done)

/-! ## Repetitions -/

/-- The first number that is too large to count repetitions. -/
def repetitionLimit : Nat := 4294967295

/-- The numbers between braces; none if they do not follow the opening brace. -/
def braces? : Reader (Option (Nat × Option Nat)) := do
  let start := (← get).rest
  if start.head? == some '\x7d' then return none
  let low ← takeWhile start.length isAsciiDigit
  let high ← if ← accept "," then takeWhile start.length isAsciiDigit else pure low
  if !(← accept "\x7d") then
    modify fun p => { p with rest := start }
    return none
  let least := decimalValue low
  let most := if high.isEmpty then none else some (decimalValue high)
  if repetitionLimit ≤ least || most.any (repetitionLimit ≤ ·) then throw .tooLarge
  if most.any (· < least) then fail
  return some (least, most)

/-- The piece that was read last, and how it may be repeated. -/
inductive Piece where
  | plain (n : Node)
  | anchor (n : Node)
  | repeated (n : Node)

def Piece.node : Piece → Node
  | plain n | anchor n | repeated n => n

def Piece.repeat (least : Nat) (most : Option Nat) (style : Style) : Piece → Reader Piece
  | plain n => return .repeated (.repeat least most style n)
  | _ => fail

def style : Reader Style := do
  if ← accept "?" then return .lazy
  else if ← accept "+" then return .possessive
  else return .greedy

/-! ## Flags -/

/-- A flag that is turned on or off. -/
def setFlag (c : Char) (on : Bool) (m : Mode) : Reader Mode :=
  match c with
  | 'i' => return { m with anyCase := on }
  | 'm' => return { m with multiline := on }
  | 's' => return { m with dotAll := on }
  | 'x' => return { m with verbose := on }
  | 'a' => if on then return { m with ascii := true } else fail
  | 'u' => if on then return { m with ascii := false } else fail
  | _ => fail

def setFlags (on : Bool) (m : Mode) (flags : List Char) : Reader Mode := flags.foldlM (fun m c => setFlag c on m) m

/-- The flags after `(?`: those for the rest of the pattern, or those for a group, whose mode is returned. -/
def flags : Reader (Option Mode) := do
  let p ← get
  let isFlag := fun (c : Char) => isAsciiLetter c
  let on ← takeWhile p.rest.length isFlag
  if on.contains 'a' && on.contains 'u' then fail
  let mode ← setFlags true p.mode on
  if ← accept ")" then
    if on.isEmpty then fail
    modify fun p => { p with mode }
    return none
  let mode ← if ← accept "-" then
      let off ← takeWhile p.rest.length isFlag
      if off.isEmpty || on.any off.contains then fail
      setFlags false mode off
    else pure mode
  expect ":"
  return some mode

/-! ## Groups and sequences -/

/-- Runs a reader in a mode and goes back to the present one. -/
def within (mode : Mode) (r : Reader α) : Reader α := do
  let old := (← get).mode
  modify fun p => { p with mode }
  let v ← r
  modify fun p => { p with mode := old }
  return v

def skipComment : Reader Unit := modify fun p => { p with rest := (p.rest.dropWhile (· != '\n')).drop 1 }

def isVerboseBlank (c : Char) : Bool := c == ' ' || (9 ≤ c.toNat && c.toNat ≤ 13)

mutual

/-- Alternatives; `top` says that the pattern begins here. -/
def alternatives : Nat → Bool → Reader Node
  | 0, _ => fail
  | fuel + 1, top => do
    let first ← sequence fuel top []
    let rest ← branches fuel ((← get).rest.length + 1)
    return if rest.isEmpty then first else .alt (first :: rest)

def branches : Nat → Nat → Reader (List Node)
  | 0, _ | _, 0 => fail
  | fuel + 1, count + 1 => do
    if ← accept "|" then
      let n ← sequence fuel false []
      return n :: (← branches fuel count)
    else return []

/-- A sequence of pieces, up to a bar, a closing parenthesis or the end. -/
def sequence : Nat → Bool → List Piece → Reader Node
  | 0, _, _ => fail
  | fuel + 1, top, done => do
    let ended := return .seq (done.reverse.map Piece.node)
    match ← peek with
    | none => ended
    | some c =>
      if c == '|' || c == ')' then ended
      else
        discard next
        let mode := (← get).mode
        let add := fun (p : Piece) => sequence fuel top (p :: done)
        let again := fun (least : Nat) (most : Option Nat) => do
          match done with
          | p :: rest => sequence fuel top ((← p.repeat least most (← style)) :: rest)
          | [] => fail
        if mode.verbose && isVerboseBlank c then sequence fuel top done
        else if mode.verbose && c == '#' then
          skipComment
          sequence fuel top done
        else match c with
        | '\\' =>
          match ← escape with
          | .char d => add (.plain (.char d mode.anyCase))
          | .cls k negated => add (.plain (.set [.cls k negated mode.ascii] false mode.anyCase))
          | .anchor a => add (.anchor (.anchor a))
          | .back i => add (.plain (.back i mode.anyCase))
        | '[' =>
          let negated ← accept "^"
          let items ← setMembers ((← get).rest.length + 1) []
          add (.plain (.set items negated mode.anyCase))
        | '*' => again 0 none
        | '+' => again 1 none
        | '?' => again 0 (some 1)
        | '\x7b' =>
          match ← braces? with
          | some (least, most) => again least most
          | none => add (.plain (.char c mode.anyCase))
        | '.' => add (.plain (.any mode.dotAll))
        | '^' => add (.anchor (.anchor (if mode.multiline then .lineStart else .textStart)))
        | '$' => add (.anchor (.anchor (if mode.multiline then .lineEnd else .lastLineEnd)))
        | '(' =>
          match ← group fuel (top && done.isEmpty) with
          | some n => add (.plain n)
          | none => sequence fuel top done
        | c => add (.plain (.char c mode.anyCase))

/-- What follows an opening parenthesis; a comment and flags for the whole pattern leave nothing. -/
def group : Nat → Bool → Reader (Option Node)
  | 0, _ => fail
  | fuel + 1, first => do
    if !(← accept "?") then some <$> capture fuel none
    else if ← accept "P<" then some <$> capture fuel (some (← groupName '>'))
    else if ← accept "P=" then
      let name ← groupName ')'
      let p ← get
      match p.names.find? fun (n, _) => n == name with
      | some (_, i) => checkGroup i; return some (.back i p.mode.anyCase)
      | none => fail
    else if ← accept ":" then some <$> inside fuel (← get).mode
    else if ← accept "#" then
      modify fun p => { p with rest := p.rest.dropWhile (· != ')') }
      expect ")"
      return none
    else if ← accept "=" then return some (.look true none (← inside fuel (← get).mode))
    else if ← accept "!" then return some (.look false none (← inside fuel (← get).mode))
    else if ← accept "<=" then some <$> lookBehind fuel true
    else if ← accept "<!" then some <$> lookBehind fuel false
    else if ← accept ">" then return some (.atomic (← inside fuel (← get).mode))
    else if ← accept "(" then some <$> condition fuel
    else
      match ← flags with
      | none => if first then return none else fail
      | some mode => some <$> inside fuel mode

/-- The rest of a group up to its parenthesis. -/
def inside : Nat → Mode → Reader Node
  | 0, _ => fail
  | fuel + 1, mode => do
    let body ← within mode (alternatives fuel false)
    expect ")"
    return body

def capture : Nat → Option String → Reader Node
  | 0, _ => fail
  | fuel + 1, name => do
    let p ← get
    let index := p.groups + 1
    let names ← match name with
      | some n => if p.names.any fun (m, _) => m == n then fail else pure (p.names ++ [(n, index)])
      | none => pure p.names
    set { p with groups := index, names }
    let body ← inside fuel p.mode
    modify fun p => { p with closed := (index, body.width p.closed) :: p.closed }
    return .group index body

def lookBehind : Nat → Bool → Reader Node
  | 0, _ => fail
  | fuel + 1, positive => do
    let outer := (← get).behind
    modify fun p => { p with behind := some (p.behind.getD p.groups) }
    let body ← inside fuel (← get).mode
    modify fun p => { p with behind := outer }
    let (least, most) := body.width (← get).closed
    if most != some least then fail
    return .look positive (some least) body

/-- A condition on a group, which is named or numbered. -/
def condition : Nat → Reader Node
  | 0 => fail
  | fuel + 1 => do
    let name ← untilChar ')'
    let index ←
      if isIdentifier name then
        match (← get).names.find? fun (n, _) => n == String.ofList name with
        | some (_, i) => pure i
        | none => fail
      else match Number.looseInteger? name with
        | some i => pure i.toNat
        | none => fail
    if index == 0 then fail
    modify fun p => { p with asked := index :: p.asked }
    if (← get).behind.isSome then checkGroup index
    let yes ← sequence fuel false []
    let no ← if ← accept "|" then sequence fuel false [] else pure (.seq [])
    expect ")"
    return .given index yes no

end

end Pattern

/-- Reads a pattern. -/
def Pattern.parse (text : String) : Except Pattern.ParseFault Pattern := do
  let cs := text.toList
  let (root, p) ← (Pattern.alternatives (6 * cs.length + 6) true).run { rest := cs }
  if !p.rest.isEmpty || p.asked.any fun i => p.groups < i then throw .malformed
  return ⟨root, p.groups, p.names⟩

end NestedSite
