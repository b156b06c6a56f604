import NestedSite.Text.Coding
import NestedSite.Yaml.ScalarText

/-!
# From a text to its tokens

`Token.scan` reads all tokens of a text. Blocks are told by their columns: a line further to the left closes blocks,
and a key further to the right opens one. That a scalar or a collection was a key is known only when the colon after
it is reached; so the places where keys may have begun are kept, and the marks are put there afterwards. A key without
a mark of its own stands on one line and has 1024 characters at most.
-/

namespace NestedSite.Yaml

namespace Scan

open NestedSite.Text

/-! ## Possible keys -/

/-- Forgets the possible key of the current level. -/
def dropKey : Scan Unit := do
  let p ← get
  if p.keys.any fun (level, k) => level == p.flow && k.required then malformed
  set { p with keys := p.keys.filter fun (level, _) => level != p.flow }

/-- Notes that a key may begin here. A block's first token on a line must be one. -/
def noteKey : Scan Unit := do
  let p ← get
  if p.keyAllowed then
    dropKey
    let key : PossibleKey :=
      { token := p.tokens.size, required := p.flow == 0 && p.indent == p.column, index := p.index, line := p.line,
        column := p.column }
    modify fun p => { p with keys := (p.flow, key) :: p.keys }

/-- Forgets the possible keys that began too far back. -/
def dropStaleKeys : Scan Unit := do
  let p ← get
  let isStale := fun (k : PossibleKey) => k.line != p.line || 1024 < p.index - k.index
  if p.keys.any fun (_, k) => isStale k && k.required then malformed
  set { p with keys := p.keys.filter fun (_, k) => !isStale k }

/-! ## Blocks -/

/-- Closes the blocks that are further to the right than a column. -/
def closeBlocks (column : Int) : Scan Unit := do
  let p ← get
  if p.flow == 0 then go p.outer.length
where
  go : Nat → Scan Unit
    | 0 => pure ()
    | n + 1 => do
      let p ← get
      match p.outer with
      | indent :: outer =>
        if column < p.indent then
          set { p with indent, outer, tokens := p.tokens.push .blockEnd }
          go n
      | [] => pure ()

/-- Opens a block at a column, unless the innermost one is there; says whether it did. -/
def openBlock (column : Nat) : Scan Bool := do
  let p ← get
  if p.indent < column then
    set { p with indent := column, outer := p.indent :: p.outer }
    return true
  return false

/-- Inserts a token after the first `n`. -/
def insertAt (n : Nat) (t : Token) : Scan Unit :=
  modify fun p => { p with tokens := p.tokens.extract 0 n ++ #[t] ++ p.tokens.extract n p.tokens.size }

/-! ## Directives, tags and anchors -/

def number : Scan Nat := do
  let digits ← takeWhile fun c => '0' ≤ c && c ≤ '9'
  if digits.isEmpty then malformed
  return digits.foldl (fun n c => 10 * n + (c.toNat - 48)) 0

/-- The bytes that a run of percent signs writes, each by two digits. -/
def escapedBytes : Nat → Scan (List UInt8)
  | 0 => return []
  | n + 1 => do
    if (← peek) != some '%' then return []
    advance 1
    let digits := (← get).rest.take 2
    if digits.length != 2 || digits.any (fun d => (hexDigit? d).isNone) then malformed
    advance 2
    return (hexValue (.ofList digits)).toUInt8 :: (← escapedBytes n)

/-- The characters of a tag. -/
def tagPieces : Nat → Scan (List Char)
  | 0 => return []
  | n + 1 => do
    let piece ← takeWhile fun c => isTagChar c && c != '%'
    if (← peek) != some '%' then return piece
    match decodeUtf8? (← escapedBytes (← bound)) with
    | some t => return piece ++ t.toList ++ (← tagPieces n)
    | none => malformed

/-- The characters of a tag, of which there is one at least. -/
def tagText : Scan String := do
  if !((← peek).any isTagChar) then malformed
  return .ofList (← tagPieces (← bound))

/-- A handle of tags: a name between exclamation marks, of which one may stand alone. -/
def tagHandle : Scan String := do
  if (← peek) != some '!' then malformed
  advance 1
  if (← peek) == some ' ' then return "!"
  let name ← takeWhile isNameChar
  if (← peek) != some '!' then malformed
  advance 1
  return .ofList ('!' :: name ++ ['!'])

/-- The properties of a tag whose handle, if it has one, is found by looking ahead. -/
def tag : Scan Token := do
  let rest := (← get).rest.drop 1
  let token ←
    if rest.head? == some '<' then
      advance 2
      let suffix ← tagText
      if (← peek) != some '>' then malformed
      advance 1
      pure (.tag none suffix)
    else if isBlank rest.head? then
      advance 1
      pure (.tag none "!")
    else
      let word := rest.takeWhile fun c => !isGap (some c)
      let handle ← if word.contains '!' then tagHandle else do
        advance 1
        pure "!"
      pure (.tag (some handle) (← tagText))
  if !isGap (← peek) then malformed
  return token

/-- The name after the mark of an anchor or an alias. -/
def anchorName : Scan String := do
  advance 1
  let name ← takeWhile isNameChar
  if name.isEmpty then malformed
  let next ← peek
  if !isBlank next && !(next.any fun c => "?:,]\x7d%@\x60".toList.contains c) then malformed
  return .ofList name

def directive : Scan Directive := do
  advance 1
  let name ← takeWhile isNameChar
  if name.isEmpty || !isGap (← peek) then malformed
  let d ←
    if name == "YAML".toList then
      skipWhile (· == ' ')
      let major ← number
      if (← peek) != some '.' then malformed
      advance 1
      let _ ← number
      if !isGap (← peek) then malformed
      pure (.version major)
    else if name == "TAG".toList then
      skipWhile (· == ' ')
      let handle ← tagHandle
      if (← peek) != some ' ' then malformed
      skipWhile (· == ' ')
      let leading ← tagText
      if !isGap (← peek) then malformed
      pure (.tagHandle handle leading)
    else do
      skipWhile (!isBreak ·)
      pure .other
  endLine
  return d

/-! ## One token -/

/-- A token that begins a line by itself. -/
def leave (t : Scan Token) : Scan Unit := do
  closeBlocks (-1)
  dropKey
  allowKey false
  emit (← t)

/-- A mark of three characters that separates documents. -/
def separator (t : Token) : Scan Token := do
  advance 3
  return t

def openFlow (t : Token) : Scan Unit := do
  noteKey
  modify fun p => { p with flow := p.flow + 1, keyAllowed := true }
  advance 1
  emit t

def closeFlow (t : Token) : Scan Unit := do
  if !(← inFlow) then malformed
  dropKey
  modify fun p => { p with flow := p.flow - 1, keyAllowed := false }
  advance 1
  emit t

/-- A mark before an item or a key, which opens a block where none is. -/
def lead (opening mark : Token) (keyAfter : Bool) : Scan Unit := do
  if !(← inFlow) then
    if !(← get).keyAllowed then malformed
    if ← openBlock (← get).column then emit opening
  allowKey keyAfter
  dropKey
  advance 1
  emit mark

/-- The mark before a value: what stands before it on its level is a key now. -/
def value : Scan Unit := do
  let p ← get
  match p.keys.find? fun (level, _) => level == p.flow with
  | some (_, k) =>
    modify fun p => { p with keys := p.keys.filter fun (level, _) => level != p.flow }
    insertAt k.token .key
    if !(← inFlow) then
      if ← openBlock k.column then insertAt k.token .blockMapping
    allowKey false
    advance 1
    emit .value
  | none => lead .blockMapping .value (!(← inFlow))

/-- A token that may be a key. -/
def content (t : Scan Token) : Scan Unit := do
  noteKey
  allowKey false
  emit (← t)

def block (folded : Bool) : Scan Unit := do
  allowKey true
  dropKey
  emit (← blockScalar folded)

/-- Whether a plain scalar begins with `c`, before `next`. -/
def beginsPlain (flow : Bool) (c : Char) (next : Option Char) : Bool :=
  !(isBlank (some c) || "-?:,[]\x7b\x7d#&*!|>\x27\x22%@\x60".toList.contains c) ||
    (!isBlank next && (c == '-' || (!flow && (c == '?' || c == ':'))))

/-- Reads the next token or tokens. -/
def fetch (c : Char) : Scan Unit := do
  let p ← get
  let next := (p.rest.drop 1).head?
  let flow := p.flow != 0
  if c == '%' && p.column == 0 then leave (return .directive (← directive))
  else if c == '-' && p.column == 0 && (← atSeparator) then leave (separator .documentStart)
  else if c == '.' && p.column == 0 && (← atSeparator) then leave (separator .documentEnd)
  else if c == '[' then openFlow .flowSequence
  else if c == '\x7b' then openFlow .flowMapping
  else if c == ']' then closeFlow .flowSequenceEnd
  else if c == '\x7d' then closeFlow .flowMappingEnd
  else if c == ',' then
    allowKey true
    dropKey
    advance 1
    emit .comma
  else if c == '-' && isBlank next then lead .blockSequence .item true
  else if c == '?' && (flow || isBlank next) then lead .blockMapping .key (!flow)
  else if c == ':' && (flow || isBlank next) then value
  else if c == '*' then content (return .alias (← anchorName))
  else if c == '&' then content (return .anchor (← anchorName))
  else if c == '!' then content tag
  else if c == '|' && !flow then block false
  else if c == '>' && !flow then block true
  else if c == '\x27' then content (quotedScalar false)
  else if c == '\x22' then content (quotedScalar true)
  else if beginsPlain flow c next then content plainScalar
  else malformed

/-! ## All tokens -/

/-- Skips spaces, remarks and line ends. Outside of flow collections a key may begin on every new line. -/
def skipToToken : Nat → Scan Unit
  | 0 => pure ()
  | n + 1 => do
    skipWhile (· == ' ')
    if (← peek) == some '#' then skipWhile (!isBreak ·)
    if !(← lineBreak).isEmpty then
      if !(← inFlow) then allowKey true
      skipToToken n

/-- Reads tokens to the end of the text. -/
def all : Nat → Scan Unit
  | 0 => pure ()
  | n + 1 => do
    skipToToken (← bound)
    dropStaleKeys
    closeBlocks (← get).column
    match ← peek with
    | none =>
      closeBlocks (-1)
      dropKey
    | some c =>
      fetch c
      all n

end Scan

/-- The tokens of a text, and the fault that ends them. -/
structure Tokens where
  tokens : List Token
  fault : Option Fault := none

/-- The tokens of a text. Those after a fault, and those after a possible key that the fault leaves open, are not
known. -/
def Token.scan (text : String) : Tokens :=
  let cs := text.toList
  if !cs.all isAllowed then ⟨[], some .malformedYaml⟩
  else
    let start : Progress :=
      match cs with
      | '\ufeff' :: rest => { rest, index := 1 }
      | rest => { rest }
    match (Scan.all (2 * cs.length + 2)).run start with
    | (.ok (), p) => ⟨p.tokens.toList, none⟩
    | (.error f, p) =>
      let known := p.keys.foldl (fun n (_, k) => min n k.token) p.tokens.size
      ⟨p.tokens.toList.take known, some f⟩

end NestedSite.Yaml
