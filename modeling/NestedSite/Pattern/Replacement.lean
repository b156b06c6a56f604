import NestedSite.Pattern.Match
import NestedSite.Pattern.Parse

/-!
# Replacements

A replacement (`Replacement`) is text in which `\1` or `\g<name>` stands for what a group has kept. `Pattern.replaceAll`
puts it for every place where the pattern matches; a group that has kept nothing leaves nothing.
-/

namespace NestedSite

open Text Pattern

/-- A piece of a replacement. -/
inductive Replacement where
  | char (c : Char)
  | group (index : Nat)
  deriving Repr, DecidableEq

/-- Why a text is no replacement. -/
inductive ReplacementFault where
  | malformed
  /-- A group is named that the pattern does not have. -/
  | unknownName
  deriving Repr, DecidableEq

namespace Replacement

/-- A group of the pattern, by its number. -/
def ofIndex (p : Pattern) (index : Nat) : Except ReplacementFault Replacement :=
  if index ≤ p.groups then pure (.group index) else throw .malformed

/-- A group of the pattern, by its name or its number. -/
def ofName (p : Pattern) (name : List Char) : Except ReplacementFault Replacement :=
  if isIdentifier name then
    match p.names.find? fun (n, _) => n == String.ofList name with
    | some (_, i) => pure (.group i)
    | none => throw .unknownName
  else match Number.looseInteger? name with
    | some i => if i < 0 then throw .malformed else ofIndex p i.toNat
    | none => throw .malformed

/-- Reads what follows a backslash: the pieces, and the number of characters read. -/
def escape (p : Pattern) : List Char → Except ReplacementFault (List Replacement × Nat)
  | [] => throw .malformed
  | 'g' :: rest =>
    match rest with
    | '<' :: rest =>
      let name := rest.takeWhile (· != '>')
      if name.length == rest.length then throw .malformed
      else return ([← ofName p name], name.length + 3)
    | _ => throw .malformed
  | c :: rest => do
    if c == '0' then
      let digits := (rest.take 2).takeWhile isOctal
      return ([.char (Char.ofNat (octalValue digits % 256))], digits.length + 1)
    else if isAsciiDigit c then
      let more := (rest.take 2).takeWhile isAsciiDigit
      let digits := c :: more
      if digits.length == 3 && digits.all isOctal then
        let n := octalValue digits
        if 0o377 < n then throw .malformed
        return ([.char (Char.ofNat n)], 3)
      let digits := digits.take 2
      return ([← ofIndex p (decimalValue digits)], digits.length)
    else if c == 'b' then return ([.char '\x08'], 1)
    else
      match plainEscape? c with
      | some d => return ([.char d], 1)
      | none => if isAsciiLetter c then throw .malformed else return ([.char '\\', .char c], 1)

/-- Reads a replacement; `skip` characters are read already. -/
def parseFrom (p : Pattern) (skip : Nat) : List Char → Except ReplacementFault (List Replacement)
  | [] => pure []
  | c :: cs =>
    match skip with
    | k + 1 => parseFrom p k cs
    | 0 => do
      if c == '\\' then
        let (pieces, n) ← escape p cs
        return pieces ++ (← parseFrom p n cs)
      else return .char c :: (← parseFrom p 0 cs)

end Replacement

namespace Pattern

/-- The characters between two positions. -/
def between (t : Subject) (start stop : Nat) : List Char := (t.extract start stop).toList

/-- What a replacement is for one place. -/
def expand (t : Subject) (f : Found) (pieces : List Replacement) : List Char :=
  pieces.flatMap fun
    | .char c => [c]
    | .group 0 => between t f.start f.stop
    | .group i =>
      match (f.kept[i]?).join with
      | some (a, b) => between t a b
      | none => []

/-- Puts a replacement for every place where the pattern matches. -/
def replaceAll (p : Pattern) (replacement text : String) : Except ReplacementFault String := do
  let pieces ← Replacement.parseFrom p 0 replacement.toList
  let t := text.toList.toArray
  let step := fun (done : List Char × Nat) (f : Found) =>
    (done.1 ++ between t done.2 f.start ++ expand t f pieces, f.stop)
  let (written, last) := (p.findAll t).foldl step ([], 0)
  return .ofList (written ++ between t last t.size)

end Pattern

end NestedSite
