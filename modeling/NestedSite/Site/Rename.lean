import NestedSite.Fault
import NestedSite.Path
import NestedSite.Pattern.Replacement

/-!
# Renaming outputs

A `Renaming` is a list of rules and an extension. The first rule whose pattern is found in a path changes it; then
the extension is added to a path that has none. A path that comes out as it went in is not renamed.
-/

namespace NestedSite

structure RenameRule where
  /-- The text of the pattern. -/
  text : String
  pattern : Pattern
  replacement : String
  deriving Inhabited

namespace RenameRule

/-- The path with the replacements, if the pattern is found in it. -/
def applyTo? (rule : RenameRule) (path : String) : Except Fault (Option String) :=
  if rule.pattern.occursIn path then
    match rule.pattern.replaceAll rule.replacement path with
    | .ok written => pure (some written)
    | .error .malformed => throw .badReplacement
    | .error .unknownName => throw .missingIndex
  else pure none

end RenameRule

structure Renaming where
  rules : List RenameRule
  extension : Option String
  deriving Inhabited

namespace Renaming

/-- What the first rule that applies makes of a path; the path itself if none does. -/
def ruled (path : String) : List RenameRule → Except Fault String
  | [] => pure path
  | rule :: rest => do
    match ← rule.applyTo? path with
    | some written => pure written
    | none => ruled path rest

/-- A path with the extension, unless it has one. -/
def extended (r : Renaming) (path : String) : String :=
  match r.extension with
  | none => path
  | some e => if (Path.extension path).isEmpty then path ++ e else path

/-- The new path, if it is another one. -/
def newPath? (r : Renaming) (path : String) : Except Fault (Option String) := do
  let new := r.extended (← ruled path r.rules)
  return if new == path then none else some new

/-- Where an output goes: to its new path, or to its own if it is not renamed or the new path is empty. -/
def target (r : Option Renaming) (path : String) : Except Fault String := do
  match r with
  | none => pure path
  | some r =>
    match ← r.newPath? path with
    | some new => return if new.isEmpty then path else new
    | none => pure path

end Renaming

end NestedSite
