import NestedSite.Method.Arguments
import NestedSite.Path

/-!
# Helpers for pages

Three of the functions that pages call by a name with a `$`: `entitle` collects titles, so that the title of a page
stands behind those of the directories around it, and `active` and `act` mark links that lead to the page or to a
directory above it.
-/

namespace NestedSite

/-! ## Keys of a context -/

def contentKey : String := "$content"

def titleKey : String := "$title"

def pathKey : String := "$path"

/-- The context itself. -/
def selfKey : String := "$"

def metaKey : String := "$meta"

def nameKey : String := "name"

namespace Helper

/-- The name by which templates call a helper. -/
def name : Helper → String
  | includePartial => "$include"
  | entitle => "$entitle"
  | active => "$active"
  | act => "$act"

def all : List Helper := [includePartial, entitle, active, act]

def titleSeparator : String := " | "

/-- A title in front of the titles collected so far. -/
def titled (title : String) : Option Value → String
  | some (.text current) => if current.isEmpty then title else title ++ titleSeparator ++ current
  | _ => title

end Helper

namespace Run

/-- Puts a title in front of those that a context has collected. -/
def entitle (title context : Value) : Run Value := do
  match context, title with
  | .dict p, .text t =>
    if !t.isEmpty then
      let entries ← dict p
      setDict p (entries.insert (.text titleKey) (.text (Helper.titled t (entries.find? (.text titleKey)))))
  | _, _ => pure ()
  return .none

/-- Whether the page of a context is at or under a path. Paths start at `cwd`. -/
def isActive (cwd : String) (directory context : Value) : Run Bool := do
  match context, directory with
  | .dict p, .text directory =>
    match (← dict p).find? (.text pathKey) with
    | some (.text path) => if path.isEmpty then throw .badValue else return Path.isWithin cwd directory path
    | _ => return false
  | _, _ => return false

end Run

end NestedSite
