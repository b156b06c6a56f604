import NestedSite.Pattern.Match
import NestedSite.Pattern.Parse

/-!
# Tags

The tag of a node says what kind of value it is. The tag of a scalar that is written plainly follows from its text:
`Tag.ofPlain` tries the forms of truth values, numbers, times and the like, and takes what has none of them as text.
-/

namespace NestedSite.Yaml

inductive Tag where
  | null | bool | int | float | binary | timestamp | text | orderedMapping | pairs | set | sequence | mapping
  /-- The key whose value is merged into the mapping around it. -/
  | merge
  /-- The key whose value stands for the mapping around it. -/
  | default
  /-- A tag that no value belongs to. -/
  | unknown
  deriving Repr, DecidableEq, Inhabited

namespace Tag

/-- Whether the values of a tag are collections. -/
def isCollection : Tag → Bool
  | orderedMapping | pairs | set | sequence | mapping => true
  | _ => false

/-- What the names of the known tags begin with. -/
def leading : String := "tag:yaml.org,2002:"

def ofName (name : String) : Tag :=
  let known : List (String × Tag) :=
    [("null", null), ("bool", bool), ("int", int), ("float", float), ("binary", binary), ("timestamp", timestamp),
      ("str", text), ("omap", orderedMapping), ("pairs", pairs), ("set", set), ("seq", sequence), ("map", mapping),
      ("merge", merge), ("value", default)]
  ((known.find? fun (n, _) => leading ++ n == name).map Prod.snd).getD unknown

/-- Whether a text has one of the forms that a pattern describes. -/
def hasForm (forms text : String) : Bool :=
  match Pattern.parse forms with
  | .ok p => p.matchesStart text
  | .error _ => false

def boolForms : String := "(?:yes|Yes|YES|no|No|NO|true|True|TRUE|false|False|FALSE|on|On|ON|off|Off|OFF)$"

def floatForms : String :=
  "(?:[-+]?[0-9][0-9_]*\\.[0-9_]*(?:[eE][-+][0-9]+)?|\\.[0-9][0-9_]*(?:[eE][-+][0-9]+)?|" ++
    "[-+]?[0-9][0-9_]*(?::[0-5]?[0-9])+\\.[0-9_]*|[-+]?\\.(?:inf|Inf|INF)|\\.(?:nan|NaN|NAN))$"

def intForms : String :=
  "(?:[-+]?0b[0-1_]+|[-+]?0[0-7_]+|[-+]?(?:0|[1-9][0-9_]*)|[-+]?0x[0-9a-fA-F_]+|" ++
    "[-+]?[1-9][0-9_]*(?::[0-5]?[0-9])+)$"

def nullForms : String := "(?:~|null|Null|NULL|)$"

def timestampForms : String :=
  "(?:[0-9][0-9][0-9][0-9]-[0-9][0-9]-[0-9][0-9]|" ++
    "[0-9][0-9][0-9][0-9]-[0-9][0-9]?-[0-9][0-9]?(?:[Tt]|[ \\t]+)[0-9][0-9]?:[0-9][0-9]:[0-9][0-9](?:\\.[0-9]*)?" ++
    "(?:[ \\t]*(?:Z|[-+][0-9][0-9]?(?::[0-9][0-9])?))?)$"

/-- The tag of a scalar that is written plainly. -/
def ofPlain (content : String) : Tag :=
  let forms : List (String × Tag) :=
    [(boolForms, bool), (floatForms, float), (intForms, int), ("<<$", merge), (nullForms, null),
      (timestampForms, timestamp), ("=$", default)]
  if content.startsWith "\n" then text
  else ((forms.find? fun (f, _) => hasForm f content).map Prod.snd).getD text

end Tag

end NestedSite.Yaml
