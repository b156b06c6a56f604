import NestedSite.Text.Quoted

/-!
# JSON

`Json.compact` writes a value on one line and without blanks. Of characters that texts may hold, only quotes,
backslashes and control characters are escaped.
-/

namespace NestedSite.Text

inductive Json where
  | number (n : Nat)
  | text (s : String)
  | list (items : List Json)
  | object (fields : List (String × Json))

namespace Json

def escape (c : Char) : List Char :=
  if c == '\x22' || c == '\\' then ['\\', c]
  else if c == '\x08' then ['\\', 'b']
  else if c == '\x0c' then ['\\', 'f']
  else if c == '\n' then ['\\', 'n']
  else if c == '\r' then ['\\', 'r']
  else if c == '\t' then ['\\', 't']
  else if c.toNat < 32 then '\\' :: 'u' :: hexDigits 4 c.toNat
  else [c]

def quotedText (s : String) : String := "\"" ++ .ofList (s.toList.flatMap escape) ++ "\""

mutual

def compact : Json → String
  | number n => toString n
  | text s => quotedText s
  | list items => "[" ++ ",".intercalate (compactAll items) ++ "]"
  | object fields => "\x7b" ++ ",".intercalate (compactFields fields) ++ "\x7d"

def compactAll : List Json → List String
  | [] => []
  | j :: js => compact j :: compactAll js

def compactFields : List (String × Json) → List String
  | [] => []
  | (k, j) :: rest => (quotedText k ++ ":" ++ compact j) :: compactFields rest

end

end Json

end NestedSite.Text
