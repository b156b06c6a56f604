/-!
# Line ends

A text that is read from a file has one way to end a line, whatever the file has.
-/

namespace NestedSite.Text

/-- Every way to end a line becomes a line feed. -/
def unifyLineEnds : List Char → List Char
  | '\r' :: '\n' :: cs => '\n' :: unifyLineEnds cs
  | '\r' :: cs => '\n' :: unifyLineEnds cs
  | c :: cs => c :: unifyLineEnds cs
  | [] => []

end NestedSite.Text
