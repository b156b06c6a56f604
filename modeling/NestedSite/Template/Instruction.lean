import NestedSite.Text.Blank

/-!
# Instructions

A template's source is a sequence of literals, expressions between `\x7b\x7b` and `\x7d\x7d` and statements between
`<<` and `>>` (`Instruction.scan`). A delimiter opens only if a closer of its kind follows with at least one
character in between; the fragment is the shortest such, without the blanks around it. What is no fragment is literal
text.

The listing of a template shows one instruction on a line; the literals stand there between single quotes, escaped by
`escapeLiteral`.
-/

namespace NestedSite.Template

open NestedSite.Text

/-- One step of a template. -/
inductive Instruction where
  /-- Text that is put out as it stands. -/
  | literal (text : String)
  /-- The value of an expression is put out. -/
  | expression (code : String)
  /-- A block begins, goes on or ends, or something is done without output. -/
  | statement (code : String)
  deriving Repr, DecidableEq

/-- The escape of a character that cannot stand between single quotes on one line. -/
def literalEscape? (c : Char) : Option (List Char) :=
  if c == '\\' then some ['\\', '\\']
  else if c == '\x27' then some ['\\', '\x27']
  else if c == '\n' then some ['\\', 'n']
  else if c == '\r' then some ['\\', 'r']
  else if c == '\u2028' then some "\\u2028".toList
  else if c == '\u2029' then some "\\u2029".toList
  else none

/-- A text as it stands between single quotes in a listing. -/
def escapeLiteral (text : String) : String :=
  .ofList (text.toList.flatMap fun c => (literalEscape? c).getD [c])

namespace Instruction

/-- The line of the listing. -/
def listing : Instruction → String
  | literal text => "__append('" ++ escapeLiteral text ++ "')"
  | expression code => "__append(" ++ code ++ ")"
  | statement code => code

/-! ## Scanning -/

/-- What follows a doubled `closer` that stands after blanks. -/
def closed? (closer : Char) (cs : List Char) : Option (List Char) :=
  match cs.dropWhile isBlank with
  | a :: b :: rest => if a == closer && b == closer then some rest else none
  | _ => none

/-- The shortest nonempty beginning that the closer follows, and what follows the closer. -/
def shortest? (closer : Char) : List Char → Option (List Char × List Char)
  | [] => none
  | c :: cs =>
    match closed? closer cs with
    | some rest => some ([c], rest)
    | none => (shortest? closer cs).map fun (fragment, rest) => (c :: fragment, rest)

/-- The fragment after an opener. Blanks are passed over first; only where no fragment follows them do they count as
an empty one. -/
def fragment? (closer : Char) (cs : List Char) : Option (List Char × List Char) :=
  let body := cs.dropWhile isBlank
  match shortest? closer body with
  | some (fragment, rest) => some (strip fragment, rest)
  | none => if body.length < cs.length then (closed? closer body).map ([], ·) else none

/-- The instruction that opens here, and what follows it. -/
def delimited? : List Char → Option (Instruction × List Char)
  | '\x7b' :: '\x7b' :: cs => (fragment? '\x7d' cs).map fun (code, rest) => (expression (.ofList code), rest)
  | '<' :: '<' :: cs => (fragment? '>' cs).map fun (code, rest) => (statement (.ofList code), rest)
  | _ => none

theorem length_dropWhile_le (p : Char → Bool) (cs : List Char) : (cs.dropWhile p).length ≤ cs.length :=
  (List.dropWhile_sublist p).length_le

theorem length_lt_of_closed? {closer : Char} {cs rest : List Char} (h : closed? closer cs = some rest) :
    rest.length < cs.length := by
  have hd := length_dropWhile_le isBlank cs
  unfold closed? at h
  split at h
  · rename_i a b r heq
    split at h
    · cases h; rw [heq] at hd; simp at hd; omega
    · cases h
  · cases h

theorem length_lt_of_shortest? {closer : Char} {cs fragment rest : List Char}
    (h : shortest? closer cs = some (fragment, rest)) : rest.length < cs.length := by
  induction cs generalizing fragment with
  | nil => simp [shortest?] at h
  | cons c cs ih =>
    unfold shortest? at h
    split at h
    · rename_i r hr
      cases h
      have := length_lt_of_closed? hr
      simp; omega
    · obtain ⟨⟨f, r⟩, hf, heq⟩ := Option.map_eq_some_iff.1 h
      cases heq
      have := ih hf
      simp; omega

theorem length_lt_of_fragment? {closer : Char} {cs code rest : List Char}
    (h : fragment? closer cs = some (code, rest)) : rest.length < cs.length := by
  have hd := length_dropWhile_le isBlank cs
  unfold fragment? at h
  simp only at h
  split at h
  · rename_i f r hf
    cases h
    have := length_lt_of_shortest? hf
    omega
  · split at h
    · obtain ⟨r, hr, heq⟩ := Option.map_eq_some_iff.1 h
      cases heq
      have := length_lt_of_closed? hr
      omega
    · cases h

/-- Scanning goes on further right. -/
theorem length_lt_of_delimited? {cs rest : List Char} {i : Instruction} (h : delimited? cs = some (i, rest)) :
    rest.length < cs.length := by
  unfold delimited? at h
  split at h
  · obtain ⟨⟨f, r⟩, hf, heq⟩ := Option.map_eq_some_iff.1 h
    cases heq
    have := length_lt_of_fragment? hf
    simp; omega
  · obtain ⟨⟨f, r⟩, hf, heq⟩ := Option.map_eq_some_iff.1 h
    cases heq
    have := length_lt_of_fragment? hf
    simp; omega
  · cases h

/-- The literal that ends before the next delimiter, if it is not empty; `pending` holds it in reverse. -/
def flush (pending : List Char) : List Instruction :=
  if pending.isEmpty then [] else [literal (.ofList pending.reverse)]

/-- Scans `cs` after the literal characters `pending` (in reverse). -/
def scanFrom (pending cs : List Char) : List Instruction :=
  match h : delimited? cs with
  | some (i, rest) =>
    have := length_lt_of_delimited? h
    flush pending ++ i :: scanFrom [] rest
  | none =>
    match cs with
    | [] => flush pending
    | c :: cs => scanFrom (c :: pending) cs
termination_by cs.length

/-- The instructions of a template's source, in order. -/
def scan (source : String) : List Instruction := scanFrom [] source.toList

end Instruction

/-- One instruction on a line. -/
def listing (program : List Instruction) : String :=
  "\n".intercalate (program.map Instruction.listing)

end NestedSite.Template
