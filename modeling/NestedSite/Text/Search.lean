import NestedSite.Text.Blank

/-!
# Searching texts

Places, splits and replacements of a part within a text, on lists of characters. An empty part stands at every place,
also at the end.
-/

namespace NestedSite.Text

/-- Removes `part` from the beginning. -/
def dropPrefix? : List Char → List Char → Option (List Char)
  | [], cs => some cs
  | _ :: _, [] => none
  | p :: ps, c :: cs => if p == c then dropPrefix? ps cs else none

/-- The number of characters before the first place of `part`. -/
def indexOf? (part : List Char) : List Char → Option Nat
  | [] => if part.isEmpty then some 0 else none
  | c :: cs => if part.isPrefixOf (c :: cs) then some 0 else (indexOf? part cs).map (· + 1)

/-- The number of characters before the last place of `part`. -/
def lastIndexOf? (part : List Char) : List Char → Option Nat
  | [] => if part.isEmpty then some 0 else none
  | c :: cs =>
    match lastIndexOf? part cs with
    | some n => some (n + 1)
    | none => if part.isPrefixOf (c :: cs) then some 0 else none

/-- The places of a nonempty part, none overlapping the one before; `skip` characters still belong to that one. -/
def placesFrom (part : List Char) (skip position : Nat) : List Char → List Nat
  | [] => []
  | c :: cs =>
    match skip with
    | k + 1 => placesFrom part k (position + 1) cs
    | 0 =>
      if part.isPrefixOf (c :: cs) then position :: placesFrom part (part.length - 1) (position + 1) cs
      else placesFrom part 0 (position + 1) cs

/-- The number of places of `part` that do not overlap. -/
def occurrences (part cs : List Char) : Nat :=
  if part.isEmpty then cs.length + 1 else (placesFrom part 0 0 cs).length

/-- Cuts at the places of a nonempty part, at most `limit` times if there is a limit. -/
def splitOnPart (part : List Char) : Option Nat → List Char → List Char → List (List Char)
  | some 0, current, cs => [current.reverse ++ cs]
  | _, current, [] => [current.reverse]
  | limit, current, c :: cs =>
    match h : dropPrefix? part (c :: cs) with
    | some rest =>
      if part.isEmpty then [current.reverse ++ c :: cs]
      else current.reverse :: splitOnPart part (limit.map (· - 1)) [] rest
    | none => splitOnPart part limit (c :: current) cs
termination_by _ _ cs => cs.length
decreasing_by
  · rename_i hp
    cases part with
    | nil => simp at hp
    | cons p ps =>
      have key : ∀ (ps cs rest : List Char), dropPrefix? ps cs = some rest → rest.length ≤ cs.length := by
        intro ps
        induction ps with
        | nil => intro cs rest h; simp [dropPrefix?] at h; simp [h]
        | cons q qs ih =>
          intro cs rest h
          cases cs with
          | nil => simp [dropPrefix?] at h
          | cons d ds =>
            simp only [dropPrefix?] at h
            split at h
            · have := ih ds rest h
              simp; omega
            · simp at h
      simp only [dropPrefix?] at h
      split at h
      · have := key ps cs rest h
        simp; omega
      · simp at h
  · simp

/-- Cuts at the runs of blanks, leaving no empty piece, at most `limit` times if there is a limit. -/
def words : Option Nat → List Char → List (List Char)
  | limit, cs => go limit cs.length (cs.dropWhile isBlank)
where
  go : Option Nat → Nat → List Char → List (List Char)
    | _, _, [] => []
    | some 0, _, cs => [cs]
    | _, 0, cs => [cs]
    | limit, n + 1, cs =>
      let word := cs.takeWhile (fun c => !isBlank c)
      let rest := (cs.dropWhile (fun c => !isBlank c)).dropWhile isBlank
      word :: go (limit.map (· - 1)) n rest

/-- Cuts as `splitOnPart` does, but from the end. -/
def splitOnPartEnd (part : List Char) (limit : Option Nat) (cs : List Char) : List (List Char) :=
  ((splitOnPart part.reverse limit [] cs.reverse).map List.reverse).reverse

/-- Cuts as `words` does, but from the end. -/
def wordsEnd (limit : Option Nat) (cs : List Char) : List (List Char) :=
  ((words limit cs.reverse).map List.reverse).reverse

/-- Puts `new` for the places of `old`, at most `limit` of them if there is a limit. -/
def replaceAll (old new : List Char) (limit : Option Nat) (cs : List Char) : List Char :=
  if old.isEmpty then go limit cs
  else new.intercalate (splitOnPart old limit [] cs)
where
  go : Option Nat → List Char → List Char
    | some 0, cs => cs
    | _, [] => new
    | limit, c :: cs => new ++ c :: go (limit.map (· - 1)) cs

/-- The characters that end a line. -/
def isLineEnd (c : Char) : Bool :=
  let n := c.toNat
  (10 ≤ n && n ≤ 13) || (28 ≤ n && n ≤ 30) || n == 0x85 || n == 0x2028 || n == 0x2029

/-- The lines of a text, with their ends if `keep`; a carriage return and a line feed end one line together. -/
def lines (keep : Bool) (cs : List Char) : List (List Char) := go [] cs
where
  go (current : List Char) : List Char → List (List Char)
    | [] => if current.isEmpty then [] else [current.reverse]
    | '\r' :: '\n' :: cs => (if keep then current.reverse ++ ['\r', '\n'] else current.reverse) :: go [] cs
    | c :: cs =>
      if isLineEnd c then (if keep then current.reverse ++ [c] else current.reverse) :: go [] cs
      else go (c :: current) cs

end NestedSite.Text
