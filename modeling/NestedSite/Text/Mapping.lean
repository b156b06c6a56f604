import NestedSite.Text.CharSet

/-!
# Mappings of characters

A table that sends characters to one or several others: runs of characters with the distance to their images, and
single characters with their images written out. Characters outside the table stay as they are.
-/

namespace NestedSite.Text

structure Mapping where
  runs : Array Run
  distances : Array Int
  images : Array (Nat × List Char)

namespace Mapping

/-- Reads the words `run:distance` and `character:image,image,…`, the latter in hexadecimal, both ascending. -/
def ofText (runs images : String) : Mapping :=
  let words := tableWords runs
  let halves := words.map fun w => match w.splitOn ":" with | [r, d] => (r, d) | _ => (w, "0")
  let entries := tableWords images
  let image := fun (w : String) => match w.splitOn ":" with
    | [c, cs] => (hexValue c, (cs.splitOn ",").map fun x => Char.ofNat (hexValue x))
    | _ => (0, [])
  { runs := (halves.map fun h => Run.ofText h.1).toArray
    distances := (halves.map fun h => h.2.toInt?.getD 0).toArray
    images := (entries.map image).toArray }

/-- The image among those written out. -/
def image? (m : Mapping) (n : Nat) : Option (List Char) :=
  let place := CharSet.lastAtMost (fun i => (m.images[i]?.map Prod.fst).getD 0) n 32 0 m.images.size
  match m.images[place]? with
  | some (c, image) => if c == n then some image else none
  | none => none

/-- The image given by a run. -/
def shifted? (m : Mapping) (n : Nat) : Option (List Char) :=
  let place := CharSet.lastAtMost (fun i => (m.runs[i]?.map Run.low).getD 0) n 32 0 m.runs.size
  match m.runs[place]?, m.distances[place]? with
  | some r, some d => if r.contains n then some [Char.ofNat ((n : Int) + d).toNat] else none
  | _, _ => none

/-- The image of a character, if the table changes it. -/
def find? (m : Mapping) (c : Char) : Option (List Char) :=
  m.image? c.toNat <|> m.shifted? c.toNat

end Mapping

end NestedSite.Text
