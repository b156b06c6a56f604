import NestedSite.Digest.Sha256
import NestedSite.Site.Argument
import NestedSite.Site.Disk

/-!
# Documents and their files

`Documents` are what a rendering puts out, by their paths. `Writer.writeAll` writes them under a directory in the order
of their paths. All paths are checked before anything is written; where links lead a path out of the directory, writing
ends there, and what is written already stays.
-/

namespace NestedSite

/-- Documents by their paths, in the order of their first appearance. -/
abbrev Documents := List (String × Value)

namespace Documents

/-- Puts a document at a path, in the place of one that is there. -/
def put (docs : Documents) (path : String) (content : Value) : Documents :=
  if docs.any fun d => d.1 == path then docs.map fun d => if d.1 == path then (path, content) else d
  else docs ++ [(path, content)]

def paths (docs : Documents) : List String := docs.map Prod.fst

/-- The documents by their shortest paths, each of which must be valid. -/
def validated (docs : Documents) : Except PathFault Documents :=
  docs.foldlM (fun (all : Documents) (path, content) => return all.put (← outputPath path) content) []

end Documents

/-- Texts in the order of their characters. -/
def sortedTexts (texts : List String) : List String := texts.mergeSort fun a b => a ≤ b

/-- A document that is written. -/
structure Written where
  path : String
  /-- The digest of its bytes. -/
  digest : String
  deriving Repr, DecidableEq, Inhabited

/-- A disk while documents are written to it. -/
structure Writing where
  disk : Disk
  written : List Written := []

abbrev Writer := ExceptT Fault (StateM Writing)

namespace Writer

/-- Takes what the disk answers. -/
def ofDisk (result : Except FileFault α) : Writer α :=
  match result with
  | .ok a => return a
  | .error f => throw (.file f)

/-- The place that a path under a directory leads to, which must lie there as well. -/
def target (directory : Place) (path : String) : Writer Place := do
  if path.contains '\x00' then throw .badValue
  let d := (← get).disk
  let place := directory ++ Place.ofPath path
  let resolved ← ofDisk (d.resolve place)
  let root ← ofDisk (d.resolve directory)
  if root.isPrefixOf resolved then return resolved
  throw (.path (.outside place.path directory.path))

/-- Writes one document. -/
def write (directory : Place) (path : String) (content : Value) : Writer Unit := do
  let place ← target directory path
  let d ← ofDisk ((← get).disk.makeDirectories place.dropLast)
  modify fun w => { w with disk := d }
  match content with
  | .text t =>
    let bytes := Text.utf8Bytes t.toList
    let d ← ofDisk (d.writeFile place bytes)
    modify fun w => { disk := d, written := w.written ++ [⟨path, Digest.Sha256.hex bytes⟩] }
  | _ => throw .wrongType

/-- Writes documents under a directory. -/
def writeAll (directory : Place) (docs : Documents) : Writer Unit := do
  match docs.validated with
  | .error f => throw (.path f)
  | .ok docs =>
    let d ← ofDisk ((← get).disk.makeDirectories directory)
    modify fun w => { w with disk := d }
    (sortedTexts docs.paths).forM fun path =>
      match docs.find? fun d => d.1 == path with
      | some (_, content) => write directory path content
      | none => pure ()

end Writer

end NestedSite
