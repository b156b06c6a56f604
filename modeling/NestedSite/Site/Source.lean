import NestedSite.Pattern.Glob
import NestedSite.Site.Disk
import NestedSite.Value.Basic

/-!
# The sources of a site

`Run.collectSources` reads all files under a directory, but for those that are left out: a glob leaves out what has its
form as a whole, and what lies in a directory, or has a name, of its form. The sources come in the order of their
paths.
-/

namespace NestedSite

structure SourceFile where
  /-- The path from the directory of the sources. -/
  path : String
  content : String
  deriving Repr, DecidableEq, Inhabited

/-- Whether one of some globs leaves out a path. -/
def isExcluded (path : String) (globs : List String) : Bool :=
  globs.any fun glob => Glob.holds glob path || (path.splitOn "/").any fun name => Glob.holds glob name

/-- The logger of reading and writing files. -/
def fileSource : String := "sitestack.engine.file_io"

/-- The order of paths by their names, one after the other. -/
def Place.before : Place → Place → Bool
  | [], _ => true
  | _, [] => false
  | a :: as, b :: bs => if a == b then Place.before as bs else a ≤ b

namespace Run

/-- The place of a directory that must be there. -/
def directoryAt (d : Disk) (p : Place) : Run Place := do
  match d.resolve p with
  | .error f => throw (.file f)
  | .ok q => if d.isDirectory q then return q else throw (.path (.notDirectory q.path))

/-- The text of a file unless it is left out. -/
def sourceOf? (globs : List String) (file : Place × List UInt8) : Run (Option SourceFile) := do
  let path := "/".intercalate file.1
  if isExcluded path globs then
    note (.log .debug fileSource s!"Excluded source file: {path}")
    return none
  return some ⟨path, ← read fun _ => Disk.textOf file.2⟩

/-- The sources under a directory. -/
def collectSources (d : Disk) (p : Place) (globs : List String) : Run (List SourceFile) := do
  let root ← directoryAt d p
  let files := (d.filesUnder root).mergeSort fun f g => Place.before f.1 g.1
  let sources ← files.filterMapM (sourceOf? globs)
  return sources.mergeSort fun s t => s.path ≤ t.path

end Run

end NestedSite
