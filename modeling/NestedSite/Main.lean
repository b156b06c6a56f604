import NestedSite.Site.Command

/-!
# The program

Reads what a command needs from the disk, carries the command out, and writes the files that it has changed.
-/

namespace NestedSite

/-- Adds what is at a path, and below it, to what is known of the disk. -/
partial def survey (known : Disk) (path : String) : IO Disk := do
  let place := Place.ofPath path
  if (known.lookup? place).isSome then return known
  let real? ← try pure (some (← IO.FS.realPath path)) catch _ => pure none
  match real? with
  | none => return known
  | some real =>
    if real.toString != path then survey (known.put place (.link real.toString)) real.toString
    else if ← real.isDir then
      (← real.readDir).foldlM (fun known entry => survey known (path ++ "/" ++ entry.fileName))
        (known.put place .directory)
    else return known.put place (.file (← IO.FS.readBinFile path).toList)

/-- Writes the files that `after` has and `before` has not. -/
def writeChanges (before after : Disk) : IO Unit :=
  after.entries.forM fun (place, entry) => do
    match entry with
    | .file content =>
      if before.lookup? place != some entry then
        IO.FS.createDirAll (Place.path place.dropLast)
        IO.FS.writeBinFile (Place.path place) ⟨content.toArray⟩
    | .directory => if before.lookup? place != some entry then IO.FS.createDirAll (Place.path place)
    | .link _ => pure ()

def surveyAll (known : Disk) (places : List Place) : IO Disk :=
  places.foldlM (fun known p => survey known p.path) known

/-- The disk with the directories above all that is known of it. -/
def Disk.rooted (known : Disk) : Disk :=
  (known.entries.flatMap fun e => (List.range e.1.length).map e.1.take).foldl
    (fun d p => if (d.lookup? p).isSome then d else d.put p .directory) known

/-- Carries out the command that the arguments describe, and gives the exit code. -/
def program (arguments : List String) : IO UInt32 := do
  let project := Place.ofPath (← IO.FS.realPath ".").toString
  let home := ((← IO.getEnv "HOME").map Place.ofPath).getD project
  let settings ← surveyAll {} [project ++ Run.configSteps, home ++ Run.configSteps]
  let before ← match Command.ofArguments {} arguments with
    | .ok c => Disk.rooted <$> surveyAll settings (c.places project home settings.rooted)
    | .error _ => pure settings.rooted
  let outcome := Command.runArguments arguments project home before
  writeChanges before outcome.disk
  IO.print outcome.stdout
  IO.eprint outcome.stderr
  return outcome.exitCode.toUInt32

end NestedSite

def main (arguments : List String) : IO UInt32 := NestedSite.program arguments
