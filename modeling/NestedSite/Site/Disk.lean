import NestedSite.Fault
import NestedSite.Path
import NestedSite.Text.Coding
import NestedSite.Text.LineEnd

/-!
# The disk

A `Disk` says what is at which place: a file, a directory, or a link to another path. A place is named by the names on
the way from the root. A path may lead through links and may climb. `Disk.follow` takes it step by step, each in a
directory that is there, and finds the place that it leads to. `Disk.resolve` spells the place without links and
without steps up, and asks of nothing to be there: directories that are missing are climbed out of as well, and of a
path that comes to a link for the second time the rest is taken as it is spelled. Making a directory may make those
above it.
-/

namespace NestedSite

inductive DiskEntry where
  | file (content : List UInt8)
  | directory
  | link (target : String)
  deriving Repr, DecidableEq, Inhabited

def DiskEntry.isLink : DiskEntry → Bool
  | link _ => true
  | _ => false

/-- The names from the root to a place. -/
abbrev Place := List String

structure Disk where
  entries : List (Place × DiskEntry) := []
  deriving Inhabited

namespace Place

/-- The steps of a path. -/
def ofPath (path : String) : Place := ((Path.segments path.toList).filter (!·.isEmpty)).map String.ofList

def path (p : Place) : String := "/" ++ "/".intercalate p

/-- Takes one step from a place, as it is spelled. -/
def step (here : Place) (name : String) : Place :=
  if name == "." then here else if name == ".." then here.dropLast else here ++ [name]

/-- The place that steps spell. -/
def reduce (steps : List String) : Place := steps.foldl step []

end Place

namespace Disk

def lookup? (d : Disk) (p : Place) : Option DiskEntry :=
  if p.isEmpty then some .directory else (d.entries.find? fun e => e.1 == p).map Prod.snd

/-- Puts something at a place. -/
def put (d : Disk) (p : Place) (e : DiskEntry) : Disk :=
  if d.entries.any fun f => f.1 == p then { entries := d.entries.map fun f => if f.1 == p then (p, e) else f }
  else { entries := d.entries ++ [(p, e)] }

/-! ## Following paths -/

/-- How many links a path may lead through. -/
def linkLimit : Nat := 40

/-- How many bytes a name may have. -/
def nameLimit : Nat := 255

/-- Where the path begins that a link in the directory `here` leads to. -/
def linkStart (here : Place) (target : String) : Place := bif Path.isAbsolute target then [] else here

/-- The place that some steps lead to from the place `here`, through `links` links at most. At the last place there may
be nothing. -/
def follow (d : Disk) (links : Nat) (here : Place) : List String → Except FileFault Place
  | [] => pure here
  | step :: rest =>
    match d.lookup? here with
    | none => throw .notFound
    | some .directory =>
      if step == "." then follow d links here rest
      else if step == ".." then follow d links here.dropLast rest
      else if step.utf8ByteSize > nameLimit then throw .nameTooLong
      else match d.lookup? (here ++ [step]) with
        | some (.link target) =>
          match links with
          | 0 => throw .linkLoop
          | n + 1 => follow d n (linkStart here target) (Place.ofPath target ++ rest)
        | _ => follow d links (here ++ [step]) rest
    | some _ => throw .notDirectory
termination_by rest => (links, rest.length)

/-- What a path leads to. -/
def find? (d : Disk) (p : Place) : Except FileFault (Place × DiskEntry) := do
  let q ← d.follow linkLimit [] p
  match d.lookup? q with
  | some e => pure (q, e)
  | none => throw .notFound

def isDirectory (d : Disk) (p : Place) : Bool :=
  match d.find? p with
  | .ok (_, .directory) => true
  | _ => false

/-! ## Places without links -/

/-- The links at other places than those in `met`. -/
def linksBeside (d : Disk) (met : List Place) : List (Place × DiskEntry) :=
  d.entries.filter fun e => e.2.isLink && !met.contains e.1

theorem linksBeside_cons (d : Disk) (met : List Place) (p : Place) :
    d.linksBeside (p :: met) = (d.linksBeside met).filter fun e => e.1 != p := by
  simp only [linksBeside, List.filter_filter, List.contains_cons, Bool.not_or, bne]
  exact List.filter_congr fun e _ => by ac_rfl

theorem mem_of_lookup? {d : Disk} {p : Place} {e : DiskEntry} (h : d.lookup? p = some e) (hp : p ≠ []) :
    (p, e) ∈ d.entries := by
  rw [lookup?, if_neg (by simpa using hp)] at h
  obtain ⟨f, hf, rfl⟩ := Option.map_eq_some_iff.1 h
  have hplace : f.1 = p := by simpa using List.find?_some hf
  exact hplace ▸ List.mem_of_find?_eq_some hf

theorem length_linksBeside_lt {d : Disk} {met : List Place} {p : Place} {target : String}
    (h : d.lookup? p = some (.link target)) (hp : ¬met.contains p) :
    (d.linksBeside (p :: met)).length < (d.linksBeside met).length := by
  have hmem : (p, DiskEntry.link target) ∈ d.linksBeside met := by
    refine List.mem_filter.2 ⟨mem_of_lookup? h fun hnil => ?_, by simpa [DiskEntry.isLink] using hp⟩
    simp [lookup?, hnil] at h
  rw [linksBeside_cons]
  exact List.length_filter_lt_length_iff_exists.2 ⟨_, hmem, by simp⟩

/-- The place that some steps lead to from the place `here`, whether something is there or not. The links in `met` have
been met on the way and are not gone through again: what comes of it are the steps that go on from there. -/
def straighten (d : Disk) (met : List Place) (here : Place) : List String → Except (List String) Place
  | [] => .ok here
  | step :: rest =>
    if step == "." then straighten d met here rest
    else if step == ".." then straighten d met here.dropLast rest
    else match _h : d.lookup? (here ++ [step]) with
      | some (.link target) =>
        if _hmet : met.contains (here ++ [step]) then .error (here ++ step :: rest)
        else match straighten d ((here ++ [step]) :: met) (linkStart here target) (Place.ofPath target) with
          | .ok there => straighten d met there rest
          | .error steps => .error (steps ++ rest)
      | _ => straighten d met (here ++ [step]) rest
termination_by rest => ((d.linksBeside met).length, rest.length)
decreasing_by
  all_goals first
    | exact .left _ _ (length_linksBeside_lt ‹_› ‹_›)
    | exact .right _ (Nat.lt_succ_self _)

/-- The spelling of a path without links and steps up. -/
def straight (d : Disk) (p : Place) : Place :=
  match d.straighten [] [] p with
  | .ok q => q
  | .error steps => Place.reduce steps

/-- The place that a path leads to, whether something is there or not. -/
def resolve (d : Disk) (p : Place) : Except FileFault Place :=
  match d.find? (d.straight p) with
  | .error .linkLoop => throw .linkLoop
  | _ => pure (d.straight p)

/-! ## Reading -/

/-- The content of the file that a path leads to. -/
def read (d : Disk) (p : Place) : Except FileFault (List UInt8) := do
  match ← d.find? p with
  | (_, .file content) => pure content
  | _ => throw .isDirectory

/-- The files under a directory, with the steps that lead to them from there. Links to files count as files; links to
directories are not gone through. -/
def filesUnder (d : Disk) (directory : Place) : List (Place × List UInt8) :=
  d.entries.filterMap fun (p, e) =>
    if directory.isPrefixOf p && directory.length < p.length then
      let steps := p.drop directory.length
      match e with
      | .file content => some (steps, content)
      | .link _ =>
        match d.read p with
        | .ok content => some (steps, content)
        | .error _ => none
      | .directory => none
    else none

/-- The text of a file, with all line ends alike. -/
def textOf (content : List UInt8) : Except Fault String :=
  match Text.decodeUtf8? content with
  | some t => pure (.ofList (Text.unifyLineEnds t.toList))
  | none => throw .undecodable

/-! ## Writing -/

/-- Makes a directory in one that is there. -/
def makeDirectory (d : Disk) (p : Place) : Except FileFault Disk := do
  match p.getLast? with
  | none => throw .alreadyExists
  | some name =>
    let above ← d.follow linkLimit [] p.dropLast
    match d.lookup? above with
    | none => throw .notFound
    | some .directory =>
      if name == "." || name == ".." then throw .alreadyExists
      else if name.utf8ByteSize > nameLimit then throw .nameTooLong
      else if (d.lookup? (above ++ [name])).isSome then throw .alreadyExists
      else pure (d.put (above ++ [name]) .directory)
    | some _ => throw .notDirectory

/-- Makes a directory in one that is there, unless it is there itself. -/
def ensureDirectory (d : Disk) (p : Place) : Except FileFault Disk :=
  match d.makeDirectory p with
  | .ok d => pure d
  | .error f =>
    match d.find? p with
    | .ok (_, .directory) => pure d
    | .error .nameTooLong => throw .nameTooLong
    | _ => throw f

/-- Makes a directory and those above it that are missing; `steps` leads to it from the root, last step first. -/
def makeDirectoriesBack (d : Disk) : List String → Except FileFault Disk
  | [] => pure d
  | last :: above =>
    match d.ensureDirectory (last :: above).reverse with
    | .error .notFound => do (← d.makeDirectoriesBack above).ensureDirectory (last :: above).reverse
    | result => result

/-- Makes a directory and those above it that are missing. -/
def makeDirectories (d : Disk) (p : Place) : Except FileFault Disk := d.makeDirectoriesBack p.reverse

/-- Writes a file where a path leads to, in a directory that is there. -/
def writeFile (d : Disk) (p : Place) (content : List UInt8) : Except FileFault Disk := do
  let q ← d.follow linkLimit [] p
  match d.lookup? q with
  | some .directory => throw .isDirectory
  | _ => pure (d.put q (.file content))

end Disk

end NestedSite
