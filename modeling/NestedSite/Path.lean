/-!
# Paths

Paths are texts whose segments are separated by `/`. `reduce` drops the segments that lead nowhere and lets `..` cancel
the segment before it; `normalize`, `join` and `relative` are built on it. The directory itself is written `.`. The
templates that wrap a page are listed by `ancestorChain`: the page, then the `index` of its directory and of every
directory above it.
-/

namespace NestedSite.Path

/-- The pieces between the slashes. -/
def segments : List Char → List (List Char)
  | [] => [[]]
  | c :: cs =>
    if c == '/' then [] :: segments cs
    else match segments cs with
      | [] => [[c]]
      | s :: ss => (c :: s) :: ss

def unsegments (ss : List (List Char)) : List Char := ['/'].intercalate ss

/-- A segment that stays where it is. -/
def isStill (s : List Char) : Bool := s == [] || s == ['.']

def isUp (s : List Char) : Bool := s == ['.', '.']

/-- Follows segments from where `stack` (last first) has led; the root has nothing above it. -/
def follow (rooted : Bool) (stack : List (List Char)) : List (List Char) → List (List Char)
  | [] => stack.reverse
  | s :: ss =>
    if isStill s then follow rooted stack ss
    else if isUp s then
      match stack with
      | [] => follow rooted (if rooted then [] else [s]) ss
      | t :: rest => follow rooted (if isUp t then s :: stack else rest) ss
    else follow rooted (s :: stack) ss

/-- The slashes at the front that are kept: none, one, or exactly two. -/
def rootSlashes (cs : List Char) : List Char :=
  match cs.takeWhile (· == '/') with
  | [] => []
  | [_, _] => ['/', '/']
  | _ => ['/']

/-- The shortest spelling of a path. -/
def reduceChars (cs : List Char) : List Char :=
  let root := rootSlashes cs
  match root ++ unsegments (follow (!root.isEmpty) [] (segments cs)) with
  | [] => ['.']
  | path => path

def reduce (path : String) : String := .ofList (reduceChars path.toList)

/-- Backslashes count as slashes. -/
def unify (path : String) : String := .ofList (path.toList.map fun c => if c == '\\' then '/' else c)

def normalize (path : String) : String := reduce (unify path)

def isAbsolute (path : String) : Bool := path.toList.head? == some '/'

def dropEndSlashes (cs : List Char) : List Char := (cs.reverse.dropWhile (· == '/')).reverse

/-- The last segment, and what stands before it with the slash between. -/
def splitLast (cs : List Char) : List Char × List Char :=
  let name := (cs.reverse.takeWhile (· != '/')).reverse
  (cs.take (cs.length - name.length), name)

/-- The directory of a path, as it is written. -/
def parentChars (cs : List Char) : List Char :=
  let head := (splitLast cs).1
  if head.all (· == '/') then head else dropEndSlashes head

/-- The directory of a path; slashes at its end do not count. -/
def parent (path : String) : String :=
  match parentChars (dropEndSlashes path.toList) with
  | [] => "."
  | cs => .ofList cs

/-- The last segment of a path; slashes at its end do not count. -/
def name (path : String) : String := .ofList (splitLast (dropEndSlashes path.toList)).2

/-- A path without its extension, and the extension: the last point of the last segment and what follows it, unless
only points stand before it. -/
def splitExtension (path : String) : String × String :=
  let (head, name) := splitLast path.toList
  let tail := (name.reverse.takeWhile (· != '.')).reverse
  let stem := name.take (name.length - tail.length - 1)
  if tail.length < name.length && stem.any (· != '.') then (.ofList (head ++ stem), .ofList ('.' :: tail))
  else (path, "")

def withoutExtension (path : String) : String := (splitExtension path).1

def extension (path : String) : String := (splitExtension path).2

/-- Puts `next` behind `path`, unless it is absolute. -/
def appendChars (path next : List Char) : List Char :=
  if next.head? == some '/' then next
  else if path.isEmpty || path.getLast? == some '/' then path ++ next
  else path ++ '/' :: next

def append (path next : String) : String := .ofList (appendChars path.toList next.toList)

def join (first : String) (rest : List String) : String := reduce (rest.foldl append first)

/-- The segments from the root to a path, which starts at `cwd` if it is relative. -/
def fromRoot (cwd path : String) : List (List Char) :=
  (segments (reduceChars (appendChars cwd.toList path.toList))).filter (!·.isEmpty)

/-- Drops what two lists have in common at their beginnings. -/
def dropCommon [BEq α] : List α → List α → List α × List α
  | x :: xs, y :: ys => if x == y then dropCommon xs ys else (x :: xs, y :: ys)
  | xs, ys => (xs, ys)

/-- The path that leads from `start` to `target`; relative paths start at `cwd`. -/
def relative (cwd start target : String) : String :=
  let (up, down) := dropCommon (fromRoot cwd start) (fromRoot cwd target)
  match up.map (fun _ => ['.', '.']) ++ down with
  | [] => "."
  | ss => .ofList (unsegments ss)

/-- Whether a path is `directory` or lies under it. -/
def isWithin (cwd directory path : String) : Bool :=
  let r := relative cwd directory path
  !(r == ".." || "../".isPrefixOf r)

/-- A path as it is spelled from the directory `base`, which starts at `cwd`. -/
def relativeTo (cwd : String) (base : String) (path : String) : String :=
  normalize (if isAbsolute path then relative cwd base path else path)

/-- The name of the templates that wrap the pages of their directory. -/
def indexName : String := "index"

/-- The indices of the directories above `directory`; `fuel` bounds their number. -/
def indicesAbove : Nat → String → List String
  | 0, _ => []
  | fuel + 1, directory =>
    if directory == "." then []
    else
      let up := parent directory
      if up == directory then [] else join up [indexName] :: indicesAbove fuel up

/-- The templates that a page goes through: itself, the index of its directory, and those of the directories above. An
index is not wrapped in itself. -/
def ancestorChain (path : String) : List String :=
  let leaf := withoutExtension (normalize path)
  let directory := parent leaf
  let own := if name leaf == indexName then [] else [join directory [indexName]]
  leaf :: own ++ indicesAbove (leaf.length + 1) directory

end NestedSite.Path
