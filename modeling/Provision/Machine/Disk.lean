import Provision.Text.Lines

/-!
# Disk — paths, files and directories

A location is the list of names that lead to it from the root.  A path is a text that leads from one
location to another, one component at a time: a name goes down, `..` goes up, and `.` as well as an
empty component stays.  Each of these steps needs a directory to start from, so a path with a slash
at its end leads to directories only.  This file defines:

* `Path.join` — one path after another;
* `Disk` — the files and directories, and the working directory;
* `Disk.walk`, `Disk.resolve` — where a path leads, if it leads anywhere;
* `Disk.isFile` — the test for a regular file;
* `Disk.ofPaths` — the disk with given files and directories in the working directory.
-/

namespace Provision

/-! ## Paths -/

namespace Path

def isAbsolute (path : List Char) : Bool :=
  path.head? = some '/'

def components (path : List Char) : List (List Char) :=
  let (p, ps) := Text.pieces '/' path
  p :: ps

/-- Follow a path by another: an absolute one replaces it, and else one slash stands between
them. -/
def joinChars (base path : List Char) : List Char :=
  if isAbsolute path then path
  else if base.isEmpty || base.getLast? = some '/' then base ++ path
  else base ++ '/' :: path

def join (base path : String) : String :=
  String.ofList (joinChars base.toList path.toList)

end Path

/-! ## Disks -/

/-- The names that lead from the root to a file or directory. -/
abbrev Location := List (List Char)

/-- The files and directories of a host.  The root is a directory on every disk. -/
structure Disk where
  home : Location
  files : List Location
  directories : List Location
  deriving DecidableEq, Repr

namespace Disk

def isDirectoryAt (d : Disk) (loc : Location) : Bool :=
  loc.isEmpty || d.directories.contains loc

def isFileAt (d : Disk) (loc : Location) : Bool :=
  d.files.contains loc

/-- Where components lead from a location. -/
def walk (d : Disk) : Location → List (List Char) → Option Location
  | loc, [] => some loc
  | loc, c :: cs =>
      if !d.isDirectoryAt loc then none
      else if c.isEmpty || c = ['.'] then d.walk loc cs
      else if c = ['.', '.'] then d.walk loc.dropLast cs
      else if d.isDirectoryAt (loc ++ [c]) || d.isFileAt (loc ++ [c]) then d.walk (loc ++ [c]) cs
      else none

theorem walk_append (d : Disk) (loc : Location) (cs cs' : List (List Char)) :
    d.walk loc (cs ++ cs') = (d.walk loc cs).bind fun next => d.walk next cs' := by
  induction cs generalizing loc with
  | nil => rfl
  | cons c cs ih =>
      simp only [List.cons_append, walk]
      split
      · rfl
      · split
        · exact ih loc
        · split
          · exact ih loc.dropLast
          · split
            · exact ih (loc ++ [c])
            · rfl

/-- Where a path leads from a location; the empty path leads nowhere. -/
def resolve (d : Disk) (base : Location) (path : String) : Option Location :=
  let cs := path.toList
  if cs.isEmpty then none
  else d.walk (if Path.isAbsolute cs then [] else base) (Path.components cs)

/-- A path from the working directory leads to a regular file. -/
def isFile (d : Disk) (path : String) : Bool :=
  match d.resolve d.home path with
  | some loc => d.isFileAt loc
  | none => false

/-- Where a path from the working directory leads, if that is a directory. -/
def directory? (d : Disk) (path : String) : Option Location :=
  (d.resolve d.home path).filter d.isDirectoryAt

/-! ## Locations as texts -/

def names (loc : Location) : String :=
  String.intercalate "/" (loc.map String.ofList)

/-- A location as seen from the working directory, which itself is a dot. -/
def relative (d : Disk) (loc : Location) : String :=
  if loc = d.home then "."
  else if d.home.isPrefixOf loc then names (loc.drop d.home.length)
  else "/" ++ names loc

/-! ## Building a disk -/

/-- The location with a path from a base, where the path goes down only. -/
def below (base : Location) (path : String) : Location :=
  base ++ (Path.components path.toList).filter fun c => !(c.isEmpty || c = ['.'])

/-- A location and all those on the way to it, without the root. -/
def ancestors (loc : Location) : List Location :=
  (List.range loc.length).map fun n => loc.take (n + 1)

/-- The disk whose working directory holds the given files and directories, with all directories on
the way to them. -/
def ofPaths (home : Location) (files directories : List String) : Disk :=
  let files := files.map (below home)
  let directories := directories.map (below home)
  ⟨home, files,
    ancestors home ++ directories.flatMap ancestors ++ files.flatMap fun f => ancestors f.dropLast⟩

end Disk
end Provision
