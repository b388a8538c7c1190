import Isolation.Files.Tree
import Isolation.Sorting

/-!
# Searching a directory

All files of one name below a directory. Directories whose name begins with a dot are not entered,
and symbolic links are neither files nor directories here. A file is selected by the path of the
directory that holds it and by its own path, both relative to where the search starts, with slashes;
a directory that holds the file directly at the start is called `.`.

The result is in ascending order of the names along the paths, **whatever the order in which the
directories list their entries**; a directory whose path is excluded is searched all the same.
-/

namespace Isolation.Files

/-- Which of the files found are selected. -/
structure Selection where
  /-- The directories that count; all of them when absent. -/
  include? : Option (String → Bool)
  /-- The files that do not. -/
  exclude : String → Bool

/-- A path from names. -/
def slashed (names : List String) : String := Text.joined "/" names

/-- The directory that holds a file, from where the search starts. -/
def holder (names : List String) : String :=
  match names.dropLast with
  | [] => "."
  | dirs => slashed dirs

/-- Whether a file is selected. -/
def Selection.selects (s : Selection) (names : List String) : Bool :=
  !s.exclude (slashed names) &&
    match s.include? with
    | none => true
    | some p => p (holder names)

mutual

/-- The files of a name at an entry called `n` and below it. -/
def filesAt (name n : String) : Tree → List (List String)
  | .directory entries =>
    if Text.startsWith n "." then [] else (filesNamed name entries).map (n :: ·)
  | .file _ _ | .program _ => if n = name then [[n]] else []
  | .link _ | .device _ => []

/-- The files of a name among some entries and below them, in the order of the entries. -/
def filesNamed (name : String) : List (String × Tree) → List (List String)
  | [] => []
  | (n, t) :: r => filesAt name n t ++ filesNamed name r

end

/-- The selected files of a name below a directory, as paths relative to it. -/
def findFiles (name : String) (s : Selection) (entries : List (String × Tree)) :
    List (List String) :=
  sortedBy compare ((filesNamed name entries).filter s.selects)

/-- The selected files of a name below the directory of a path. -/
def Volume.findFiles (v : Volume) (root name : String) (s : Selection) :
    Except Refusal (List (List String)) :=
  return Files.findFiles name s (← v.readDirectory root)

end Isolation.Files
