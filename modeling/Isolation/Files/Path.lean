import Isolation.Text.Fields

/-!
# Path texts

Paths as they are written: names between slashes. Repeated slashes and inner `.` names mean nothing;
`..` is a name like any other until a path is followed; a path that begins with a slash is absolute.
No path is followed here, and nothing is asked of a file system.
-/

namespace Isolation.Files.Path

/-- Whether a path starts from the root of the file system. -/
def isAbsolute (path : String) : Bool := path.toList.head? == some '/'

/-- The names of a path that mean something. An absolute path begins with the name `/`; a relative
    one may begin with `.`. -/
def components (path : String) : List String :=
  let names := (Text.fields (· == '/') path.toList).map String.ofList
  let inner := names.filter fun n => n != "" && n != "."
  if isAbsolute path then "/" :: inner
  else if names.head? == some "." then "." :: inner
  else inner

/-- A path that is followed from a directory; an absolute one stands for itself. -/
def join (dir path : String) : String :=
  if isAbsolute path then path
  else if dir == "" || dir.toList.getLast? == some '/' then dir ++ path
  else dir ++ "/" ++ path

/-- The part of a path that comes before its names: the leading slash, or a leading `.` name. -/
def splitHead (path : List Char) : List Char × List Char :=
  match path with
  | '/' :: r => (['/'], r)
  | ['.'] => (['.'], [])
  | '.' :: '/' :: r => (['.'], '/' :: r)
  | _ => ([], path)

/-- A reversed path without the slashes and `.` names at its end. -/
def dropIdle (reversed : List Char) : List Char :=
  match reversed with
  | '/' :: r => dropIdle r
  | ['.'] => []
  | '.' :: '/' :: r => dropIdle r
  | r => r

/-- The path of the directory that a path names something in, written as a beginning of it; a path
    of no name has none. -/
def parent? (path : String) : Option String :=
  let (head, body) := splitHead path.toList
  match dropIdle body.reverse with
  | [] => if head = ['.'] then some "" else none
  | named =>
    let rest := dropIdle (named.dropWhile (· != '/'))
    some (String.ofList (head ++ rest.reverse))

/-- A path relative to a directory, its names between slashes; a path that does not lie in the
    directory keeps all its names. -/
def relative (dir path : String) : String :=
  let names := components path
  let base := components dir
  Text.joined "/" (if base.isPrefixOf names then names.drop base.length else names)

end Isolation.Files.Path
