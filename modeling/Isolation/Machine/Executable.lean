import Isolation.Machine.Act

/-!
# Executables

What the system does with a file that is to be run. A file that begins with the mark of a script
names its interpreter in its first line, which is run in its place with the path of the script
behind it; an interpreter may be a script again, but not more than a few times. **Only blanks and
tabs divide the first line**, so that a carriage return belongs to what it follows.
-/

namespace Isolation.Machine

open Files (Refusal Tree Volume)

/-- The most bytes of a first line that count. -/
def firstLineLimit : Nat := 256

/-- The interpreter that the bytes of a script name, and the one argument that stands behind it. -/
def interpreter? (bytes : ByteArray) : Option (String × Option String) :=
  let cs := (Text.octets (bytes.toList.take firstLineLimit)).toList
  match cs with
  | '#' :: '!' :: r =>
    let blank (c : Char) : Bool := c == ' ' || c == '\t'
    let line := (r.takeWhile (· != '\n')).dropWhile blank
    let line := (line.reverse.dropWhile blank).reverse
    let path := line.takeWhile fun c => !blank c
    let rest := (line.drop path.length).dropWhile blank
    if path.isEmpty then none
    else some (String.ofList path, if rest.isEmpty then none else some (String.ofList rest))
  | _ => none

/-- What is run in the end: a program of the system under some name. -/
structure Image where
  program : String
  name : String
  args : List String

/-- What is run for a path, its interpreters being looked up at most so many times. -/
def imageFrom (v : Volume) : Nat → (path name : String) → (args : List String) →
    Except Refusal Image
  | depth, path, name, args =>
    match v.open? (Text.textOfOctets path) with
    | .error r => .error r
    | .ok (.program p) => .ok ⟨p, name, args⟩
    | .ok (.file bytes true) =>
      match interpreter? bytes, depth with
      | none, _ => .error .notExecutable
      | some _, 0 => .error .linkLoop
      | some (interpreter, argument), depth + 1 =>
        imageFrom v depth interpreter interpreter (argument.toList ++ path :: args)
    | .ok _ => .error .notPermitted

/-- What is run for a path. -/
def image (v : Volume) (path name : String) (args : List String) : Except Refusal Image :=
  imageFrom v 5 path name args

/-- The first of some paths that can be run. Paths that lead to nothing are passed over; what else
    goes wrong is the reason if none can be run. -/
def firstImage (v : Volume) (name : String) (args : List String) :
    Refusal → List String → Except (Refusal × String) Image
  | r, [] => .error (r, name)
  | r, path :: paths =>
    match image v path name args with
    | .ok i => .ok i
    | .error .notExecutable => .error (.notExecutable, path)
    | .error .notFound | .error .notDirectory => firstImage v name args r paths
    | .error r => firstImage v name args r paths

/-- Where programs are looked for unless that is set. -/
def usualPath : String := "/usr/local/sbin:/usr/local/bin:/usr/sbin:/usr/bin:/sbin:/bin"

/-- The paths at which a program may be. -/
def candidates (path name : String) : List String :=
  if name.toList.contains '/' then [name]
  else
    (Text.fields (· == ':') path.toList).map fun d =>
      if d.isEmpty then name else String.ofList d ++ "/" ++ name

end Isolation.Machine
