import Isolation.Files.Path

/-!
# File trees

A file system as a value: directories of named entries, files of bytes, symbolic links, and the
programs and devices that come with a system. What a program may ask of it is fixed here, with the
ways in which a request is refused (`Refusal`), each worded as the operating system words it.

Following a path resolves `.` and `..` and follows symbolic links, at most `linkLimit` of them. A
name that is followed must stand in a directory, so `file/.` is refused like `file/name`. Where
something is to be made, the last name need not be there: `Volume.placeOf` says where it would be.
-/

namespace Isolation.Files

/-- Why the file system refuses a request. -/
inductive Refusal where
  | notFound
  | notDirectory
  | isDirectory
  | notPermitted
  | notExecutable
  | linkLoop
  | nameTooLong
  /-- Something is there already. -/
  | alreadyThere
  | notEmpty
  /-- A descriptor that is not open, or not for this. -/
  | badDescriptor
  /-- A request that makes no sense. -/
  | invalid
  /-- A device that takes nothing more. -/
  | noSpace
  /-- The path holds the character that ends paths. -/
  | endsEarly
  /-- The file was read and is not UTF-8. -/
  | notText
  /-- A refusal given in words. -/
  | stated (reason : String)
deriving DecidableEq, Repr

/-- The words for a refusal. -/
def Refusal.text : Refusal → String
  | notFound => "No such file or directory"
  | notDirectory => "Not a directory"
  | isDirectory => "Is a directory"
  | notPermitted => "Permission denied"
  | notExecutable => "Exec format error"
  | linkLoop => "Too many levels of symbolic links"
  | nameTooLong => "File name too long"
  | alreadyThere => "File exists"
  | notEmpty => "Directory not empty"
  | badDescriptor => "Bad file descriptor"
  | invalid => "Invalid argument"
  | noSpace => "No space left on device"
  | endsEarly => "file name contained an unexpected NUL byte"
  | notText => "stream did not contain valid UTF-8"
  | stated reason => reason

/-- The number of a refusal, if the operating system gives it one. -/
def Refusal.number? : Refusal → Option Nat
  | notFound => some 2
  | notExecutable => some 8
  | badDescriptor => some 9
  | notPermitted => some 13
  | alreadyThere => some 17
  | notDirectory => some 20
  | isDirectory => some 21
  | invalid => some 22
  | noSpace => some 28
  | nameTooLong => some 36
  | notEmpty => some 39
  | linkLoop => some 40
  | endsEarly | notText | stated _ => none

/-- The wording of a refusal. -/
def Refusal.message (r : Refusal) : String :=
  match r.number? with
  | some n => r.text ++ " (os error " ++ toString n ++ ")"
  | none => r.text

/-- A device. -/
inductive Device where
  /-- Takes everything, and holds nothing. -/
  | null
  /-- Holds nothing but zeros. -/
  | zero
  /-- Takes nothing. -/
  | full
  /-- What a process has open under a number. -/
  | descriptor (n : Nat)
deriving DecidableEq, Repr

/-- What a name in a directory stands for. -/
inductive Tree where
  | file (bytes : ByteArray) (executable : Bool)
  | link (target : String)
  | directory (entries : List (String × Tree))
  /-- A program that comes with the system. -/
  | program (name : String)
  | device (d : Device)

namespace Tree

/-! ## 1. Looking in and changing -/

/-- The entry of a name. -/
def child? (name : String) : Tree → Option Tree
  | directory entries => entries.lookup name
  | _ => none

/-- What lies at the end of some names, no link being followed. -/
def at? (t : Tree) : List String → Option Tree
  | [] => some t
  | n :: ns =>
    match t.child? n with
    | some c => c.at? ns
    | none => none

/-- The entries with one of them set. -/
def setEntry (name : String) (t : Tree) : List (String × Tree) → List (String × Tree)
  | [] => [(name, t)]
  | (n, c) :: r => if n = name then (n, t) :: r else (n, c) :: setEntry name t r

/-- The tree with something put at the end of some names; directories are made on the way. -/
def put (new : Tree) : List String → Tree → Tree
  | [], _ => new
  | n :: ns, directory entries =>
    directory (setEntry n (put new ns ((entries.lookup n).getD (directory []))) entries)
  | n :: ns, _ => directory [(n, put new ns (directory []))]

/-- The tree without what lies at the end of some names. -/
def remove : List String → Tree → Tree
  | [n], directory entries => directory (entries.filter fun e => e.1 != n)
  | n :: ns, directory entries =>
    match entries.lookup n with
    | some c => directory (setEntry n (remove ns c) entries)
    | none => directory entries
  | _, t => t

end Tree

/-! ## 2. Following paths -/

/-- The most symbolic links that are followed on the way to one file. -/
def linkLimit : Nat := 40

/-- The most bytes of a name. -/
def nameLimit : Nat := 255

/-- The bytes of a path with the one that ends it are at most so many. -/
def pathLimit : Nat := 4096

/-- A file system with a current directory, given by its names from the root. -/
structure Volume where
  root : Tree
  current : List String := []

namespace Volume

/-- The names that a written path asks to be followed, one after another. -/
def steps (path : String) : List String :=
  (Text.fields (· == '/') path.toList).map String.ofList

/-- Follow names from a directory to the place they lead to. -/
def follow (v : Volume) (links : Nat) (here : List String) (names : List String) :
    Except Refusal (List String) :=
  match names with
  | [] => .ok here
  | n :: rest =>
    match v.root.at? here with
    | some (.directory entries) =>
      if n = "" || n = "." then v.follow links here rest
      else if n = ".." then v.follow links here.dropLast rest
      else
        match entries.lookup n with
        | none => .error (if nameLimit < n.utf8ByteSize then .nameTooLong else .notFound)
        | some (.link target) =>
          match links with
          | 0 => .error .linkLoop
          | links + 1 =>
            let here := if Path.isAbsolute target then [] else here
            v.follow links here (steps target ++ rest)
        | some _ => v.follow links (here ++ [n]) rest
    | _ => .error .notDirectory
termination_by (links, names.length)

/-- The place that a path leads to, as names from the root. -/
def resolve (v : Volume) (path : String) : Except Refusal (List String) :=
  if path.toList.contains (Char.ofNat 0) then .error .endsEarly
  else if path = "" then .error .notFound
  else if pathLimit ≤ path.utf8ByteSize then .error .nameTooLong
  else v.follow linkLimit (if Path.isAbsolute path then [] else v.current) (steps path)

/-- What a path leads to. -/
def open? (v : Volume) (path : String) : Except Refusal Tree := do
  match v.root.at? (← v.resolve path) with
  | some t => return t
  | none => .error .notFound

/-- The bytes of a file. Devices and programs hold none. -/
def readBytes (v : Volume) (path : String) : Except Refusal ByteArray := do
  match ← v.open? path with
  | .file bytes _ => return bytes
  | .program _ | .device _ => return .empty
  | _ => .error .isDirectory

/-- The text of a file. -/
def readText (v : Volume) (path : String) : Except Refusal String := do
  match String.fromUTF8? (← v.readBytes path) with
  | some text => return text
  | none => .error .notText

/-- The entries of a directory. -/
def readDirectory (v : Volume) (path : String) : Except Refusal (List (String × Tree)) := do
  match ← v.open? path with
  | .directory entries => return entries
  | _ => .error .notDirectory

/-- Whether a path leads to a file. -/
def isFile (v : Volume) (path : String) : Bool :=
  match v.open? path with
  | .ok (.file ..) | .ok (.program _) => true
  | _ => false

/-- The same file system seen from another directory. -/
def enter (v : Volume) (path : String) : Except Refusal Volume := do
  let here ← v.resolve path
  match v.root.at? here with
  | some (.directory _) => return { v with current := here }
  | _ => .error .notDirectory

/-- The current directory as an absolute path. -/
def currentPath (v : Volume) : String := "/" ++ Text.joined "/" v.current

/-! ## 3. Places -/

/-- Where the last name of some names would be, and what is there. Where `followed` is set, a link
    that is there is followed. -/
def placeFrom (v : Volume) (followed : Bool) : Nat → List String → List String →
    Except Refusal (List String × Option Tree)
  | links, here, names =>
    match (names.filter (· != "")).getLast? with
    | none => do
      let place ← v.follow links here names
      return (place, v.root.at? place)
    | some last =>
      if last = "." || last = ".." then do
        let place ← v.follow links here names
        return (place, v.root.at? place)
      else
        let before := names.reverse.dropWhile (· == "") |>.drop 1 |>.reverse
        let slashed := names.getLast? == some ""
        match v.follow links here before with
        | .error r => .error r
        | .ok directory =>
          match v.root.at? directory with
          | some (.directory entries) =>
            match entries.lookup last, links with
            | none, _ =>
              if nameLimit < last.utf8ByteSize then .error .nameTooLong
              else .ok (directory ++ [last], none)
            | some (.link target), links + 1 =>
              if followed || slashed then
                let here := if Path.isAbsolute target then [] else directory
                v.placeFrom followed links here (steps target)
              else .ok (directory ++ [last], some (.link target))
            | some (.link _), 0 => .error .linkLoop
            | some (.directory entries), _ => .ok (directory ++ [last], some (.directory entries))
            | some t, _ =>
              if slashed then .error .notDirectory else .ok (directory ++ [last], some t)
          | _ => .error .notDirectory

/-- Where the thing that a path names is or would be, and what is there. -/
def placeOf (v : Volume) (path : String) (followed : Bool := true) :
    Except Refusal (List String × Option Tree) :=
  if path.toList.contains (Char.ofNat 0) then .error .endsEarly
  else if path = "" then .error .notFound
  else if pathLimit ≤ path.utf8ByteSize then .error .nameTooLong
  else
    v.placeFrom followed linkLimit (if Path.isAbsolute path then [] else v.current) (steps path)

/-! ## 4. Searching upwards -/

/-- The nearest directory, from `start` upwards, in which `name` is a file. -/
def ancestorWith? (v : Volume) (name : String) (start : String) : Option String :=
  go start.length start
where
  /-- Try `dir`, then its parent, at most so many times. -/
  go (fuel : Nat) (dir : String) : Option String :=
    if v.isFile (Path.join dir name) then some dir
    else
      match fuel with
      | 0 => none
      | fuel + 1 =>
        match Path.parent? dir with
        | some up => go fuel up
        | none => none

end Volume

end Isolation.Files
