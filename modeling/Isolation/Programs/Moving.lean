import Isolation.Programs.Paths
import Isolation.Programs.Permissions
import Isolation.Text.Floating

/-!
# Making, moving and removing

The programs that change what names stand for: `mkdir`, `rm`, `touch`, `cp` and `mv`. **A file is
copied with whether it may be run, and moved as it is.**
-/

namespace Isolation.Programs.Moving

open Machine
open Files (Refusal Tree)

/-- Whether a path ends in a slash. -/
def endsInSlash (path : String) : Bool := path.toList.getLast? == some '/'

/-- A path below another. -/
def below (directory name : String) : String :=
  if endsInSlash directory then directory ++ name
  else directory ++ "/" ++ name

/-- A tree and what is below it, with paths. -/
def withAllBelow (path : String) (place : List String) (t : Tree) :
    List (String × List String × Tree) :=
  match t with
  | .directory entries =>
    (path, place, t) :: entries.attach.flatMap fun e =>
      withAllBelow (below path (Text.octetsOf e.1.1)) (place ++ [e.1.1]) e.1.2
  | t => [(path, place, t)]
termination_by t
decreasing_by
  have := List.sizeOf_lt_of_mem e.2
  have := Prod.mk.sizeOf_spec e.1.1 e.1.2
  simp_all +arith
  omega

/-- Whether the next line of the input agrees to a question, if it has to be asked. -/
def agreed (asked : Bool) (question : String) : Act Bool := do
  if !asked then return true
  Act.printError ((← get).name ++ ": " ++ question ++ " ")
  match ← Act.inputUpTo (World.lineSplit '\n') with
  | .ok answer => return answer.toList.head?.any fun c => c == 'y' || c == 'Y'
  | .error _ => return false

/-! ## 1. Directories -/

/-- The paths that lead to a path: each is the one before with one name more. -/
def stages (path : String) : List String :=
  let cs := path.toList
  let ends := (List.range cs.length).filter fun i =>
    let next := cs[i + 1]?
    cs[i]? != some '/' && (next == none || next == some '/')
  ends.map fun i => String.ofList (cs.take (i + 1))

/-- Make a directory. -/
def makeDirectory (path : String) : Act (Except Refusal Unit) := do
  match ← Act.placeOf path false with
  | .error r => return .error r
  | .ok (_, some _) => return .error .alreadyThere
  | .ok (place, none) =>
    Act.putAt place (.directory [])
    return .ok ()

/-- Make directories. -/
def mkdir : Program := fun args => do
  let g := Grammar.of "m:pvZ" [("mode", 'm'), ("parents", 'p'), ("verbose", 'v')]
  let p ← options g args
  if p.operands.isEmpty then missingOperand
  match p.last? 'm' with
  | some mode =>
    if (Permissions.changes? 0 mode).isNone then Act.fail 1 ("invalid mode " ++ quoted mode)
  | none => pure ()
  let make (path : String) : Act Nat := do
    match ← makeDirectory path with
    | .ok () =>
      if p.has 'v' then Act.printLine ((← get).name ++ ": created directory " ++ quoted path)
      return 0
    | .error r =>
      Act.complain ("cannot create directory " ++ quoted path ++ ": " ++ r.text)
      return 1
  let rec makeAll : List String → Act Nat
    | [] => return 0
    | path :: rest => do
      match ← Act.find? path true with
      | .ok (.directory _) => makeAll rest
      | .ok _ =>
        let r : Refusal := if rest.isEmpty then .alreadyThere else .notDirectory
        Act.complain ("cannot create directory " ++ quoted path ++ ": " ++ r.text)
        return 1
      | .error _ =>
        match ← make path with
        | 0 => makeAll rest
        | n => return n
  let one (path : String) : Act Nat :=
    if p.has 'p' && path != "" then makeAll (stages path) else make path
  worst one p.operands

/-! ## 2. Removing -/

/-- The words for a kind of thing. -/
def kindOf : Tree → String
  | .file bytes _ => if bytes.size = 0 then "regular empty file" else "regular file"
  | .directory _ => "directory"
  | .link _ => "symbolic link"
  | .program _ => "regular file"
  | .device _ => "character special file"

/-- The lines that tell of removing a tree, the innermost first. -/
def removalLines (path : String) : Tree → List String
  | .directory entries =>
    (entries.attach.flatMap fun e => removalLines (below path (Text.octetsOf e.1.1)) e.1.2) ++
      ["removed directory " ++ quoted path]
  | _ => ["removed " ++ quoted path]
termination_by t => t
decreasing_by
  have := List.sizeOf_lt_of_mem e.2
  have := Prod.mk.sizeOf_spec e.1.1 e.1.2
  simp_all +arith
  omega

/-- Say how the first file whose name looks like an option is removed, if there is such a file. -/
def hint : List String → Act Unit
  | [] => return
  | arg :: args => do
    if Text.startsWith arg "-" && arg != "-" then
      match ← Act.find? arg false with
      | .ok _ =>
        Act.printError ("Try '" ++ (← get).name ++ " ./" ++ shown arg ++ "' to remove the file " ++
          quoted arg ++ ".\n")
      | .error _ => hint args
    else hint args

/-- Remove things. -/
def rm : Program := fun args => do
  let g := Grammar.of "dfiIrRvPO"
    [("dir", 'd'), ("force", 'f'), ("recursive", 'r'), ("verbose", 'v'), ("no-preserve-root", 'P'),
      ("preserve-root", 'O'), ("interactive", 'i')]
  let p : Parsed ←
    match g.parse args with
    | .ok p => pure p
    | .error e => do
      Act.complain e
      hint args
      Act.printError ("Try '" ++ (← get).name ++ " --help' for more information.\n")
      Act.quit 1
  let mode := p.lastOf? ['f', 'i', 'I']
  let forced := mode == some 'f'
  let deep := p.has 'r' || p.has 'R'
  if p.operands.isEmpty then
    if forced then return 0 else missingOperand
  let cannot (path : String) (r : Refusal) : Act Nat := do
    Act.complain ("cannot remove " ++ quoted path ++ ": " ++ r.text)
    return 1
  let one (path : String) : Act Nat := do
    let name := String.ofList ((Paths.bare path.toList).reverse.takeWhile (· != '/')).reverse
    if deep && (name = "." || name = "..") then
      Act.complain ("refusing to remove '.' or '..' directory: skipping " ++ quoted path)
      return 1
    match ← Act.placeOf path false with
    | .error r =>
      if forced && (r = .notFound || r = .notDirectory) then return 0 else cannot path r
    | .ok (_, none) => if forced then return 0 else cannot path .notFound
    | .ok (place, some t) =>
      if deep && place.isEmpty && !p.has 'P' then
        Act.complain ("it is dangerous to operate recursively on " ++ quoted path)
        Act.complain "use --no-preserve-root to override this failsafe"
        return 1
      match t with
      | .directory entries =>
        if !deep && !p.has 'd' then return ← cannot path .isDirectory
        if !deep && !entries.isEmpty then return ← cannot path .notEmpty
      | _ => pure ()
      if !(← agreed (mode == some 'i') ("remove " ++ kindOf t ++ " " ++ quoted path ++ "?")) then
        return 0
      if p.has 'v' then (removalLines path t).forM Act.printLine
      Act.changeWorld fun w => w.unlink place
      return 0
  worst one p.operands

/-! ## 3. Making -/

/-- Make files that are not there. -/
def touch : Program := fun args => do
  let g := Grammar.of "acd:fhmr:t:"
    [("no-create", 'c'), ("date", 'd'), ("reference", 'r'), ("time", 't'), ("no-dereference", 'h')]
  let p ← options g args
  match p.last? 'r' with
  | none => pure ()
  | some path =>
    match ← Act.find? path true with
    | .ok _ => pure ()
    | .error r => Act.fail 1 ("failed to get attributes of " ++ quoted path ++ ": " ++ r.text)
  if p.operands.isEmpty then usage 1 "missing file operand"
  let one (path : String) : Act Nat := do
    if path = "-" then return 0
    match ← Act.placeOf path true with
    | .error .notDirectory =>
      if endsInSlash path then
        Act.complain ("setting times of " ++ quoted path ++ ": " ++ Refusal.text .notDirectory)
      else Act.complain ("cannot touch " ++ quoted path ++ ": " ++ Refusal.text .notDirectory)
      return 1
    | .error r =>
      if p.has 'c' && r = .notFound then return 0
      Act.complain ("cannot touch " ++ quoted path ++ ": " ++ r.text)
      return 1
    | .ok (_, some _) => return 0
    | .ok (place, none) =>
      if p.has 'c' then return 0
      if endsInSlash path then
        Act.complain ("cannot touch " ++ quoted path ++ ": " ++ Refusal.text .notFound)
        return 1
      Act.putAt place (.file .empty false)
      return 0
  worst one p.operands

/-! ## 4. Two places -/

/-- The operands of a program with a goal: what there is to do it with, the goal, and whether the
    goal is a directory that takes them in. -/
def goalOf (p : Parsed) : Act (List String × String × Bool) := do
  let isDirectory (path : String) : Act Bool := do
    match ← Act.find? path true with
    | .ok (.directory _) => return true
    | _ => return false
  match p.last? 't' with
  | some directory =>
    if p.operands.isEmpty then usage 1 "missing file operand"
    if !(← isDirectory directory) then
      let r := match ← Act.find? directory true with
        | .error r => r
        | .ok _ => .notDirectory
      Act.fail 1 ("target directory " ++ quoted directory ++ ": " ++ r.text)
    return (p.operands, directory, true)
  | none =>
    match p.operands.reverse with
    | [] => usage 1 "missing file operand"
    | [a] =>
      usage 1 ("missing destination file operand after " ++ quoted a)
    | goal :: sources =>
      let sources := sources.reverse
      if p.has 'T' then
        match sources with
        | _ :: extra :: _ =>
          usage 1 ("extra operand " ++ quoted (if sources.length = 2 then goal else extra))
        | _ => return (sources, goal, false)
      let into ← isDirectory goal
      if !into && 1 < sources.length then
        let r := match ← Act.find? goal true with
          | .error r => r
          | .ok _ => .notDirectory
        Act.fail 1 ("target " ++ quoted goal ++ ": " ++ r.text)
      return (sources, goal, into)

/-- What a file becomes when it is copied to a place where something is. -/
def copyOf (preserved : Bool) (there : Option Tree) : Tree → Tree
  | .file bytes executable =>
    match there with
    | some (.file _ old) => .file bytes (if preserved then executable else old)
    | _ => .file bytes executable
  | .program _ => .file .empty true
  | .device _ => .file .empty false
  | t => t

/-- A tree with another laid over it: directories are joined, and files replaced. -/
def overlaid (preserved : Bool) (there : Option Tree) : Tree → Tree
  | .directory entries =>
    let old := match there with
      | some (.directory old) => old
      | _ => []
    .directory (entries.attach.foldl
      (fun acc e => Tree.setEntry e.1.1 (overlaid preserved (acc.lookup e.1.1) e.1.2) acc) old)
  | t => copyOf preserved there t
termination_by t => t
decreasing_by
  have := List.sizeOf_lt_of_mem e.2
  have := Prod.mk.sizeOf_spec e.1.1 e.1.2
  simp_all +arith
  omega

/-- The lines that tell of copying a tree to where something may be already. -/
def copyLines (path target : String) (there : Option Tree) : Tree → List String
  | .directory entries =>
    let here := match there with
      | some (.directory _) => []
      | _ => [quoted path ++ " -> " ++ quoted target]
    here ++ entries.attach.flatMap fun e =>
      let name := Text.octetsOf e.1.1
      copyLines (below path name) (below target name) (there.bind fun t => t.child? e.1.1) e.1.2
  | _ => [quoted path ++ " -> " ++ quoted target]
termination_by t => t
decreasing_by
  have := List.sizeOf_lt_of_mem e.2
  have := Prod.mk.sizeOf_spec e.1.1 e.1.2
  simp_all +arith
  omega

/-- Copy things. -/
def cp : Program := fun args => do
  let g := Grammar.of "abdfHilLnpPrRst:TuvxA"
    [("archive", 'a'), ("force", 'f'), ("interactive", 'i'), ("link", 'l'), ("dereference", 'L'),
      ("no-clobber", 'n'), ("no-dereference", 'P'), ("recursive", 'r'), ("symbolic-link", 's'),
      ("target-directory", 't'), ("no-target-directory", 'T'), ("verbose", 'v'), ("update", 'u'),
      ("preserve", 'A')]
  let p ← options g args
  let deep := p.has 'r' || p.has 'R' || p.has 'a'
  let followed := if p.has 'L' || p.has 'H' then true else !(deep || p.has 'P' || p.has 'd')
  let preserved := p.has 'p' || p.has 'a' || p.has 'A'
  let (sources, goal, into) ← goalOf p
  let one (path : String) : Act Nat := do
    let said (message : String) : Act Nat := do
      Act.complain message
      return 1
    match ← Act.placeOf path followed with
    | .error r => said ("cannot stat " ++ quoted path ++ ": " ++ r.text)
    | .ok (_, none) => said ("cannot stat " ++ quoted path ++ ": " ++ Refusal.text .notFound)
    | .ok (source, some t) =>
      let isDirectory := match t with
        | .directory _ => true
        | _ => false
      if isDirectory && !deep then
        return ← said ("-r not specified; omitting directory " ++ quoted path)
      let target := if into then below goal (Paths.lastName path) else goal
      let kind := if isDirectory then "directory" else "regular file"
      match ← Act.placeOf target true with
      | .error r => said ("cannot create " ++ kind ++ " " ++ quoted target ++ ": " ++ r.text)
      | .ok (place, there) =>
        if !isDirectory && there.isNone && endsInSlash target then
          return ← said ("cannot create regular file " ++ quoted target ++ ": Not a directory")
        if isDirectory && source.isPrefixOf place && source != place then
          return ← said ("cannot copy a directory, " ++ quoted path ++ ", into itself, " ++
            quoted target)
        if source = place then
          return ← said (quoted path ++ " and " ++ quoted target ++ " are the same file")
        match there, isDirectory with
        | some (.directory _), false =>
          said ("cannot overwrite directory " ++ quoted target ++ " with non-directory")
        | some (.directory old), true =>
          if p.has 'v' then
            (copyLines path target (some (.directory old)) t).forM Act.printLine
          Act.putAt place (overlaid preserved (some (.directory old)) t)
          return 0
        | some _, true =>
          said ("cannot overwrite non-directory " ++ quoted target ++ " with directory " ++
            quoted path)
        | there, _ =>
          if p.has 'n' && there.isSome then return 0
          if !(← agreed (p.has 'i' && there.isSome) ("overwrite " ++ quoted target ++ "?")) then
            return 1
          if p.has 'v' then (copyLines path target there t).forM Act.printLine
          match t, there with
          | .link _, some _ => Act.changeWorld fun w => w.unlink place
          | _, some (.device _) => return 0
          | _, _ => pure ()
          let made := overlaid preserved there t
          match made, there with
          | .file bytes executable, some (.file ..) =>
            Act.changeWorld fun w => w.setBytes place bytes
            Act.putAt place (.file bytes executable)
          | made, _ => Act.putAt place made
          return 0
  worst one sources

/-- Move things. -/
def mv : Program := fun args => do
  let g := Grammar.of "bfint:Tuv"
    [("force", 'f'), ("interactive", 'i'), ("no-clobber", 'n'), ("target-directory", 't'),
      ("no-target-directory", 'T'), ("verbose", 'v'), ("update", 'u')]
  let p ← options g args
  let (sources, goal, into) ← goalOf p
  let mode := p.lastOf? ['f', 'i', 'n']
  let one (path : String) : Act Nat := do
    let said (message : String) : Act Nat := do
      Act.complain message
      return 1
    match ← Act.placeOf path false with
    | .error r => said ("cannot stat " ++ quoted path ++ ": " ++ r.text)
    | .ok (_, none) => said ("cannot stat " ++ quoted path ++ ": " ++ Refusal.text .notFound)
    | .ok (source, some t) =>
      let isDirectory := match t with
        | .directory _ => true
        | _ => false
      let target := if into then below goal (Paths.lastName path) else goal
      let cannotMove (why : String) : Act Nat :=
        said ("cannot move " ++ quoted path ++ " to " ++ quoted target ++ ": " ++ why)
      if Paths.lastName path = "." || Paths.lastName path = ".." then
        return ← cannotMove "Device or resource busy"
      match ← Act.placeOf target false with
      | .error r => cannotMove r.text
      | .ok (place, there) =>
        if isDirectory && source.isPrefixOf place then
          return ← said ("cannot move " ++ quoted path ++ " to a subdirectory of itself, " ++
            quoted (if source = place && !into then below target (Paths.lastName path) else target))
        if source = place then
          return ← said (quoted path ++ " and " ++ quoted target ++ " are the same file")
        if !isDirectory && there.isNone && endsInSlash target then
          return ← cannotMove "Not a directory"
        match there, isDirectory with
        | some (.directory _), false =>
          said ("cannot overwrite directory " ++ quoted target ++ " with non-directory")
        | some (.directory (_ :: _)), true =>
          said ("cannot overwrite " ++ quoted target ++ ": Directory not empty")
        | some (.file ..), true | some (.link _), true | some (.program _), true
        | some (.device _), true =>
          said ("cannot overwrite non-directory " ++ quoted target ++ " with directory " ++
            quoted path)
        | there, _ =>
          if mode == some 'n' && there.isSome then return 0
          let asked := mode == some 'i' && there.isSome
          if !(← agreed asked ("overwrite " ++ quoted target ++ "?")) then
            return 0
          Act.changeWorld fun w => w.move source place
          if p.has 'v' then Act.printLine ("renamed " ++ quoted path ++ " -> " ++ quoted target)
          return 0
  worst one sources

end Isolation.Programs.Moving
