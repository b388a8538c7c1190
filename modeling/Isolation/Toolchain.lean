import Isolation.Config
import Isolation.Consumer
import Isolation.Process
import Isolation.Scan

/-!
# Toolchains

A toolchain says what a consumer of a module really gets, whether modules build together, and
whether a module builds on its own. `Toolchain` is any such source of answers; `GoToolchain` obtains
them from the `go` command.

Import paths are identities behind the namespace of the workspace, and `listedModules` is how they
come back: **only the first word of a line counts**, so that neither versions nor the targets of
replacements are taken for modules.
-/

namespace Isolation

/-- The outcome of a build. -/
structure Build where
  success : Bool
  /-- An import was found ambiguous. -/
  ambiguous : Bool
  output : String
deriving DecidableEq, Repr

/-- What can be asked of a toolchain, in a monad that says what asking may change. -/
structure Toolchain (m : Type → Type) where
  /-- The modules other than the given one that a consumer of it gets. -/
  resolve : Identity → ExceptT Failure m NameSet
  /-- The build of a consumer that imports all members. -/
  buildBundle : Bundle → ExceptT Failure m Build
  /-- The build of a module in its own directory. -/
  buildModule : ScannedModule → ExceptT Failure m Build

/-! ## 1. Reading what the command prints -/

/-- The identity on a line of a module list: what follows the namespace in its first word. -/
def listedModule? (space : String) (line : List Char) : Option Identity :=
  match Text.words line with
  | [] => none
  | word :: _ =>
    match Text.after? space.toList word with
    | some (c :: id) => some (String.ofList (c :: id))
    | _ => none

/-- The modules of the namespace in a module list. -/
def listedModules (output space : String) : NameSet :=
  Register.ofList ((Text.lines output.toList).filterMap (listedModule? space))

/-- Whether an output complains about an ambiguous import. -/
def mentionsAmbiguity (output : String) : Bool := Text.contains output "ambiguous import"

/-! ## 2. The command -/

/-- The `go` command, or a program that stands in for it. -/
structure GoToolchain where
  program : String
  /-- The beginning of the import path of every module. -/
  space : String
  /-- The version at which consumers require every module. -/
  version : String
  env : NameMap String
deriving DecidableEq

namespace GoToolchain

/-- The toolchain of a configuration, which has to set a namespace. -/
def ofConfig (c : Config) : Except Failure GoToolchain :=
  match c.workspace.space with
  | some space => .ok ⟨c.toolchain.program, space, c.toolchain.version, c.toolchain.env⟩
  | none => .error (.config .noNamespace)

/-- The import path of a module. -/
def importPath (t : GoToolchain) (id : Identity) : String := t.space ++ id

/-- The command with some arguments, in a directory. -/
def command (t : GoToolchain) (directory : String) (args : List String) : Command :=
  ⟨t.program, args, t.env, some directory⟩

/-- The directory that consumers are written to, by its names from the root. -/
def scratch : List String := ["tmp", "modguard-scratch"]

/-- The path of the directory that consumers are written to. -/
def scratchPath : String := "/" ++ Files.slashed scratch

/-- The file system with a consumer that requires some modules, and imports them if it should. -/
def withConsumer (t : GoToolchain) (v : Files.Volume) (ids : List Identity) (imports : Bool) :
    Files.Volume :=
  let paths := ids.map t.importPath
  let file (name text : String) : String × Files.Tree := (name, .file text.toUTF8 false)
  let consumer : Files.Tree := .directory
    [file "go.mod" (Consumer.document paths t.version),
      file "main.go" (Consumer.program (if imports then paths else []))]
  { v with root := Files.Tree.put consumer scratch v.root }

variable {m : Type → Type} [Monad m]

/-- What a consumer of a module gets, the command being run by `launch` where the consumer is. -/
def resolveWith (t : GoToolchain) (launch : Launcher m) (id : Identity) :
    ExceptT Failure m NameSet := do
  let _ ← launch.execChecked (t.command scratchPath ["mod", "download"])
  let listed ← launch.execChecked (t.command scratchPath ["list", "-m", "all"])
  return (listedModules listed.combined t.space).filter fun m => m != id

/-- The build of a consumer, the command being run by `launch` where the consumer is: its
    requirements are completed, and it is built if that goes well. -/
def buildConsumerWith (t : GoToolchain) (launch : Launcher m) : ExceptT Failure m Build := do
  let tidy ← launch.exec (t.command scratchPath ["mod", "tidy"])
  if tidy.success then
    let build ← launch.exec (t.command scratchPath ["build", "./..."])
    let output := tidy.combined ++ build.combined
    return ⟨build.success, mentionsAmbiguity output, output⟩
  else return ⟨false, mentionsAmbiguity tidy.combined, tidy.combined⟩

/-- The build of a module in a directory. -/
def buildInWith (t : GoToolchain) (launch : Launcher m) (directory : String) :
    ExceptT Failure m Build := do
  let build ← launch.exec (t.command directory ["build", "./..."])
  return ⟨build.success, mentionsAmbiguity build.combined, build.combined⟩

/-- Something done where a consumer is, which is there for that long. -/
def visiting {α : Type} (t : GoToolchain) (ids : List Identity) (imports : Bool)
    (body : ExceptT Failure (StateM Files.Volume) α) : ExceptT Failure (StateM Files.Volume) α :=
  fun v =>
    let (r, v) := body.run (t.withConsumer v ids imports)
    (r, { v with root := v.root.remove scratch })

/-- The toolchain on a file system, which the command may change. -/
def toolchain (t : GoToolchain) (launch : Launcher (StateM Files.Volume)) :
    Toolchain (StateM Files.Volume) where
  resolve id := t.visiting [id] false (t.resolveWith launch id)
  buildBundle b := t.visiting b.members true (t.buildConsumerWith launch)
  buildModule m := t.buildInWith launch m.directory

end GoToolchain

end Isolation
