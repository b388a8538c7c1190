import Isolation.Config
import Isolation.Failure
import Isolation.Files.Search

/-!
# Scanning a repository

Modules are found by their `go.mod` files. A requirement is internal when its path lies in the
namespace of the workspace or, where none is set, when its path is that of a scanned module; only
internal requirements become dependencies. Identities are module paths without the namespace.
-/

namespace Isolation

/-- One internal requirement of a scanned module. -/
structure ScannedRequirement where
  id : Identity
  version : Version
  /-- It is needed by a dependency and not imported directly. -/
  indirect : Bool
deriving DecidableEq, Repr

/-- A module as it was found, before validation. -/
structure ScannedModule where
  id : Identity
  /-- The directory that holds its `go.mod` file. -/
  directory : String
  /-- Its internal requirements, in the order of the file. -/
  requires : List ScannedRequirement
deriving DecidableEq, Repr

namespace ScannedModule

/-- The identities that a scanned module requires, in order and with repetitions. -/
def dependencyIds (m : ScannedModule) : List Identity := m.requires.map ScannedRequirement.id

end ScannedModule

namespace Scan

/-- A module path without the namespace, if it lies in it. -/
def identityOf (space : Option String) (path : String) : Identity :=
  match space with
  | some start => (Text.afterStart? start path).getD path
  | none => path

/-- Whether a required path is internal, given the paths of the scanned modules. -/
def isInternal (space : Option String) (known : List String) (path : String) : Bool :=
  match space with
  | some start => Text.startsWith path start
  | none => known.contains path

/-- The scanned module of a document in a directory. -/
def moduleOf (space : Option String) (known : List String) (directory : String) (doc : GoMod) :
    ScannedModule :=
  { id := identityOf space doc.modulePath
    directory
    requires := (doc.requires.filter fun r => isInternal space known r.path).map fun r =>
      ⟨identityOf space r.path, Version.ofText r.version, r.indirect⟩ }

/-- The scanned modules of some documents, each with its directory. -/
def modulesOf (space : Option String) (docs : List (String × GoMod)) : List ScannedModule :=
  docs.map fun d => moduleOf space (docs.map fun d => d.2.modulePath) d.1 d.2

/-- The document in a file. -/
def readDocument (v : Files.Volume) (path : String) : Except Failure GoMod :=
  match v.readText path with
  | .error r => .error (.scan (.unreadable path r))
  | .ok text =>
    match GoMod.parse text with
    | .ok doc => .ok doc
    | .error d => .error (.scan (.malformed (some path) d))

/-- The selection that patterns for directories and files make. -/
def selection (include? exclude : List Glob.Pattern) : Files.Selection where
  include? := if include?.isEmpty then none else some (Glob.anyMatches include?)
  exclude := Glob.anyMatches exclude

/-- The documents below a directory, each with the directory that holds it. -/
def documents (v : Files.Volume) (root : String) (found : List (List String)) :
    Except Failure (List (String × GoMod)) :=
  found.mapM fun names => do
    let path := Files.Path.join root (Files.slashed names)
    let doc ← readDocument v path
    return ((Files.Path.parent? path).getD root, doc)

end Scan

/-- The modules found below a directory; none when scanning is disabled. -/
def scan (v : Files.Volume) (root : String) (c : Config) : Except Failure (List ScannedModule) :=
  if !c.scans then .ok []
  else do
    let include? ← patterns c.workspace.included
    let exclude ← patterns c.workspace.excluded
    match v.findFiles root "go.mod" (Scan.selection include? exclude) with
    | .error r => .error (.scan (.unwalkable root r))
    | .ok found =>
      let docs ← Scan.documents v root found
      return Scan.modulesOf c.workspace.space docs

end Isolation
