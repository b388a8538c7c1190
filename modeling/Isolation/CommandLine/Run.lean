import Isolation.CommandLine.Arguments
import Isolation.Config.Reading
import Isolation.Verify

/-!
# Running a command line

From an understood command line to what a run prints, how it fails and its exit status. A run finds
its configuration first, and with it the root of the repository: the directory that holds the
configuration. A check that does not pass is a failure of the run after everything was printed.
-/

namespace Isolation.CommandLine

/-- A run that has ended. -/
structure Finished where
  printed : Printed
  failure : Option Failure
deriving DecidableEq

namespace Finished

/-- The exit status of a run. -/
def exitCode (f : Finished) : Nat := if f.failure.isSome then 1 else 0

/-- A run that printed what it was to print, or failed before it printed anything. -/
def ofPrinted : Except Failure Printed → Finished
  | .ok p => ⟨p, none⟩
  | .error f => ⟨{}, some f⟩

end Finished

/-- The configuration to use, and the root of the repository: the directory of a named
    configuration, or the nearest directory that holds one. -/
def configuration (v : Files.Volume) : Option String → Except Failure (String × Config)
  | some path => do
    let c ← Config.load v path
    return (((Files.Path.parent? path).filter (· != "")).getD ".", c)
  | none => Config.discover v v.currentPath

/-- Print a verification and fail unless it passes. -/
def verified (format : Format) (report : Report) (announced : String) : Finished :=
  let out :=
    match format with
    | .text => report.text
    | .json => report.json
  let printed : Printed := ⟨out ++ "\n", announced⟩
  if report.isSuccess then
    ⟨printed ++ { err := statusLine "Finished" "all checks passed" }, none⟩
  else ⟨printed, some (.checksFailed report.failures report.verdicts.length)⟩

/-- Print a cross-check and fail unless everything agrees. A cross-check that was stopped prints
    nothing but what it has announced. -/
def crossChecked (format : Format) (p : Progress) : Finished :=
  let announced : Printed := { err := p.report.announced }
  match p.outcome with
  | .error f => ⟨announced, some f⟩
  | .ok report =>
    let out :=
      match format with
      | .text => report.text
      | .json => report.json ++ "\n"
    let disagreements := report.disagreements
    ⟨{ announced with out },
      if disagreements = 0 then none else some (.checksFailed disagreements report.total)⟩

/-- Carry out an action on a repository. Only the toolchain may change the file system. -/
def perform (launch : Launcher (StateM Files.Volume)) (root : String) (c : Config) (a : Action) :
    StateM Files.Volume Finished := do
  let v ← get
  match a with
  | .verify format =>
    match verify v root c with
    | .ok (report, announced) => return verified format report announced
    | .error f => return ⟨{}, some f⟩
  | .list => return .ofPrinted (list v root c)
  | .tree request => return .ofPrinted (tree v root c request)
  | .crossCheck request format => return crossChecked format (← crossCheck launch root c request)

/-- Carry out an invocation from the current directory. -/
def Invocation.run (launch : Launcher (StateM Files.Volume)) (i : Invocation) :
    StateM Files.Volume Finished := do
  match configuration (← get) i.config with
  | .ok (root, c) => perform launch root c i.action
  | .error f => return ⟨{}, some f⟩

/-- The name and version of the program. -/
def versionText : String := "modguard 0.2.0"

end Isolation.CommandLine
