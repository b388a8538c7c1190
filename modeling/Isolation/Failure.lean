import Isolation.Fault
import Isolation.Files.Tree
import Isolation.Glob.Matching
import Isolation.GoMod

/-!
# Failures of a run

Why a run stops without an answer: a file cannot be read, the configuration is wrong, scanning goes
wrong, the toolchain cannot be asked, or the modules are at fault. A failure holds its causes, and
`Failure.message` words it. Its code and its advice depend on the kind of the failure alone.
-/

namespace Isolation

/-- What is wrong with the configuration, or with how it is to be found. -/
inductive ConfigProblem where
  | unreadable (path : String) (refusal : Files.Refusal)
  /-- The text is no TOML document, or the document no configuration. -/
  | malformed
  /-- No directory from `start` upwards holds a configuration. -/
  | nowhere (start : String)
  | badGlob (pattern : String) (defect : Glob.Defect)
  /-- A cross-check was asked for, but of nothing. -/
  | nothingToCheck
  /-- Module builds were asked for, but no module was scanned. -/
  | noDirectories
  /-- The toolchain was asked, but no namespace is set. -/
  | noNamespace
  | stated (text : String)
deriving DecidableEq, Repr

/-- What goes wrong while modules are looked for. -/
inductive ScanProblem where
  | unwalkable (root : String) (refusal : Files.Refusal)
  | unreadable (path : String) (refusal : Files.Refusal)
  /-- A `go.mod` document is malformed; the path is that of its file, if it has one. -/
  | malformed (path : Option String) (defect : GoMod.Defect)
  | stated (text : String)
deriving DecidableEq, Repr

/-- What goes wrong when the toolchain is asked. -/
inductive ToolchainProblem where
  /-- The command cannot be started. -/
  | notStarted (command : String) (refusal : Files.Refusal)
  /-- The command ended with a status other than 0, or by a signal. -/
  | exited (command : String) (status : Option Nat) (output : String)
  | stated (text : String)
deriving DecidableEq, Repr

/-- Why a run stops. -/
inductive Failure where
  | fault (f : Fault)
  | refused (r : Files.Refusal)
  | config (p : ConfigProblem)
  | scan (p : ScanProblem)
  | toolchain (p : ToolchainProblem)
  /-- The run was completed, and so many of its checks failed. -/
  | checksFailed (failed total : Nat)
  | stated (text : String)
deriving DecidableEq, Repr

/-- The name under which a configuration is looked for. -/
def configName : String := "Modguard.toml"

/-- The wording of a problem with the configuration. -/
def ConfigProblem.message : ConfigProblem → String
  | unreadable path refusal =>
    let reason := refusal.message
    s!"Failed to read {path}: {reason}"
  | malformed => "Failed to parse " ++ configName
  | nowhere start => s!"Could not find {configName} in {start} or any parent directory"
  | badGlob pattern defect =>
    let reason := defect.message
    s!"Invalid glob pattern '{pattern}': error parsing glob '{pattern}': {reason}"
  | nothingToCheck => "Nothing to cross-check: name a module or declare [bounds]"
  | noDirectories => "Module builds need [workspace].include to locate module directories"
  | noNamespace => "[workspace].namespace is required to run the build oracle"
  | stated text => text

/-- The wording of a failure. -/
def Failure.message : Failure → String
  | fault f => f.message
  | refused r => "I/O error: " ++ r.message
  | config p => "Configuration error: " ++ p.message
  | scan (.unwalkable root refusal) =>
    let reason := refusal.message
    s!"Module scan failed: Failed to walk {root}: {reason}"
  | scan (.unreadable path refusal) =>
    let reason := refusal.message
    s!"Module scan failed: Failed to read {path}: {reason}"
  | scan (.malformed none defect) => "Module scan failed: " ++ defect.message
  | scan (.malformed (some path) defect) =>
    s!"Module scan failed: {path}: Module scan failed: " ++ defect.message
  | scan (.stated text) => "Module scan failed: " ++ text
  | toolchain (.notStarted command refusal) =>
    let reason := refusal.message
    s!"Build oracle failed: Failed to spawn `{command}`: {reason}"
  | toolchain (.exited command status output) =>
    let code :=
      match status with
      | some n => toString n
      | none => "signal"
    let output := Text.trimmedEnd output
    s!"Build oracle failed: `{command}` exited with {code}\n{output}"
  | toolchain (.stated text) => "Build oracle failed: " ++ text
  | checksFailed failed total =>
    s!"Verification failed: {failed} of {total} checks did not pass"
  | stated text => text

/-- The stable code under which a failure is reported, if it has one. -/
def Failure.code? : Failure → Option String
  | fault f => some f.code
  | refused _ => none
  | config _ => some "modguard::config"
  | scan _ => some "modguard::scan"
  | toolchain _ => some "modguard::oracle"
  | checksFailed .. => some "modguard::verify"
  | stated _ => none

/-- Advice on how to mend a failure. -/
def Failure.help? : Failure → Option String
  | fault f => f.help?
  | config _ => some "Check Modguard.toml for syntax errors or pass --config explicitly"
  | _ => none

/-- A fault of the modules, as the failure of a run. -/
def orFault {α : Type} : Except Fault α → Except Failure α
  | .ok a => .ok a
  | .error f => .error (.fault f)

/-- The patterns of some texts, or the failure of reading the first that is none. -/
def patterns (texts : List String) : Except Failure (List Glob.Pattern) :=
  match Glob.parseAll texts with
  | .ok ps => .ok ps
  | .error (text, defect) => .error (.config (.badGlob text defect))

end Isolation
