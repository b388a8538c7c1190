import Isolation.Failure
import Isolation.Register
import Isolation.Text.Utf8

/-!
# Processes

Commands to be run to completion, and how they end. Who runs them is left open: a `Launcher` says
how a command ends or why it cannot be started, in any monad, so that running a command may change
what the next one finds. The output of a process is its output stream followed by its error stream,
each read as text by itself.
-/

namespace Isolation

/-- A program with arguments. -/
structure Command where
  program : String
  args : List String := []
  /-- Variables set on top of the inherited environment. -/
  env : NameMap String := Register.empty
  /-- The directory to run in; the current one when absent. -/
  directory : Option String := none

/-- A command as it is shown. -/
def Command.display (c : Command) : String := Text.joined " " (c.program :: c.args)

/-- How a process ended. -/
structure Ended where
  /-- The exit status; none when a signal ended the process. -/
  status : Option Nat
  out : List UInt8 := []
  err : List UInt8 := []

namespace Ended

/-- Whether the process ended well. -/
def success (e : Ended) : Bool := e.status == some 0

/-- What the process wrote. -/
def combined (e : Ended) : String := Text.readBytes e.out ++ Text.readBytes e.err

end Ended

/-- What runs commands. -/
abbrev Launcher (m : Type → Type) := Command → m (Except Files.Refusal Ended)

/-- Run a command; only a command that cannot be started is a failure. -/
def Launcher.exec {m : Type → Type} [Monad m] (launch : Launcher m) (c : Command) :
    ExceptT Failure m Ended := do
  match ← launch c with
  | .ok e => return e
  | .error r => throw (.toolchain (.notStarted c.display r))

/-- Run a command that has to end well. -/
def Launcher.execChecked {m : Type → Type} [Monad m] (launch : Launcher m) (c : Command) :
    ExceptT Failure m Ended := do
  let e ← launch.exec c
  if e.success then return e
  else throw (.toolchain (.exited c.display e.status e.combined))

end Isolation
