import Isolation.Machine.Executable
import Isolation.Register
import Isolation.Shell.Script

/-!
# Sessions

What a shell knows while it runs a script: its process, its parameters, variables, functions and
options, the status of the last command, and what is to be skipped. A shell shares its world with
the processes it starts, and has its session to itself: **a subshell is a copy of the session, of
which nothing comes back but what it did to the world**.

A step of a shell is a `Step`. It may halt the shell: by an error, which a command of the shell may
survive, by an exit, or by a signal.
-/

namespace Isolation.Shell

open Machine

/-! ## 1. Types -/

/-- A variable. -/
structure Variable where
  value : Option String := none
  exported : Bool := false
  readOnly : Bool := false
deriving DecidableEq, Repr

/-- What is skipped. -/
inductive Skip where
  /-- The rest of so many loops. -/
  | breaks (loops : Nat)
  /-- The rest of so many bodies of loops. -/
  | continues (loops : Nat)
  /-- The rest of a function or a file. -/
  | returns
deriving DecidableEq, Repr

/-- Why a shell halts. -/
inductive Halt where
  /-- An error that was complained of. -/
  | error
  | exits
  | killed (signal : Nat)
  /-- Too many steps were taken. -/
  | exhausted
deriving DecidableEq, Repr

/-- A variable as it was before it became local. -/
abbrev Saved := String × Option Variable

/-- What a shell knows and hands on to its copies. -/
structure Inherited where
  process : Process := {}
  /-- The number of the shell that no other shell of the script was started by. -/
  rootProcess : Nat := 4242
  /-- The name of the shell or of its script. -/
  name : String := "sh"
  arguments : List String := []
  bindings : NameMap Variable := Register.empty
  functions : NameMap Command := Register.empty
  aliases : List (String × String) := []
  /-- The letters of the options that are set. -/
  options : List Char := []
  status : Nat := 0
  /-- The status of the last command whose output became part of a word. -/
  outputStatus : Nat := 0
  /-- The line of the command that is run. -/
  line : Nat := 0
  /-- The name of the command of the shell that is run. -/
  command : Option String := none
  skip : Option Skip := none
  /-- The number of loops that are run. -/
  loops : Nat := 0
  /-- What is put back when functions end, the innermost first. -/
  locals : List (List Saved) := []
  /-- The actions for signals; 0 stands for the end of the shell. -/
  traps : List (Nat × String) := []
  /-- The signals that came and wait for their action. -/
  signals : List Nat := []
  /-- The status before the action that is run for a signal. -/
  statusBefore : Option Nat := none
  /-- The bodies of here-documents. -/
  documents : List (Nat × Word) := []
  nextDocument : Nat := 0
  /-- How many characters `getopts` has read of an argument. -/
  optionOffset : Option Nat := none
  /-- The last process in the background. -/
  background : Nat := 0
  /-- The current directory by the names that led to it. -/
  directory : String := "/"
  /-- Output of a command of the shell that was not let out yet. -/
  held : String := ""
  /-- The names of programs that were found, with their paths. -/
  remembered : List (String × String) := []

/-- What a job in the background does when its turn comes, or how it ended. -/
inductive JobState where
  | waiting (c : Command) (inherited : Inherited)
  | done (e : Ending)

/-- A command in the background. -/
structure Job where
  number : Nat
  process : Nat
  /-- How many commands its pipeline has. -/
  size : Nat
  state : JobState
  /-- Whether it was waited for when it had ended. -/
  waited : Bool := false

/-- What a shell knows. -/
structure Session extends Inherited where
  /-- The commands in the background, the oldest first. -/
  jobs : List Job := []

/-- A shell in its world. -/
structure Scene where
  world : World
  session : Session := {}

/-- What a shell does, unless it halts. -/
abbrev Step := ExceptT Halt (StateM Scene)

/-! ## 2. The session -/

/-- The session. -/
def session : Step Session := return (← get).session

/-- Change the session. -/
def change (f : Session → Session) : Step Unit := modify fun s => { s with session := f s.session }

/-- Change the process of the shell. -/
def changeProcess (f : Process → Process) : Step Unit :=
  change fun s => { s with process := f s.process }

/-- Note the status of a command. -/
def setStatus (status : Nat) : Step Unit := change fun s => { s with status }

/-- Whether an option is set. -/
def Session.isSet (s : Session) (letter : Char) : Bool := s.options.contains letter

/-- The opening that a descriptor leads to. -/
def Session.opening? (s : Session) (descriptor : Nat) : Option Nat :=
  s.process.descriptors.lookup descriptor

/-- Write to a descriptor; `false` if that is not possible. -/
def writeTo (descriptor : Nat) (text : String) : Step Bool := do
  let s ← get
  match s.session.opening? descriptor with
  | none => return false
  | some i =>
    match s.world.write i text with
    | .ok world =>
      set { s with world }
      return true
    | .error _ => return false

/-- What complaints begin with. -/
def Session.complaintHead (s : Session) : String :=
  s.name ++ ": " ++ toString s.line ++ ": " ++
    match s.command with
    | some c => c ++ ": "
    | none => ""

/-- Complain. -/
def warn (message : String) : Step Unit := do
  let _ ← writeTo 2 ((← session).complaintHead ++ message ++ "\n")

/-- Write to the output when the command of the shell ends. -/
def say (text : String) : Step Unit := change fun s => { s with held := s.held ++ text }

/-- Let out what a command of the shell has said. That this is not possible is complained of. -/
def letOut : Step Bool := do
  let text := (← session).held
  change fun s => { s with held := "" }
  if text = "" then return true
  else if ← writeTo 1 text then return true
  else
    warn (((← session).command.getD "") ++ ": I/O error")
    return false

/-- Complain and halt by an error. -/
def raise {α : Type} (message : String) : Step α := do
  warn message
  setStatus 2
  throw .error

/-! ## 3. Variables -/

/-- The characters that separate fields unless others are set. -/
def usualSeparators : String := " \t\n"

/-- The value of a variable. -/
def Session.value? (s : Session) (name : String) : Option String :=
  (s.bindings.get? name).bind Variable.value

/-- The characters that separate fields. -/
def Session.separators (s : Session) : String := (s.value? "IFS").getD usualSeparators

/-- Give a variable a value. -/
def assign (name value : String) (exported : Bool := false) : Step Unit := do
  let s ← session
  let old := (s.bindings.get? name).getD {}
  if old.readOnly then raise (name ++ ": is read only")
  else if name = "OPTIND" && !(value != "" && value.toList.all Char.isDigit) then
    raise ("Illegal number: " ++ value)
  else
    let exported := old.exported || exported || s.isSet 'a'
    change fun s =>
      { s with
        bindings := s.bindings.put name { old with value := some value, exported }
        remembered := if name = "PATH" then [] else s.remembered
        optionOffset := if name = "OPTIND" then none else s.optionOffset }

/-- Take a variable away. -/
def unassign (name : String) : Step Unit := do
  let s ← session
  match s.bindings.get? name with
  | none => return
  | some old =>
    if old.readOnly then raise (name ++ ": is read only")
    else if name = "OPTIND" then raise "Illegal number: "
    else change fun s => { s with bindings := s.bindings.filter fun p => p.1 != name }

/-- Keep what a variable is, to be put back when the function ends. -/
def makeLocal (name : String) : Step Unit :=
  change fun s =>
    match s.locals with
    | [] => s
    | frame :: frames =>
      if frame.any fun v => v.1 == name then s
      else { s with locals := ((name, s.bindings.get? name) :: frame) :: frames }

/-- Put back what variables were. -/
def Session.restore (s : Session) (frame : List Saved) : Session :=
  frame.foldl (fun s v =>
    let without := s.bindings.filter fun p => p.1 != v.1
    match v.2 with
    | some old => { s with bindings := NameMap.put without v.1 old }
    | none => { s with bindings := without }) s

/-- The environment of the programs that are started. -/
def Session.environment (s : Session) : List (String × String) :=
  s.bindings.toList.filterMap fun p =>
    if p.2.exported then p.2.value.map (p.1, ·) else none

/-- A text in quotes, as a shell reads it back; the quotes in it stand between double quotes. -/
def singleQuoted (s : String) : String := "'" ++ rest s.toList
where
  /-- The rest of a text behind an open quote. -/
  rest : List Char → String
    | [] => "'"
    | '\'' :: r => "'\"'" ++ between r
    | c :: r => String.singleton c ++ rest r
  /-- The rest of a text behind a quote between double quotes. -/
  between : List Char → String
    | [] => "\""
    | '\'' :: r => "'" ++ between r
    | c :: r => "\"'" ++ String.singleton c ++ rest r

/-! ## 4. Programs -/

/-- The file system as the shell sees it. -/
def volume : Step Files.Volume := do
  let s ← get
  return s.world.volumeOf s.session.process

/-- The paths at which a program may be. -/
def Session.candidates (s : Session) (name : String) : List String :=
  Machine.candidates ((s.value? "PATH").getD usualPath) name

/-- Whether something can be run. -/
def isRunnable : Files.Tree → Bool
  | .program _ | .file _ true => true
  | _ => false

/-- The path of a program, if it is among the places where programs are looked for; otherwise
    whether something that cannot be run has its name there. What is found is remembered. -/
def lookUp (name : String) : Step (Except Bool String) := do
  let v ← volume
  let things := (← session).candidates name |>.filterMap fun path =>
    match v.open? (Text.textOfOctets path) with
    | .ok t => some (path, t)
    | .error _ => none
  match things.find? fun p => isRunnable p.2 with
  | some (path, _) =>
    change fun s =>
      if s.remembered.any fun p => p.1 == name then s
      else { s with remembered := s.remembered ++ [(name, path)] }
    return .ok path
  | none => return .error !things.isEmpty

/-- The path of a script that is to be read, among the places where programs are looked for. -/
def lookUpScript (name : String) : Step (Option String) := do
  let v ← volume
  return ((← session).candidates name).find? fun path => v.isFile (Text.textOfOctets path)

end Isolation.Shell
