import Isolation.Machine.World

/-!
# What a process does

A process has a current directory, descriptors and an environment, and acts on the world it shares
with others. An `Act` is what a program does up to its end: it may end early (`quit`). Paths, names
and texts are byte texts here; the file system is asked with the texts that they encode.

What is printed goes out at once. A program that collects its output uses `hold`, and what it holds
goes out when it ends, or at `flush`.
-/

namespace Isolation.Machine

open Files (Refusal Tree Volume Device)

/-- A process. -/
structure Process where
  id : Nat := 4242
  parent : Nat := 4241
  /-- The current directory, by its names from the root. -/
  current : List String := []
  /-- The openings that descriptors lead to. -/
  descriptors : List (Nat × Nat) := []
  environment : List (String × String) := []
  umask : Nat := 18
  /-- The numbers of the signals that mean nothing to the process. -/
  ignored : List Nat := []

/-- How a process ends. -/
inductive Ending where
  | exited (status : Nat)
  | killed (signal : Nat)
deriving DecidableEq, Repr

/-- The status under which the end of a process is known to the shell that started it. -/
def Ending.status : Ending → Nat
  | exited status => status
  | killed signal => 128 + signal

/-- A process with the world around it. -/
structure Bench where
  world : World
  process : Process
  /-- The name under which the program complains. -/
  name : String := ""
  /-- Output that was not let out yet. -/
  held : String := ""
  /-- Why output was lost. -/
  lost : Option Refusal := none

/-- What a program does, unless it ends early. -/
abbrev Act := ExceptT Ending (StateM Bench)

/-- How a file is opened. -/
structure Mode where
  reads : Bool := false
  writes : Bool := false
  /-- A file that is not there is made. -/
  creates : Bool := false
  empties : Bool := false
  appends : Bool := false
  /-- A file that is there is refused. -/
  anew : Bool := false

/-! ## 1. Opening -/

/-- The file system as a process sees it. -/
def World.volumeOf (w : World) (p : Process) : Volume := ⟨w.root, p.current⟩

/-- Open the file of a path. -/
def World.openFile (w : World) (p : Process) (path : String) (m : Mode) :
    Except Refusal (Nat × World) :=
  let name := Text.textOfOctets path
  let add (target : Target) (w : World) : Except Refusal (Nat × World) :=
    .ok (w.addOpening
      { target, reads := m.reads, writes := m.writes, appends := m.appends })
  match (w.volumeOf p).placeOf name with
  | .error r => .error r
  | .ok (place, none) =>
    if !m.creates then .error .notFound
    else if name.toList.getLast? == some '/' then .error .isDirectory
    else add (.file place) (w.setBytes place .empty)
  | .ok (place, some t) =>
    match t with
    | .directory _ => if m.writes then .error .isDirectory else add (.directory place) w
    | .device (.descriptor n) =>
      match p.descriptors.lookup n with
      | some i => .ok (i, w)
      | none => .error .notFound
    | .device d => add (.device d) w
    | .program _ => if m.writes then .error (.stated "Text file busy") else add (.nameless .empty) w
    | .file .. =>
      if m.anew then .error .alreadyThere
      else add (.file place) (if m.empties then w.setBytes place .empty else w)
    | .link _ => .error .linkLoop

namespace Act

/-! ## 2. Output -/

/-- The process. -/
def process : Act Process := return (← get).process

/-- Change the world. -/
def changeWorld (f : World → World) : Act Unit := modify fun b => { b with world := f b.world }

/-- End with a status. -/
def quit {α : Type} (status : Nat) : Act α := throw (.exited status)

/-- Write to a descriptor. -/
def write (descriptor : Nat) (text : String) : Act (Except Refusal Unit) := do
  let b ← get
  match b.process.descriptors.lookup descriptor with
  | none => return .error .badDescriptor
  | some i =>
    match b.world.write i text with
    | .ok world =>
      set { b with world }
      return .ok ()
    | .error r => return .error r

/-- Write to the output. That nothing could be written is noted. -/
def print (text : String) : Act Unit := do
  if text = "" then return
  match ← write 1 text with
  | .ok () => return
  | .error r => modify fun b => { b with lost := b.lost.or (some r) }

/-- Write a line to the output. -/
def printLine (text : String) : Act Unit := print (text ++ "\n")

/-- Write to the output when the program ends. -/
def hold (text : String) : Act Unit := modify fun b => { b with held := b.held ++ text }

/-- Let out what is held. -/
def flush : Act Unit := do
  let b ← get
  set { b with held := "" }
  print b.held

/-- Write to the error output. -/
def printError (text : String) : Act Unit := do
  let _ ← write 2 text

/-- Complain in a line that begins with the name of the program. -/
def complain (message : String) : Act Unit := do
  printError ((← get).name ++ ": " ++ message ++ "\n")

/-- Complain and end. -/
def fail {α : Type} (status : Nat) (message : String) : Act α := do
  complain message
  quit status

/-- Complain about a path, with the reason for a refusal. -/
def complainOf (path : String) (r : Refusal) : Act Unit := complain (path ++ ": " ++ r.text)

/-! ## 3. Input and files -/

/-- The file system as the process sees it. -/
def volume : Act Volume := do
  let b ← get
  return b.world.volumeOf b.process

/-- Read from a descriptor as much as `split` takes. -/
def readWith (descriptor : Nat) (split : List Char → List Char × List Char) :
    Act (Except Refusal String) := do
  let b ← get
  match b.process.descriptors.lookup descriptor with
  | none => return .error .badDescriptor
  | some i =>
    match b.world.readWith i split with
    | .ok (text, world) =>
      set { b with world }
      return .ok text
    | .error r => return .error r

/-- Everything that is left of the input. -/
def input : Act (Except Refusal String) := readWith 0 fun cs => (cs, [])

/-- What a descriptor leads to. -/
def targetOf? (descriptor : Nat) : Act (Option Target) := do
  let b ← get
  return (b.process.descriptors.lookup descriptor).bind b.world.opening? |>.map Opening.target

/-- As much of the input as `split` takes. What is left stays to be read if the input is a file; of
    a channel nothing is left. -/
def inputUpTo (split : List Char → List Char × List Char) : Act (Except Refusal String) := do
  match ← targetOf? 0 with
  | some (.channel _) => return (← input).map fun text => String.ofList (split text.toList).1
  | _ => readWith 0 split

/-- Give the last characters of the input back, if it is a file. -/
def giveBackInput (n : Nat) : Act Unit := do
  match (← process).descriptors.lookup 0 with
  | none => return
  | some i =>
    changeWorld fun w =>
      match w.opening? i with
      | some o =>
        match o.target with
        | .file _ | .nameless _ =>
          { w with openings := w.openings.setIfInBounds i { o with offset := o.offset - n } }
        | _ => w
      | none => w

/-- The text of a file. -/
def readFile (path : String) : Act (Except Refusal String) := do
  let b ← get
  match b.world.openFile b.process path { reads := true } with
  | .error r => return .error r
  | .ok (i, world) =>
    match world.readAll i with
    | .ok (text, world) =>
      set { b with world }
      return .ok text
    | .error r => return .error r

/-- The text of an operand: a file, or the input for a dash. -/
def readOperand (path : String) : Act (Except Refusal String) :=
  if path = "-" then input else readFile path

/-- Make a file hold a text. -/
def writeFile (path text : String) (appends : Bool := false) : Act (Except Refusal Unit) := do
  let b ← get
  let mode : Mode := { writes := true, creates := true, empties := !appends, appends }
  match b.world.openFile b.process path mode with
  | .error r => return .error r
  | .ok (i, world) =>
    match world.write i text with
    | .ok world =>
      set { b with world }
      return .ok ()
    | .error r => return .error r

/-- Where the thing that a path names is or would be, and what is there. -/
def placeOf (path : String) (followed : Bool) :
    Act (Except Refusal (List String × Option Tree)) :=
  return (← volume).placeOf (Text.textOfOctets path) followed

/-- What a path leads to, if it leads to anything. -/
def find? (path : String) (followed : Bool) : Act (Except Refusal Tree) := do
  match ← placeOf path followed with
  | .ok (_, some t) => return .ok t
  | .ok (_, none) => return .error .notFound
  | .error r => return .error r

/-- Put something at a place. -/
def putAt (place : List String) (t : Tree) : Act Unit :=
  changeWorld fun w => { w with root := Tree.put t place w.root }

/-- The value of a variable of the environment. -/
def valueOf? (name : String) : Act (Option String) := return (← process).environment.lookup name

end Act

/-- A program: what it does with its arguments, up to its status. -/
abbrev Program := List String → Act Nat

/-- What starts another program and waits for its end: it is given a name and arguments. -/
abbrev Spawn := List String → Act (Except Refusal Ending)

/-- How a program ends that is run to its end, and the world that it leaves. That output was lost is
    complained of. -/
def Program.run (p : Program) (name : String) (args : List String) (b : Bench) : Ending × World :=
  let body : Act Nat := p args
  let start : Bench := { b with name, held := "", lost := none }
  let (ended, b) := body.run.run start
  let ending := match ended with
    | .ok status => .exited status
    | .error ending => ending
  let closing : Act Ending := do
    Act.flush
    match (← get).lost with
    | none => return ending
    | some r =>
      Act.complain ("write error: " ++ r.text)
      return if ending = .exited 0 then .exited 1 else ending
  match closing.run.run b with
  | (.ok ending, b) => (ending, b.world)
  | (.error ending, b) => (ending, b.world)

end Isolation.Machine
