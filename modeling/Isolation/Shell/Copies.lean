import Isolation.Machine.Signal
import Isolation.Shell.Expansion

/-!
# Copies of shells, and redirections

What a shell does around its commands: it takes the signals that were sent to it, it makes copies of
itself that become processes of their own, and it changes what its descriptors lead to for as long
as a command runs.
-/

namespace Isolation.Shell

open Machine

/-! ## 1. Signals and processes -/

/-- Take the signals that were sent to the shell: they are noted for their actions, or kill it. -/
def receive : Step Unit := do
  let s ← get
  let id := s.session.process.id
  match s.world.signals.filter fun p => p.1 == id with
  | [] => return
  | mine =>
    set { s with world := { s.world with signals := s.world.signals.filter fun p => p.1 != id } }
    (mine.map Prod.snd).forM fun signal => do
      let s ← session
      if signal = Signal.kill then throw (.killed signal)
      else
        match s.traps.lookup signal with
        | some action =>
          if action != "" && !s.signals.contains signal then
            change fun s => { s with signals := s.signals ++ [signal] }
        | none =>
          if s.process.ignored.contains signal || Signal.harmless.contains signal then return
          else throw (.killed signal)

/-- Say that a process was killed, unless that is usual. -/
def sayKilled : Ending → Step Unit
  | .killed n =>
    if n = 2 || n = Signal.pipe then return
    else do
      let _ ← writeTo 2 (Signal.description n ++ "\n")
  | .exited _ => return

/-- A number for a new process. -/
def newProcess : Step Nat := do
  let s ← get
  let id := s.world.nextProcess
  set { s with world := { s.world with nextProcess := id + 1, running := id :: s.world.running } }
  return id

/-- Note that a process has ended. -/
def endProcess (id : Nat) : Step Unit :=
  modify fun s =>
    { s with world := { s.world with
      running := s.world.running.filter (· != id)
      signals := s.world.signals.filter fun p => p.1 != id } }

/-- How a copy of a shell ends that halts, or does not. -/
def endingOf (status : Nat) : Except Halt Unit → Ending
  | .error (.killed n) => .killed n
  | .error .exhausted => .killed Signal.pipe
  | _ => .exited status

/-- A session as its copy begins, under the number of a new process. -/
def Session.copied (s : Session) (id : Nat) : Session :=
  { s with
    process := { s.process with
      id
      parent := s.process.id
      ignored := (s.traps.filter fun t => t.2 == "" && t.1 != 0).map Prod.fst ++ s.process.ignored }
    traps := []
    signals := []
    held := ""
    jobs := [] }

/-- Do something in a copy of the shell, and something at its end; the session stays as it was. -/
def inCopy (id : Nat) (start : Session) (body atEnd : Step Unit) : Step Ending := do
  let before ← session
  change fun _ => start
  let halted ← (fun s => do
    let (r, s) ← body.run s
    return (.ok r, s) : Step (Except Halt Unit))
  let ending ←
    match halted with
    | .error (.killed n) => pure (.killed n)
    | .error .exhausted => pure (.killed Signal.pipe)
    | _ => do
      let closed ← (fun s => do
        let (r, s) ← atEnd.run s
        return (.ok r, s) : Step (Except Halt Unit))
      pure (endingOf (← session).status closed)
  change fun _ => before
  endProcess id
  return ending

/-! ## 2. Redirections -/

/-- The reason for a refusal, as it is given for files that are opened. -/
def openingReason (r : Files.Refusal) : String :=
  if r = .notFound || r = .notDirectory then "No such file" else r.text

/-- The reason for a refusal, as it is given for files that are made. -/
def makingReason (r : Files.Refusal) : String :=
  if r = .notFound || r = .notDirectory then "Directory nonexistent" else r.text

/-- Make a descriptor lead to an opening, or to none. -/
def setDescriptor (descriptor : Nat) (opening : Option Nat) : Step Unit :=
  changeProcess fun p =>
    let others := p.descriptors.filter fun d => d.1 != descriptor
    { p with descriptors := match opening with
      | some i => (descriptor, i) :: others
      | none => others }

/-- Open a file for a descriptor. -/
def openFor (descriptor : Nat) (path : String) (m : Mode) (complaint : Files.Refusal → String) :
    Step Unit := do
  let s ← get
  match s.world.openFile s.session.process path m with
  | .ok (i, world) =>
    set { s with world }
    setDescriptor descriptor (some i)
  | .error r => raise (complaint r)

/-- Complain that a file cannot be made. -/
def cannotMake (path : String) (r : Files.Refusal) : String :=
  "cannot create " ++ path ++ ": " ++ makingReason r

/-- Complain that a file cannot be opened. -/
def cannotOpen (path : String) (r : Files.Refusal) : String :=
  "cannot open " ++ path ++ ": " ++ openingReason r

/-- Make a descriptor what another is. -/
def duplicate (descriptor : Nat) (source : String) : Step Unit := do
  if source = "-" then setDescriptor descriptor none
  else
    match source.toList with
    | [c] =>
      if c.isDigit then
        match (← session).opening? (c.toNat - '0'.toNat) with
        | some i => setDescriptor descriptor (some i)
        | none => raise (source ++ ": Bad file descriptor")
      else raise "Syntax error: Bad fd number"
    | _ => raise "Syntax error: Bad fd number"

/-- A text that can be read from a descriptor. -/
def offer (descriptor : Nat) (text : String) : Step Unit := do
  let s ← get
  let ((r, w), world) := s.world.addChannel
  match world.write w text with
  | .ok world =>
    set { s with world }
    setDescriptor descriptor (some r)
  | .error _ => return

/-- A redirection whose word was expanded. -/
inductive Redirected where
  | file (descriptor : Nat) (path : String) (m : Mode) (making : Bool)
  | same (descriptor : Nat) (source : String)
  /-- A here-document, whose body is expanded only when the redirection is carried out. -/
  | document (descriptor : Nat) (body : Word)

/-- The descriptor of a redirection. -/
def Redirected.descriptor : Redirected → Nat
  | file d _ _ _ | same d _ | document d _ => d

/-- Expand the word of a redirection. -/
def expandRedirection (sub : Substitute) : Redirection → Step Redirected
  | .read d w => do return .file d (← expandText sub w) { reads := true } false
  | .write d w => do
    let path ← expandText sub w
    let strict := (← session).isSet 'C'
    return .file d path { writes := true, creates := true, empties := !strict, anew := strict } true
  | .overwrite d w => do
    return .file d (← expandText sub w) { writes := true, creates := true, empties := true } true
  | .append d w => do
    return .file d (← expandText sub w) { writes := true, creates := true, appends := true } true
  | .readWrite d w => do
    return .file d (← expandText sub w) { reads := true, writes := true, creates := true } true
  | .duplicate d w => do return .same d (← expandText sub w)
  | .document d number => do
    return .document d (((← session).documents.lookup number).getD [])

/-- Carry out a redirection. -/
def carryOut (sub : Substitute) : Redirected → Step Unit
  | .file d path m making =>
    openFor d path m (if making then cannotMake path else cannotOpen path)
  | .same d source => duplicate d source
  | .document d body => do offer d (← expandDocument sub body)

/-- Carry out redirections one after another. -/
def carryOutAll (sub : Substitute) : List Redirected → Step Unit
  | [] => return
  | r :: rs => do
    carryOut sub r
    carryOutAll sub rs

/-- What descriptors led to. -/
def openingsOf (ds : List Nat) : Step (List (Nat × Option Nat)) := do
  let s ← session
  return ds.map fun d => (d, s.opening? d)

/-- Make descriptors lead to what they led to. -/
def putBack : List (Nat × Option Nat) → Step Unit
  | [] => return
  | (d, i) :: rest => do
    putBack rest
    setDescriptor d i

/-- Carry out redirections; `false` if one cannot be carried out. -/
def carriedOut (sub : Substitute) (rs : List Redirected) : Step Bool := do
  try
    carryOutAll sub rs
    return true
  catch
    | .error => return false
    | h => throw h

end Isolation.Shell
