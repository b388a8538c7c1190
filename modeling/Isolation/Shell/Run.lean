import Isolation.Programs.Catalogue
import Isolation.Shell.Copies
import Isolation.Shell.Start

/-!
# Running scripts

What a shell does with the commands of a script, and what a system does with the programs that are
named in it. Processes run one after another: the commands of a pipeline from left to right, and
commands in the background when they are waited for, or at the end.

Commands stand in commands, and programs start programs: everything here is said for a given
`Runner` that runs what stands inside, and `runner` puts this together to any depth. `Purpose` says
what a command is run for: **an error of a command whose status is tested does not end the shell**,
and the last command of a process may take its place.
-/

namespace Isolation.Shell

open Machine

/-! ## 1. Runners -/

/-- What a command is run for. -/
structure Purpose where
  /-- Whether its status is tested. -/
  tested : Bool := false
  /-- Whether the shell ends with it. -/
  last : Bool := false

/-- What runs the commands in a command, and the programs that a program starts. -/
structure Runner where
  tree : Command → Purpose → Step Unit
  /-- What a shell does at its end. -/
  close : Step Unit
  /-- Start a program in a process: the first of some paths that can be run. -/
  begin : List String → String → List String → Bench → Except Files.Refusal (Ending × World)

/-- How many rounds a loop may have. -/
def roundLimit : Nat := 100000

/-! ## 2. Words of simple commands -/

/-- The commands of the shell whose arguments may assign. -/
def assigning : List String := ["export", "readonly", "local"]

/-- Expand the words of a simple command. -/
def expandWords (sub : Substitute) : (assigns : Option Bool) → List Word → Step (List String)
  | _, [] => return []
  | assigns, w :: ws => do
    let fields ←
      match assigns, w.assignment? with
      | some true, some _ => do pure [← expandValue sub w]
      | _, _ => expandFields sub w
    let assigns := match assigns, fields with
      | none, "command" :: _ => none
      | none, name :: _ => some (assigning.contains name)
      | a, _ => a
    return fields ++ (← expandWords sub assigns ws)

/-- Expand assignments and carry them out one after another; where `asLocal` is set, the variables
    are put back later. -/
def assignWords (sub : Substitute) (asLocal : Bool) : List Word → Step (List String)
  | [] => return []
  | w :: ws => do
    match w.assignment? with
    | none => assignWords sub asLocal ws
    | some (name, value) =>
      let value ← expandValue sub value
      if asLocal then
        makeLocal name
        assign name value true
      else assign name value
      return (name ++ "=" ++ value) :: (← assignWords sub asLocal ws)

/-- Show a command before it is run, if that is asked for. -/
def trace (words : List String) : Step Unit := do
  let s ← session
  if s.isSet 'x' then
    let lead := (s.value? "PS4").getD "+ "
    let _ ← writeTo 2 (lead ++ Text.joined " " words ++ "\n")

/-- Do something with a frame of its own for local variables. -/
def framed {α : Type} (body : Step α) : Step α := do
  change fun s => { s with locals := [] :: s.locals }
  let r ← body
  change fun s =>
    match s.locals with
    | [] => s
    | frame :: frames =>
      let options := (frame.find? fun v => v.1 == "-").bind fun v => v.2.bind Variable.value
      let s := { s with locals := frames, options := (options.map String.toList).getD s.options }
      s.restore (frame.filter fun v => v.1 != "-")
  return r

/-! ## 3. Loops -/

/-- What is left to skip behind the body of a loop, and whether the loop goes on. -/
def afterBody : Step Bool := do
  match (← session).skip with
  | none => return true
  | some .returns => return false
  | some (.breaks n) =>
    change fun s => { s with skip := if n ≤ 1 then none else some (.breaks (n - 1)) }
    return false
  | some (.continues n) =>
    if n ≤ 1 then
      change fun s => { s with skip := none }
      return true
    else
      change fun s => { s with skip := some (.continues (n - 1)) }
      return false

/-- Do something as a loop. -/
def looping (body : Step Unit) : Step Unit := do
  change fun s => { s with loops := s.loops + 1 }
  body
  change fun s => { s with loops := s.loops - 1 }

/-! ## 4. Scripts -/

/-- Run the commands of a source, and give back the status of the last; the number bounds how many
    there are. -/
def commands (r : Runner) (last : Bool) : Nat → Reading.Source → Nat → Step Nat
  | 0, _, status => return status
  | n + 1, source, status => do
    let s ← session
    let source := { source with
      aliases := s.aliases
      documents := s.documents
      nextDocument := s.nextDocument }
    match Reading.completeCommand.run source with
    | .error complaint =>
      change fun s => { s with line := complaint.line }
      raise complaint.message
    | .ok (none, _) => return status
    | .ok (some c, source) =>
      change fun s =>
        { s with documents := source.documents, nextDocument := source.nextDocument }
      let ended := match source.held with
        | some .endOfText => true
        | _ => false
      match c with
      | .sequence [] => commands r last n source status
      | c =>
        r.tree c { last := last && ended }
        let status := (← session).status
        if (← session).skip.isSome then return status
        else commands r last n source status

/-- Run the commands of a text, and give back the status of the last. -/
def script (r : Runner) (text : String) (last : Bool := false) : Step Nat :=
  commands r last (text.length + 2) { rest := text.toList } 0

/-- Run the actions for the signals that came, so many at most. -/
def attendTo (r : Runner) : Nat → Step Unit
  | 0 => return
  | n + 1 => do
    receive
    match (← session).signals with
    | [] => return
    | signal :: signals =>
      change fun s => { s with signals }
      match (← session).traps.lookup signal with
      | none => attendTo r n
      | some action =>
        let before ← session
        let status := before.statusBefore.getD before.status
        change fun s => { s with statusBefore := some status }
        let _ ← script r action
        change fun s => { s with statusBefore := before.statusBefore }
        if (← session).skip != some .returns then setStatus status
        attendTo r n

/-- Run the actions for the signals that came. -/
def attend (r : Runner) : Step Unit := attendTo r 64

/-- Run a command in the background to its end. -/
def runJob (r : Runner) (j : Job) : Step Job := do
  match j.state with
  | .done _ => return j
  | .waiting c inherited =>
    let sent := ((← get).world.signals.filter fun p => p.1 == j.process).map Prod.snd
    match sent.find? fun signal => !Signal.harmless.contains signal with
    | some signal =>
      endProcess j.process
      return { j with state := .done (.killed signal) }
    | none =>
      let session : Session := { toInherited := inherited }
      let body : Step Unit := do
        let s ← get
        let (i, world) := s.world.addOpening { target := .device .null, reads := true }
        set { s with world }
        setDescriptor 0 (some i)
        r.tree c { last := true }
      let ending ← inCopy j.process (session.copied j.process) body r.close
      return { j with state := .done ending }

/-- Run all commands that wait in the background. -/
def runJobs (r : Runner) : Step Unit := do
  (← session).jobs.forM fun j => do
    let done ← runJob r j
    change fun s =>
      { s with jobs := s.jobs.map fun k => if k.process = j.process then done else k }

/-- What a shell does at its end: the action for it, and what is left in the background. -/
def close (r : Runner) : Step Unit := do
  let s ← session
  match s.traps.lookup 0 with
  | some action =>
    change fun s =>
      { s with
        traps := s.traps.filter fun t => t.1 != 0
        skip := none
        statusBefore := some s.status }
    try
      let _ ← script r action
      setStatus s.status
    catch
      | .exits | .error => pure ()
      | h => throw h
  | none => pure ()
  let status := (← session).status
  runJobs r
  setStatus status

/-- What a command writes, without the line ends behind it. -/
def substitute (r : Runner) (c : Command) : Step String := do
  freeNumber
  let id ← newProcess
  let s ← get
  let ((i, o), world) := s.world.addChannel
  set { s with world }
  let body : Step Unit := do
    setDescriptor 1 (some o)
    r.tree c { last := true }
  let ending ← inCopy id (s.session.copied id) body r.close
  sayKilled ending
  change fun s => { s with outputStatus := ending.status }
  let s ← get
  let (text, world) := s.world.drain i
  set { s with world }
  let cs := (text.toList.filter (· != Char.ofNat 0)).reverse.dropWhile (· == '\n')
  return String.ofList cs.reverse

/-! ## 5. Programs -/

/-- Start a program for the shell, in some process. -/
def start (r : Runner) (process : Process) (name : String) (args : List String) :
    Step (Except Files.Refusal Ending) := do
  let s ← get
  let process := { process with environment := s.session.environment }
  match r.begin (s.session.candidates name) name args { world := s.world, process } with
  | .ok (ending, world) =>
    set { s with world }
    return .ok ending
  | .error e => return .error e

/-- Whether a refusal says that there is nothing to run. -/
def isMissing (e : Files.Refusal) : Bool := e = .notFound || e = .notDirectory

/-- The reason for a refusal, as it is given for programs. -/
def runningReason (e : Files.Refusal) : String := if isMissing e then "not found" else e.text

/-- The status for a program that cannot be run. -/
def refusedStatus (e : Files.Refusal) : Nat :=
  if isMissing e || e = .linkLoop || e = .nameTooLong then 127 else 126

/-- Run a program and wait for its end. -/
def external (r : Runner) (name : String) (args : List String) (m : Purpose) : Step Nat := do
  let s ← session
  let found ← if name.toList.contains '/' then pure (.ok name) else lookUp name
  match found with
  | .error isThere =>
    warn (name ++ ": " ++ if isThere then Files.Refusal.notPermitted.text else "not found")
    return 127
  | .ok _ =>
    if name = "sleep" && args != ["0"] then runJobs r
    let replaces := m.last && s.traps.isEmpty && !s.jobs.any Job.isWaiting
    if !replaces then freeNumber
    let id ← if replaces then pure s.process.id else newProcess
    let ended ← start r (if replaces then s.process else (s.copied id).process) name args
    if !replaces then endProcess id
    match ended with
    | .ok (.killed signal) =>
      if replaces then throw (.killed signal)
      else
        sayKilled (.killed signal)
        return 128 + signal
    | .ok (.exited status) => return status
    | .error e =>
      warn (name ++ ": " ++ runningReason e)
      return refusedStatus e

/-- Let a program take the place of the shell, or keep the redirections if none is named. -/
def execute (r : Runner) (args : List String) : Step (Nat × Bool) := do
  match args with
  | [] => return (0, true)
  | name :: args =>
    match ← start r (← session).process name args with
    | .ok (.exited status) =>
      change fun s => { s with traps := [], status }
      throw .exits
    | .ok (.killed signal) => throw (.killed signal)
    | .error e =>
      warn (name ++ ": " ++ runningReason e)
      setStatus (refusedStatus e)
      throw .exits

/-! ## 6. Simple commands -/

/-- Wait for the ends of processes; the status of the last comes back. -/
def waitEach : List String → Nat → Step Nat
  | [], status => return status
  | a :: as, _ => do
    let job ←
      if Text.startsWith a "%" then pure (some (← jobOf (some a)))
      else do
        let id ← numberOf a
        pure ((← session).jobs.find? fun j => j.process == id)
    match job with
    | none => waitEach as 127
    | some j =>
      let ending := match j.state with
        | .done e => e
        | .waiting .. => .exited 0
      if !j.waited then sayKilled ending
      change fun s =>
        { s with jobs := s.jobs.map fun k =>
            if k.process = j.process then { k with waited := true } else k }
      waitEach as ending.status

/-- Wait for the ends of processes, or of all. -/
def waitFor (r : Runner) (args : List String) : Step Nat := do
  runJobs r
  if args.isEmpty then
    change fun s => { s with jobs := s.jobs.map fun j => { j with waited := true } }
    return 0
  else waitEach args 127

/-- Run the commands of a file. -/
def source (r : Runner) : List String → Step Nat
  | [] => return 0
  | name :: _ => do
    let found ← if name.toList.contains '/' then pure (some name) else lookUpScript name
    match found with
    | none => raise (name ++ ": not found")
    | some path =>
      let s ← get
      match s.world.openFile s.session.process path { reads := true } with
      | .error e => raise (cannotOpen path e)
      | .ok (i, world) =>
        match world.readAll i with
        | .error e => raise (cannotOpen path e)
        | .ok (text, world) =>
          set { s with world }
          change fun s => { s with command := some path }
          let status ← script r text
          change fun s => { s with skip := if s.skip = some .returns then none else s.skip }
          return status

/-- Run a function. -/
def call (r : Runner) (body : Command) (arguments : List String) (m : Purpose) : Step Nat := do
  let before ← session
  change fun s => { s with arguments, loops := 0, optionOffset := none }
  framed (r.tree body { tested := m.tested })
  change fun s =>
    { s with
      arguments := before.arguments
      loops := before.loops
      optionOffset := before.optionOffset
      skip := if s.skip = some .returns then none else s.skip }
  return (← session).status

/-- Run a command of the shell under its name. An error ends the shell only if the command is
    special. -/
def guarded {α : Type} (name : String) (special : Bool) (failed : Nat → α) (body : Step α) :
    Step α := do
  let before := (← session).command
  change fun s => { s with command := some name }
  try
    let a ← body
    let out ← letOut
    change fun s => { s with command := before }
    return if out then a else failed 1
  catch h =>
    let _ ← letOut
    change fun s => { s with command := before }
    match h with
    | .error => if special then throw .error else return failed (← session).status
    | h => throw h

/-- Whether a name is that of a command of the shell. -/
def isBuiltin (name : String) : Bool := specials.contains name || ordinary.contains name

/-- Run a command of the shell other than `command`. -/
def builtin (r : Runner) (name : String) (args : List String) (special : Bool) (m : Purpose) :
    Step (Nat × Bool) :=
  guarded name special (·, false) (do
    if name = "eval" then
      if args.isEmpty then return (0, false)
      else return (← script r (Text.joined " " args) m.last, false)
    else if name = "." then return (← source r args, false)
    else if name = "exec" then execute r args
    else if name = "wait" then return (← waitFor r args, false)
    else
      match builtin? name with
      | some b => return (← b args, false)
      | none => return (127, false))

/-- What the words behind `command` ask for. -/
inductive Plain where
  | meanings (brief : Bool) (names : List String)
  | run (words : List String)

/-- The words behind `command`, as many times as it stands there. -/
def plainWords : Nat → List String → Step Plain
  | 0, words => return .run words
  | n + 1, args => do
    let (options, words) ← shortOptions "pvV" args
    if options.any fun o => o.1 == 'v' || o.1 == 'V' then
      return .meanings (options.any fun o => o.1 == 'v') (words.take 1)
    else
      match words with
      | "command" :: words => plainWords n words
      | words => return .run words

/-- Run a command that is no function, or say what names mean. -/
def plainly (r : Runner) (args : List String) (m : Purpose) : Step (Nat × Bool) := do
  let none : Plain := .run []
  match ← guarded "command" false (fun _ => none) (plainWords args.length args) with
  | .meanings brief names =>
    guarded "command" false (·, false) (do return (← sayMeanings brief names 0, false))
  | .run [] => return ((← session).status, false)
  | .run (name :: args) =>
    if isBuiltin name then builtin r name args false m
    else return (← external r name args m, false)

/-- Run the command that some words name; whether its redirections stay comes back with its
    status. -/
def invoke (r : Runner) (fields : List String) (special : Bool) (m : Purpose) :
    Step (Nat × Bool) := do
  match fields with
  | [] => return ((← session).outputStatus, false)
  | name :: args =>
    match (← session).functions.get? name with
    | some body => return (← call r body args m, false)
    | none =>
      if name = "command" then
        setStatus 0
        plainly r args m
      else if isBuiltin name then builtin r name args special m
      else return (← external r name args m, false)

/-- Run a simple command, and give back its status. -/
def simple (r : Runner) (line : Nat) (assignments words : List Word)
    (redirections : List Redirection) (m : Purpose) : Step Nat := do
  change fun s => { s with line, outputStatus := 0 }
  let sub := substitute r
  let fields ← expandWords sub none words
  let rs ← redirections.mapM (expandRedirection sub)
  let isFunction := (← session).functions.has (fields.headD "")
  let special := specials.contains (fields.headD "") && !isFunction
  let body : Step (Nat × Bool) := do
    if fields.isEmpty || special then
      let assigned ← assignWords sub false assignments
      trace (assigned ++ fields)
      invoke r fields special m
    else
      framed (do
        let assigned ← assignWords sub true assignments
        trace (assigned ++ fields)
        invoke r fields special m)
  let before ← openingsOf (rs.map Redirected.descriptor)
  if ← carriedOut sub rs then
    let (status, keeps) ← body
    if !keeps then putBack before
    return status
  else
    putBack before
    setStatus 2
    if special then throw .error else return 2

/-! ## 7. Commands -/

/-- Run commands one after another. -/
def sequence (r : Runner) (m : Purpose) : List Command → Step Unit
  | [] => return
  | c :: cs => do
    r.tree c (if cs.isEmpty then m else { tested := m.tested })
    if (← session).skip.isNone then sequence r m cs

/-- Run the rounds of a loop, so many at most; the status of the last is given. -/
def rounds (r : Runner) (untilHolds : Bool) (condition body : Command) (m : Purpose) :
    Nat → Nat → Step Unit
  | 0, _ => throw .exhausted
  | n + 1, status => do
    r.tree condition { tested := true }
    let returns := (← session).skip == some .returns
    if (← session).skip.isSome then
      if ← afterBody then rounds r untilHolds condition body m n status
      else if !returns then setStatus status
    else if decide ((← session).status = 0) = untilHolds then setStatus status
    else
      r.tree body m
      let status := (← session).status
      if ← afterBody then rounds r untilHolds condition body m n status

/-- Run the rounds of a loop over values. -/
def eachRound (r : Runner) (name : String) (body : Command) (m : Purpose) :
    List String → Step Unit
  | [] => return
  | v :: vs => do
    assign name v
    r.tree body m
    if ← afterBody then eachRound r name body m vs

/-- Whether one of some patterns stands for a text. -/
def anyFits (r : Runner) (text : String) : List Word → Step Bool
  | [] => return false
  | w :: ws => do
    if Wild.fits (← expandPattern (substitute r) w) text.toList then return true
    else anyFits r text ws

/-- Run the first branch with a pattern that stands for a text. -/
def choose (r : Runner) (text : String) (m : Purpose) :
    List (List Word × Command) → Step Unit
  | [] => return
  | (patterns, body) :: branches => do
    if ← anyFits r text patterns then
      match body with
      | .sequence [] => return
      | body => r.tree body m
    else choose r text m branches

/-- Run the commands of a pipeline, the first of which reads from an opening if one is given. -/
def pipe (r : Runner) : List Command → Option Nat → Step (List Ending)
  | [], _ => return []
  | c :: cs, input => do
    let id ← newProcess
    let s ← get
    let ((i, o), world) := s.world.addChannel
    set { s with world }
    let body : Step Unit := do
      if input.isSome then setDescriptor 0 input
      if !cs.isEmpty then setDescriptor 1 (some o)
      r.tree c { last := true }
    let ending ← inCopy id (s.session.copied id) body r.close
    return ending :: (← pipe r cs (some i))

/-- Note the status of a command, and end the shell if it is an error that counts. -/
def conclude (m : Purpose) (status : Nat) : Step Unit := do
  setStatus status
  if status != 0 && !m.tested && (← session).isSet 'e' then throw .exits

/-- Run a command and note its status. -/
def tree (r : Runner) (c : Command) (m : Purpose) : Step Unit := do
  if (← session).isSet 'n' then return
  attend r
  let inner : Purpose := { tested := m.tested }
  match c with
  | .simple line assignments words redirections =>
    conclude m (← simple r line assignments words redirections m)
  | .redirected line c redirections =>
    change fun s => { s with line }
    let rs ← redirections.mapM (expandRedirection (substitute r))
    let before ← openingsOf (rs.map Redirected.descriptor)
    if ← carriedOut (substitute r) rs then
      r.tree c inner
      putBack before
    else
      putBack before
      setStatus 2
  | .pipe cs =>
    freeNumber
    let endings ← pipe r cs none
    endings.forM sayKilled
    conclude m ((endings.getLast?.map Ending.status).getD 0)
  | .not c =>
    r.tree c { tested := true }
    let s ← session
    setStatus (if s.status = 0 then 1 else 0)
  | .and a b =>
    r.tree a { tested := true }
    let s ← session
    if s.skip.isNone && s.status = 0 then r.tree b m
  | .or a b =>
    r.tree a { tested := true }
    let s ← session
    if s.skip.isNone && s.status != 0 then r.tree b m
  | .sequence cs => sequence r m cs
  | .background c =>
    freeNumber
    let id ← newProcess
    let s ← session
    let job : Job :=
      { number := s.freeJobNumber
        process := id
        size := c.width
        state := .waiting c s.toInherited }
    change fun s => { s with jobs := s.jobs ++ [job], background := id }
    setStatus 0
  | .subshell line c =>
    change fun s => { s with line }
    freeNumber
    let id ← newProcess
    let s ← session
    let purpose : Purpose := { tested := m.tested, last := true }
    let ending ← inCopy id (s.copied id) (r.tree c purpose) r.close
    sayKilled ending
    conclude m ending.status
  | .branch condition yes no =>
    r.tree condition { tested := true }
    let s ← session
    if s.skip.isNone then
      if s.status = 0 then r.tree yes m
      else
        setStatus 0
        r.tree no m
  | .loop untilHolds condition body =>
    looping (rounds r untilHolds condition body inner roundLimit 0)
  | .each line name items body =>
    change fun s => { s with line }
    let values ←
      match items with
      | some ws => expandAll (substitute r) ws
      | none => pure (← session).arguments
    setStatus 0
    looping (eachRound r name body inner values)
  | .choice line w branches =>
    change fun s => { s with line, outputStatus := 0 }
    let text ← expandText (substitute r) w
    setStatus 0
    choose r text m branches
  | .define name body =>
    change fun s => { s with functions := s.functions.put name body }
    setStatus 0
  attend r

/-! ## 8. Processes -/

/-- Run the script that the input of a shell holds. -/
def inputScript (r : Runner) : Step Unit := do
  let s ← get
  match (s.session.opening? 0).map s.world.readAll with
  | some (.ok (text, world)) =>
    set { s with world }
    let _ ← script r text
  | _ => return

/-- What a shell does with its command line. -/
def shellMain (r : Runner) (args : List String) : Step Unit := do
  match Invocation.read args {} with
  | .error e => raise e
  | .ok i =>
    change fun s => { s with options := i.options }
    match i.operands with
    | [] =>
      if i.isText then raise "-c requires an argument"
      else
        change fun s => { s with options := 's' :: s.options.filter (· != 's') }
        inputScript r
    | first :: rest =>
      if i.isText then
        match rest with
        | [] => pure ()
        | name :: arguments => change fun s => { s with name, arguments }
        let _ ← script r first true
      else if i.options.contains 's' then
        change fun s => { s with arguments := first :: rest }
        inputScript r
      else
        let s ← get
        match s.world.openFile s.session.process first { reads := true } with
        | .error e => raise (cannotOpen first e)
        | .ok (o, world) =>
          match world.readAll o with
          | .error e => raise (cannotOpen first e)
          | .ok (text, world) =>
            set { s with world }
            change fun s => { s with name := first, arguments := rest }
            let _ ← script r text

/-- What starts programs for a program. -/
def spawning (r : Runner) : Spawn := fun words => do
  let b ← get
  match words with
  | [] => return .ok (.exited 0)
  | name :: args =>
    let path := (b.process.environment.lookup "PATH").getD usualPath
    let id := b.world.nextProcess
    let child := { b with
      world := { b.world with nextProcess := id + 1 }
      process := { b.process with id, parent := b.process.id } }
    match r.begin (candidates path name) name args child with
    | .ok (ending, world) =>
      set { b with world }
      return .ok ending
    | .error e => return .error e

/-- Run a program of the system. -/
def perform (r : Runner) (i : Image) (b : Bench) : Ending × World :=
  if i.program = "sh" then
    let shell : Scene := { world := b.world, session := startSession i.name b.process }
    let body := inCopy b.process.id shell.session (shellMain r i.args) r.close
    match body.run.run shell with
    | (.ok ending, shell) => (ending, shell.world)
    | (.error _, shell) => (.killed Signal.pipe, shell.world)
  else
    match Programs.program? i.program with
    | none => (.exited 127, b.world)
    | some p => (p (spawning r)).run i.name i.args b

/-- Start a program in a process: the first of some paths that can be run. A file that is no program
    is run as a script. -/
def begin (r : Runner) (paths : List String) (name : String) (args : List String) (b : Bench) :
    Except Files.Refusal (Ending × World) :=
  match firstImage (b.world.volumeOf b.process) name args .notFound paths with
  | .ok i => .ok (perform r i b)
  | .error (.notExecutable, path) => .ok (perform r ⟨"sh", "/bin/sh", path :: args⟩ b)
  | .error (e, _) => .error e

/-- What runs commands in commands and programs that programs start, so deep at most. -/
def runner : Nat → Runner
  | 0 =>
    { tree := fun _ _ => throw .exhausted
      close := throw .exhausted
      begin := fun _ _ _ b => .ok (.killed Signal.pipe, b.world) }
  | n + 1 =>
    { tree := fun c m => tree (runner n) c m
      close := fun s => close (runner n) s
      begin := fun paths name args b => begin (runner n) paths name args b }

/-- How deep commands and programs may stand in one another. -/
def nestingLimit : Nat := 2000

end Isolation.Shell
