import Isolation.Machine.Signal
import Isolation.Programs.Condition
import Isolation.Programs.Permissions
import Isolation.Programs.Printf
import Isolation.Shell.Reader
import Isolation.Shell.Expansion
import Isolation.Shell.Jobs

/-!
# Commands of the shell

The commands that a shell carries out itself, other than those that run commands in turn. Each is
given its arguments and gives back a status. A complaint that halts an ordinary command of the shell
(`raise`) ends that command with status 2, and a *special* one ends the shell.
-/

namespace Isolation.Shell

open Machine Programs

/-- A command of the shell. -/
abbrev Builtin := List String → Step Nat

/-! ## 1. Arguments -/

/-- The greatest number that an argument may denote. -/
def argumentLimit : Int := 2147483647

/-- The number that an argument denotes. -/
def numberOf (s : String) : Step Nat :=
  match Condition.integer? s with
  | some n => if 0 ≤ n && n ≤ argumentLimit then return n.toNat else raise ("Illegal number: " ++ s)
  | none => raise ("Illegal number: " ++ s)

/-- The options of a command of the shell, which stand before its operands. -/
def shortOptions (known : String) : List String → Step (List (Char × String) × List String)
  | [] => return ([], [])
  | arg :: args =>
    match arg.toList with
    | ['-', '-'] => return ([], args)
    | '-' :: c :: r =>
      match (⟨letters known.toList, [], false⟩ : Grammar).group (c :: r), args with
      | .ok (os, none), args => do
        let (more, operands) ← shortOptions known args
        return (os ++ more, operands)
      | .ok (os, some c), value :: args => do
        let (more, operands) ← shortOptions known args
        return (os ++ (c, value) :: more, operands)
      | .ok (_, some c), [] => raise ("No arg for -" ++ String.singleton c ++ " option")
      | .error _, _ =>
        let wrong := (c :: r).find? fun c => ((letters known.toList).lookup c).isNone
        raise ("Illegal option -" ++ String.singleton (wrong.getD c))
    | _ => return ([], arg :: args)

/-! ## 2. Output -/

/-- Print the events of a format. -/
def sayEvents : List Printf.Event → Nat → Step Nat
  | [], status => return status
  | e :: es, status =>
    match e with
    | .text s => do
      say s
      sayEvents es status
    | .notNumeric a => do
      warn (a ++ ": expected numeric value")
      sayEvents es 1
    | .notComplete a => do
      warn (a ++ ": not completely converted")
      sayEvents es 1
    | .outOfRange a => do
      warn (a ++ ": Numerical result out of range")
      sayEvents es 1
    | .invalid d => raise (d ++ ": invalid directive")
    | .unfinished => raise "missing format character"
    | .afterCharacter _ | .noDigit | .excess _ => sayEvents es status

/-- Write texts in a format. -/
def printf : Builtin := fun args => do
  let (_, args) ← shortOptions "" args
  match args with
  | [] => raise "usage: printf format [arg ...]"
  | format :: arguments => sayEvents (Printf.events false format arguments) 0

/-- Write words. -/
def echo : Builtin := fun args => do
  let bare := args.head? = some "-n"
  let (text, stops) := Printf.echoed false (if bare then args.drop 1 else args)
  say (if bare || stops then text else text ++ "\n")
  return 0

/-- Say where the shell is. -/
def pwd : Builtin := fun args => do
  let (options, _) ← shortOptions "LP" args
  let s ← session
  if options.getLast?.any fun o => o.1 == 'P' then
    say (Text.octetsOf ("/" ++ Text.joined "/" s.process.current) ++ "\n")
  else say (s.directory ++ "\n")
  return 0

/-! ## 3. Control -/

/-- Leave loops. -/
def breakLoops : Builtin := fun args => do
  let n ← match args with
    | [] => pure 1
    | a :: _ => do
      let n ← numberOf a
      if n = 0 then raise ("Illegal number: " ++ a) else pure n
  let loops := min n (← session).loops
  if loops != 0 then change fun s => { s with skip := some (.breaks loops) }
  return 0

/-- Go on with the next round of a loop. -/
def continueLoop : Builtin := fun args => do
  let n ← match args with
    | [] => pure 1
    | a :: _ => do
      let n ← numberOf a
      if n = 0 then raise ("Illegal number: " ++ a) else pure n
  let loops := min n (← session).loops
  if loops != 0 then change fun s => { s with skip := some (.continues loops) }
  return 0

/-- Leave a function or a file. -/
def returnFrom : Builtin := fun args => do
  let status ← match args with
    | [] => pure (← session).status
    | a :: _ => numberOf a
  change fun s => { s with skip := some .returns }
  return status

/-- End the shell. -/
def exitShell : Builtin := fun args => do
  match args with
  | [] =>
    match (← session).statusBefore with
    | some status => setStatus status
    | none => pure ()
  | a :: _ =>
    let n ← numberOf a
    setStatus (n % 256)
  throw .exits

/-- Drop arguments. -/
def shift : Builtin := fun args => do
  let n ← match args with
    | [] => pure 1
    | a :: _ => numberOf a
  if (← session).arguments.length < n then raise "can't shift that many"
  else
    change fun s => { s with arguments := s.arguments.drop n, optionOffset := none }
    return 0

/-! ## 4. Variables -/

/-- Complain unless a text can be the name of a variable. -/
def checkName (name : String) : Step Unit :=
  if isName name then return else raise (name ++ ": bad variable name")

/-- A variable as a command that makes it. -/
def variableLine (command : String) (name : String) (v : Variable) : String :=
  let head := if command = "" then "" else command ++ " "
  match v.value with
  | some value => head ++ name ++ "=" ++ singleQuoted value ++ "\n"
  | none => head ++ name ++ "\n"

/-- Name the variables that pass a test. -/
def sayVariables (command : String) (test : Variable → Bool) : Step Unit := do
  let vs := (← session).bindings.toList.filter fun p => test p.2
  say (String.join (vs.map fun p => variableLine command p.1 p.2))

/-- The name and the value, if there is one, of an argument that may assign. -/
def assignmentOf (arg : String) : String × Option String :=
  match Text.cut? ['='] arg.toList with
  | some (name, value) => (String.ofList name, some (String.ofList value))
  | none => (arg, none)

/-- Change how a variable is kept, and its value if one is given. -/
def markVariable (mark : Variable → Variable) (arg : String) : Step Unit := do
  let (name, value) := assignmentOf arg
  checkName name
  match value with
  | some value => assign name value
  | none => pure ()
  change fun s =>
    { s with bindings := s.bindings.put name (mark ((s.bindings.get? name).getD {})) }

/-- Change how variables are kept, or name those that are kept so. -/
def marking (command : String) (mark : Variable → Variable) (test : Variable → Bool) : Builtin :=
  fun args => do
    let (options, names) ← shortOptions "p" args
    if options.isEmpty && !names.isEmpty then names.forM (markVariable mark)
    else sayVariables command test
    return 0

/-- Hand variables to programs. -/
def exportVariables : Builtin :=
  marking "export" (fun v => { v with exported := true }) Variable.exported

/-- Protect variables. -/
def protectVariables : Builtin :=
  marking "readonly" (fun v => { v with readOnly := true }) Variable.readOnly

/-- Make variables local. -/
def localVariables : Builtin := fun args => do
  if (← session).locals.isEmpty then raise "not in a function"
  else
    args.forM fun arg => do
      let (name, value) := assignmentOf arg
      if name = "-" then
        change fun s =>
          match s.locals with
          | [] => s
          | frame :: frames =>
            let saved : Variable := { value := some (String.ofList s.options) }
            { s with locals := (("-", some saved) :: frame) :: frames }
      else
        checkName name
        makeLocal name
        match value with
        | some value => assign name value
        | none =>
          change fun s =>
            { s with bindings := s.bindings.put name ((s.bindings.get? name).getD {}) }
    return 0

/-- Take variables or functions away. -/
def unset : Builtin := fun args => do
  let (options, names) ← shortOptions "vf" args
  let functions := options.getLast?.any fun o => o.1 == 'f'
  names.forM fun name => do
    if functions then
      change fun s => { s with functions := s.functions.filter fun p => p.1 != name }
    else
      checkName name
      unassign name
  return 0

/-! ## 5. Options -/

/-- The options by their names. -/
def optionNames : List (String × Option Char) :=
  [("errexit", some 'e'), ("noglob", some 'f'), ("ignoreeof", some 'I'), ("interactive", some 'i'),
    ("monitor", some 'm'), ("noexec", some 'n'), ("stdin", some 's'), ("xtrace", some 'x'),
    ("verbose", some 'v'), ("vi", some 'V'), ("emacs", some 'E'), ("noclobber", some 'C'),
    ("allexport", some 'a'), ("notify", some 'b'), ("nounset", some 'u'), ("nolog", none),
    ("debug", none)]

/-- Set an option, or unset it. -/
def setLetter (on : Bool) (c : Char) : Step Unit := do
  if !optionOrder.contains c then raise ("Illegal option -" ++ String.singleton c)
  else
    change fun s =>
      { s with options := if on then c :: s.options.filter (· != c) else s.options.filter (· != c) }

/-- Set an option by its name, or unset it. -/
def setNamed (on : Bool) (name : String) : Step Unit := do
  match optionNames.lookup name with
  | some (some c) => setLetter on c
  | some none => return
  | none => raise ("Illegal option -o " ++ name)

/-- Name the options, with whether they are set. -/
def sayOptions (asCommands : Bool) : Step Unit := do
  let s ← session
  let line (p : String × Option Char) : String :=
    let on := p.2.any s.isSet
    if asCommands then "set " ++ (if on then "-" else "+") ++ "o " ++ p.1 ++ "\n"
    else
      p.1 ++ String.ofList (List.replicate (16 - p.1.length) ' ') ++
        (if on then "on" else "off") ++ "\n"
  say ((if asCommands then "" else "Current option settings\n") ++
    String.join (optionNames.map line))

/-- Set the letters of a word. -/
def setLetters (on : Bool) : List Char → Step Unit
  | [] => return
  | c :: r => do
    if c != 'o' then setLetter on c
    setLetters on r

/-- Set the options at the front of some words; the words behind them come back, if there are any
    or if they are marked off. -/
def setOptions : List String → Step (Option (List String))
  | [] => return none
  | w :: ws =>
    match w.toList with
    | ['-', '-'] => return some ws
    | ['-'] => do
      change fun s => { s with options := s.options.filter fun c => c != 'x' && c != 'v' }
      return if ws.isEmpty then none else some ws
    | sign :: c :: r =>
      if sign = '-' || sign = '+' then do
        let on := sign = '-'
        setLetters on (c :: r)
        if (c :: r).contains 'o' then
          match ws with
          | [] => do
            sayOptions (!on)
            return none
          | name :: ws => do
            setNamed on name
            setOptions ws
        else setOptions ws
      else return some (w :: ws)
    | _ => return some (w :: ws)

/-- Set options and arguments, or name the variables. -/
def setShell : Builtin := fun args => do
  if args.isEmpty then sayVariables "" fun v => v.value.isSome
  else
    match ← setOptions args with
    | some arguments => change fun s => { s with arguments, optionOffset := none }
    | none => pure ()
  return 0

/-! ## 6. Directories -/

/-- A path without `.` names, each `..` taking the name before it away. -/
def straightened (path : String) : String :=
  let step (acc : List String) (name : String) : List String :=
    if name = "" || name = "." then acc else if name = ".." then acc.drop 1 else name :: acc
  let names := (Text.fields (· == '/') path.toList).map String.ofList
  let root := if Text.startsWith path "//" && !Text.startsWith path "///" then "//" else "/"
  root ++ Text.joined "/" (names.foldl step []).reverse

/-- The path of a directory as the shell remembers it. -/
def Session.absolute (s : Session) (path : String) : String :=
  let slash := if s.directory.toList.getLast? == some '/' then "" else "/"
  straightened (if Text.startsWith path "/" then path else s.directory ++ slash ++ path)

/-- Go to a directory if it is there. -/
def enter (physical : Bool) (path : String) : Step Bool := do
  let s ← session
  let target := if physical then path else s.absolute path
  match (← volume).enter (Text.textOfOctets target) with
  | .error _ => return false
  | .ok v =>
    let directory :=
      if physical then Text.octetsOf ("/" ++ Text.joined "/" v.current) else target
    let before := s.directory
    changeProcess fun p => { p with current := v.current }
    change fun s => { s with directory }
    assign "OLDPWD" before true
    assign "PWD" directory true
    return true

/-- Go to a directory. -/
def cd : Builtin := fun args => do
  let (options, operands) ← shortOptions "LP" args
  let physical := options.getLast?.any fun o => o.1 == 'P'
  let s ← session
  let target := match operands with
    | [] => (s.value? "HOME").getD ""
    | "-" :: _ => (s.value? "OLDPWD").getD ""
    | t :: _ => t
  let relative := !(Text.startsWith target "/" || target = "." || target = ".." ||
    Text.startsWith target "./" || Text.startsWith target "../")
  let places : List String :=
    if relative && operands != ["-"] then
      match s.value? "CDPATH" with
      | some path => (Text.fields (· == ':') path.toList).map String.ofList
      | none => []
    else []
  if target = "" then
    if operands.head? = some "-" then say (s.directory ++ "\n")
    return 0
  else
    let tries := places.map fun p => (p != "", if p = "" then target else p ++ "/" ++ target)
    for (shows, path) in tries do
      if ← enter physical path then
        if shows then say ((← session).directory ++ "\n")
        return 0
    if ← enter physical target then
      if operands.head? = some "-" then say ((← session).directory ++ "\n")
      return 0
    else raise ("can't cd to " ++ target)

/-! ## 7. Signals -/

/-- The number of a signal that is named or numbered. -/
def signalOf? (s : String) : Option Nat :=
  match natural? s with
  | some n => if n < 65 then some n else none
  | none => if s = "" then none else Signal.number? s

/-- Say what is done for signals, or change it. -/
def trap : Builtin := fun args => do
  let (_, args) ← shortOptions "" args
  match args with
  | [] => do
    let traps := (← session).traps
    let sorted := (List.range 65).filterMap fun n => (traps.lookup n).map (n, ·)
    say (String.join (sorted.map fun t =>
      "trap -- " ++ singleQuoted t.2 ++ " " ++ Signal.name t.1 ++ "\n"))
    return 0
  | first :: rest =>
    let resets := rest.isEmpty || (natural? first).isSome
    let action : Option String := if resets || first = "-" then none else some first
    let rec setAll : List String → Step Nat
      | [] => return 0
      | name :: names =>
        match signalOf? name with
        | none => do
          let _ ← writeTo 2 ("trap: " ++ name ++ ": bad trap\n")
          return 1
        | some n => do
          change fun s =>
            let others := s.traps.filter fun t => t.1 != n
            { s with traps := match action with
              | some a => (n, a) :: others
              | none => others }
          setAll names
    setAll (if resets then first :: rest else rest)

/-- The signals by their numbers, or the name of one. -/
def sayNames (args : List String) : Step Nat := do
  match args with
  | [] =>
    say (String.join (("0" :: Signal.names.drop 1).map (· ++ "\n")))
    return 0
  | a :: _ =>
    let n ← numberOf a
    let n := if 128 < n then n - 128 else n
    match if n = 0 then none else Signal.names[n]? with
    | some name =>
      say (name ++ "\n")
      return 0
    | none => raise ("invalid signal number or exit status: " ++ a)

/-- Whether there is a process of a number. -/
def isRunning (process : Nat) : Step Bool := do
  let s ← get
  return process == s.session.process.id || process == s.session.rootProcess
    || process == s.session.process.parent || s.world.running.contains process

/-- Send a signal to a process. -/
def send (signal process : Nat) : Step Unit :=
  modify fun s =>
    { s with world := { s.world with signals := s.world.signals ++ [(process, signal)] } }

/-- How `kill` is used. -/
def killUsage : String :=
  "Usage: kill [-s sigspec | -signum | -sigspec] [pid | job]... or\nkill -l [exitstatus]"

/-- Send a signal to some processes. -/
def sendAll (signal : Nat) : List String → Nat → Step Nat
  | [], status => return status
  | target :: targets, status => do
    let process : Option Nat ←
      if Text.startsWith target "%" then do
        -- No job is a group of processes of its own.
        let _ ← jobOf (some target)
        pure none
      else if Text.startsWith target "-" then do
        let _ ← numberOf (String.ofList (target.toList.drop 1))
        pure none
      else pure (some (← numberOf target))
    if ← process.elim (pure false) isRunning then
      let process := process.getD 0
      if signal != 0 then send signal process
      sendAll signal targets status
    else
      warn "No such process\n"
      sendAll signal targets 1

/-- The signal that the last of some options names. -/
def namedSignal (options : List (Char × String)) : Step (Option Nat) := do
  match (options.filter fun o => o.1 == 's').getLast? with
  | none => return none
  | some (_, name) =>
    match signalOf? name with
    | some n => return some n
    | none => raise ("invalid signal number or name: " ++ name)

/-- Send a signal, or name signals. -/
def kill : Builtin := fun args => do
  let first := args.headD ""
  let named := if Text.startsWith first "-" && first != "-EXIT" then
      signalOf? (String.ofList (first.toList.drop 1)) else none
  match named with
  | some n => if args.length = 1 then raise killUsage else sendAll n (args.drop 1) 0
  | none =>
    let (options, targets) ←
      if Text.startsWith first "-" then shortOptions "ls:" args else pure ([], args)
    let signal ← namedSignal options
    if options.any fun o => o.1 == 'l' then
      if signal.isSome then raise killUsage else sayNames targets
    else if targets.isEmpty then raise killUsage
    else sendAll (signal.getD 15) targets 0

/-! ## 8. Input -/

/-- A character that was read, and whether a backslash took its meaning away. -/
abbrev Read := Char × Bool

/-- Read a line, with what backslashes do; `false` if the input ends in it. -/
def readLine (raw : Bool) : Nat → Step (List Read × Bool)
  | 0 => return ([], false)
  | n + 1 => do
    let s ← get
    match s.session.opening? 0 with
    | none => return ([], false)
    | some i =>
      match s.world.readLine i with
      | .error _ => return ([], false)
      | .ok (text, world) =>
        set { s with world }
        let cs := text.toList.filter (· != Char.ofNat 0)
        let ended := cs.getLast? == some '\n'
        let line := if ended then cs.dropLast else cs
        let rec meaning : List Char → List Read × Bool
          | [] => ([], false)
          | ['\\'] => ([], true)
          | '\\' :: c :: r =>
            let (rest, goesOn) := meaning r
            ((c, true) :: rest, goesOn)
          | c :: r =>
            let (rest, goesOn) := meaning r
            ((c, false) :: rest, goesOn)
        if raw then return (line.map (·, false), ended)
        else
          let (read, goesOn) := meaning line
          if goesOn && ended then
            let (more, ended) ← readLine raw n
            return (read ++ more, ended)
          else return (read, ended)

/-- The values that a line gives to so many variables, the last of which takes the rest. -/
def distribute (separators : List Char) : Nat → List Read → List String
  | 0, _ => []
  | n, cs =>
    let separates (c : Read) : Bool := !c.2 && separators.contains c.1
    let blank (c : Read) : Bool := separates c && isBlankSeparator c.1
    let text (cs : List Read) : String := String.ofList (cs.map Prod.fst)
    let cs := cs.dropWhile blank
    let here := cs.takeWhile fun c => !separates c
    let behind := (cs.drop here.length).dropWhile blank
    let sign := behind.head?.any separates
    let behind := if sign then (behind.drop 1).dropWhile blank else behind
    match n with
    | 1 =>
      if behind.isEmpty then [text here]
      else [text (cs.reverse.dropWhile blank).reverse]
    | n + 1 => text here :: distribute separators n behind
    | 0 => []

/-- Give variables the values of a list; those that are left become empty. -/
def assignRead : List String → List String → Step Unit
  | [], _ => return
  | name :: names, values => do
    assign name (values.headD "")
    assignRead names (values.drop 1)

/-- Read a line into variables. -/
def read : Builtin := fun args => do
  let (options, names) ← shortOptions "p:r" args
  if names.isEmpty then raise "arg count"
  else
    let raw := options.any fun o => o.1 == 'r'
    let (line, ended) ← readLine raw 100000
    names.forM checkName
    let s ← session
    assignRead names (distribute s.separators.toList names.length line)
    return if ended then 0 else 1

/-! ## 9. Options of scripts -/

/-- Read the next option among some arguments. -/
def nextOption (known goal : String) (args : List String) : Step Nat := do
  let s ← session
  let index := ((s.value? "OPTIND").bind natural?).getD 1
  let before := if index ≤ 1 then none else args[index - 2]?
  let within : List Char :=
    match before, s.optionOffset with
    | some a, some k => a.toList.drop k
    | _, _ => []
  let finish (c : String) (index : Nat) (offset : Option Nat) (status : Nat) : Step Nat := do
    assign "OPTIND" (toString index)
    assign goal c
    change fun s => { s with optionOffset := offset }
    return status
  let start : Option (List Char × Nat) :=
    if !within.isEmpty then some (within, index)
    else
      match args[index - 1]? with
      | none => none
      | some a =>
        match a.toList with
        | '-' :: c :: r => some (c :: r, index + 1)
        | _ => none
  match start with
  | none => finish "?" index none 1
  | some (['-'], index) =>
    if within.isEmpty then finish "?" index none 1 else finish "?" index none 0
  | some ([], index) => finish "?" index none 1
  | some (c :: rest, index) =>
    let quiet := Text.startsWith known ":"
    let name := String.singleton c
    let offset : Option Nat :=
      if rest.isEmpty then none else (args[index - 2]?).map fun a => a.length - rest.length
    match (letters (known.toList.dropWhile (· == ':'))).lookup c with
    | none =>
      if quiet then assign "OPTARG" name
      else
        let _ ← writeTo 2 ("Illegal option -" ++ name ++ "\n")
        unassign "OPTARG"
      finish "?" index offset 0
    | some .nothing =>
      assign "OPTARG" ""
      finish name index offset 0
    | some _ =>
      match rest, args[index - 1]? with
      | [], some value =>
        assign "OPTARG" value
        finish name (index + 1) none 0
      | [], none =>
        if quiet then
          assign "OPTARG" name
          finish ":" index none 0
        else
          let _ ← writeTo 2 ("No arg for -" ++ name ++ " option\n")
          unassign "OPTARG"
          finish "?" index none 0
      | rest, _ =>
        assign "OPTARG" (String.ofList rest)
        finish name index none 0

/-- Read the next option of the script. -/
def getopts : Builtin := fun args => do
  match args with
  | known :: goal :: args => do
    let s ← session
    nextOption known goal (if args.isEmpty then s.arguments else args)
  | _ => raise "Usage: getopts optstring var [arg...]"

/-! ## 10. Names of commands -/

/-- The commands of the shell that are not special. -/
def ordinary : List String :=
  ["[", "alias", "bg", "cd", "chdir", "command", "echo", "false", "fg", "getopts", "hash",
    "jobs", "kill", "printf", "pwd", "read", "test", "true", "type", "ulimit", "umask", "unalias",
    "wait"]

/-- What a name means, in short for `command -v`; `none` if it means nothing. -/
def meaning? (brief : Bool) (name : String) : Step (Option String) := do
  let s ← session
  let long (what : String) : String := if brief then name else name ++ what
  if keywords.contains name then return some (long " is a shell keyword")
  else
    match s.aliases.lookup name with
    | some text =>
      return some (if brief then "alias " ++ name ++ "=" ++ singleQuoted text
        else name ++ " is an alias for " ++ text)
    | none =>
      if s.functions.has name then return some (long " is a shell function")
      else if specials.contains name then return some (long " is a special shell builtin")
      else if ordinary.contains name then return some (long " is a shell builtin")
      else
        match ← lookUp name with
        | .ok path => return some (if brief then path else name ++ " is " ++ path)
        | .error _ => return none

/-- Say what names mean. -/
def sayMeanings (brief : Bool) : List String → Nat → Step Nat
  | [], status => return status
  | name :: names, status => do
    match ← meaning? brief name with
    | some text =>
      say (text ++ "\n")
      sayMeanings brief names status
    | none =>
      if !brief then say (name ++ ": not found\n")
      sayMeanings brief names 127

/-- Say what names mean. -/
def type : Builtin := fun args => sayMeanings false args 0

/-- The place of a name among those that are remembered: a remainder of the sum of its bytes. -/
def bucket (name : String) : Nat :=
  let codes := name.toList.map Char.toNat
  codes.foldl (· + ·) (16 * codes.headD 0) % 32768 % 31

/-- Say which programs are remembered, or look for some anew. -/
def hash : Builtin := fun args => do
  let (options, names) ← shortOptions "r" args
  if !options.isEmpty then
    change fun s => { s with remembered := [] }
    return 0
  else if names.isEmpty then
    let order (a b : String × String) : Bool := bucket a.1 ≤ bucket b.1
    say (String.join (((← session).remembered.mergeSort order).map fun p => p.2 ++ "\n"))
    return 0
  else
    let rec each : List String → Nat → Step Nat
      | [], status => return status
      | name :: names, status => do
        change fun s => { s with remembered := s.remembered.filter fun p => p.1 != name }
        let s ← session
        if s.functions.has name || specials.contains name || ordinary.contains name
            || name.toList.contains '/' then
          each names status
        else
          match ← lookUp name with
          | .ok _ => each names status
          | .error isThere =>
            warn (name ++ ": " ++ if isThere then Files.Refusal.notPermitted.text else "not found")
            each names 1
    each names 0

/-- Give names to texts, or say what they stand for. -/
def aliasNames : Builtin := fun args => do
  let line (p : String × String) : String := p.1 ++ "=" ++ singleQuoted p.2 ++ "\n"
  if args.isEmpty then
    say (String.join ((sortedBy compare ((← session).aliases.map line))))
    return 0
  else
    let rec each : List String → Nat → Step Nat
      | [], status => return status
      | a :: as, status => do
        match assignmentOf a with
        | (name, some text) =>
          change fun s =>
            { s with aliases := (name, text) :: s.aliases.filter fun p => p.1 != name }
          each as status
        | (name, none) =>
          match (← session).aliases.lookup name with
          | some text =>
            say (line (name, text))
            each as status
          | none =>
            let _ ← writeTo 2 ("alias: " ++ name ++ " not found\n")
            each as 1
    each args 0

/-- Take names away. -/
def unaliasNames : Builtin := fun args => do
  let (options, names) ← shortOptions "a" args
  if !options.isEmpty then
    change fun s => { s with aliases := [] }
    return 0
  else
    let rec each : List String → Nat → Step Nat
      | [], status => return status
      | name :: names, status => do
        match (← session).aliases.lookup name with
        | some _ =>
          change fun s => { s with aliases := s.aliases.filter fun p => p.1 != name }
          each names status
        | none =>
          let _ ← writeTo 2 ("unalias: " ++ name ++ " not found\n")
          each names 1
    each names 0

/-! ## 11. Commands in the background -/

/-- Say how commands in the background stand; those that have ended are forgotten. -/
def listJobs : Builtin := fun args => do
  let (options, names) ← shortOptions "lp" args
  let style := (options.getLast?.map Prod.fst).getD ' '
  let jobs ← if names.isEmpty then pure (← session).jobs.reverse
    else names.mapM fun name => jobOf (some name)
  jobs.forM fun j => do
    let s ← session
    if style = 'p' then say (toString j.process ++ "\n")
    else
      say (j.line s.jobs (style = 'l') ++ "\n")
      if !j.isWaiting then
        change fun s => { s with jobs := s.jobs.filter fun k => k.number != j.number }
  return 0

/-- Go on with a command in the background, which no shell without a terminal can. -/
def continueJob : Builtin := fun args => do
  let (_, names) ← shortOptions "" args
  let _ ← jobOf names.head?
  raise ("job " ++ names.head?.getD "(null)" ++ " not created under job control")

/-! ## 12. The rest -/

/-- Decide a condition. -/
def condition (bracket : Bool) : Builtin := fun args => do
  let decided (args : List String) : Step Nat := do
    match Condition.Shell.holds (← volume) false args with
    | .ok r => return if r then 0 else 1
    | .error e => raise e
  if bracket then
    if args.getLast? = some "]" then decided args.dropLast else raise "missing ]"
  else decided args

/-- The rights that a digit of a mask leaves. -/
def rights (mask : Nat) : String :=
  String.ofList ([(4, 'r'), (2, 'w'), (1, 'x')].filterMap fun p =>
    if mask / p.1 % 2 = 0 then some p.2 else none)

/-- The changes that clauses ask for, each for all users unless it names some. A clause that does
    nothing is one, but not at the front of others. -/
def maskChanges? (mode : List Char) : Option (List Permissions.Change) :=
  let parts := Text.fields (· == ',') mode
  if parts.head? = some [] && parts.length != 1 || mode.contains 't' then none
  else do
    let changes ← parts.mapM fun part =>
      let who := part.takeWhile fun c => "ugoa".toList.contains c
      let rest := part.drop who.length
      if rest.isEmpty then some [] else Permissions.clause 0 (part.length + 1) who rest
    return changes.flatten

/-- Say or change which rights new files do not get. -/
def umask : Builtin := fun args => do
  let (options, operands) ← shortOptions "S" args
  let mask := (← session).process.umask
  match operands with
  | [] =>
    if options.isEmpty then
      let ds := Nat.toDigits 8 mask
      say (String.ofList (List.replicate (4 - ds.length) '0' ++ ds) ++ "\n")
    else
      say ("u=" ++ rights (mask / 64) ++ ",g=" ++ rights (mask / 8 % 8) ++ ",o=" ++
        rights (mask % 8) ++ "\n")
    return 0
  | m :: _ =>
    if (m.toList.head?).any Char.isDigit then
      if m.toList.all Printf.isOctal then
        changeProcess fun p => { p with umask := Printf.octalValue m.toList % 512 }
        return 0
      else raise ("Illegal number: " ++ m)
    else
      match maskChanges? m.toList with
      | some cs =>
        let mode := cs.foldl (Permissions.Change.apply false) (511 - mask)
        changeProcess fun p => { p with umask := 511 - mode % 512 }
        return 0
      | none => raise ("Illegal mode: " ++ m)

/-- Say what is not limited. -/
def ulimit : Builtin := fun args => do
  let (_, operands) ← shortOptions "HSatfdsmcnpvlwr" args
  if operands.isEmpty then say "unlimited\n"
  return 0

/-- Say how much time was used: none. -/
def times : Builtin := fun _ => do
  say "0m0.000000s 0m0.000000s\n0m0.000000s 0m0.000000s\n"
  return 0

/-- The commands of the shell that run no commands. -/
def builtin? : String → Option Builtin
  | ":" | "true" => some fun _ => return 0
  | "false" => some fun _ => return 1
  | "bg" | "fg" => some continueJob
  | "hash" => some hash
  | "jobs" => some listJobs
  | "[" => some (condition true)
  | "test" => some (condition false)
  | "alias" => some aliasNames
  | "break" => some breakLoops
  | "cd" | "chdir" => some cd
  | "continue" => some continueLoop
  | "echo" => some echo
  | "exit" => some exitShell
  | "export" => some exportVariables
  | "getopts" => some getopts
  | "kill" => some kill
  | "local" => some localVariables
  | "printf" => some printf
  | "pwd" => some pwd
  | "read" => some read
  | "readonly" => some protectVariables
  | "return" => some returnFrom
  | "set" => some setShell
  | "shift" => some shift
  | "times" => some times
  | "trap" => some trap
  | "type" => some type
  | "ulimit" => some ulimit
  | "umask" => some umask
  | "unalias" => some unaliasNames
  | "unset" => some unset
  | _ => none

end Isolation.Shell
