import Isolation.Shell.Builtins

/-!
# The start of a shell

What a shell is when it begins: the variables that come from its environment, and what its command
line asks for. A shell is given a text (`-c`), a file with a script, or reads its script from its
input.
-/

namespace Isolation.Shell

open Machine

/-- The variables of a shell that is given an environment. -/
def startVariables (environment : List (String × String)) (parent : Nat) : NameMap Variable :=
  let imported := environment.filter fun p => isName p.1
  let exported : List (String × Variable) :=
    imported.map fun p => (p.1, { value := some p.2, exported := true })
  let own : List (String × Variable) :=
    [("IFS", { value := some usualSeparators }), ("OPTIND", { value := some "1" }),
      ("PPID", { value := some (toString parent) }), ("PS1", { value := some "# " }),
      ("PS2", { value := some "> " }), ("PS4", { value := some "+ " })]
  let m : NameMap Variable := Register.ofList (exported ++ own)
  if m.has "PATH" then m else m.put "PATH" { value := some usualPath }

/-- What the command line of a shell asks for. -/
structure Invocation where
  options : List Char := []
  /-- Whether the script is the first operand. -/
  isText : Bool := false
  operands : List String := []

/-- Read the letters of one option word. -/
def Invocation.letters (on : Bool) : List Char → Invocation → Except String Invocation
  | [], i => .ok i
  | c :: r, i =>
    if c = 'c' && on then letters on r { i with isText := true }
    else if c = 'l' then letters on r i
    else if optionOrder.contains c then
      let others := i.options.filter (· != c)
      letters on r { i with options := if on then c :: others else others }
    else .error ("Illegal option -" ++ String.singleton c)

/-- Read the command line of a shell. -/
def Invocation.read : List String → Invocation → Except String Invocation
  | [], i => .ok { i with operands := [] }
  | a :: as, i =>
    match a.toList with
    | ['-', '-'] | ['-'] => .ok { i with operands := as }
    | sign :: c :: r =>
      if sign = '-' || sign = '+' then
        let on := sign = '-'
        if (c :: r).contains 'o' then
          match as with
          | [] => .error "Illegal option -o"
          | name :: as =>
            match Invocation.letters on ((c :: r).filter (· != 'o')) i, optionNames.lookup name with
            | .error e, _ => .error e
            | .ok i, some (some l) =>
              let others := i.options.filter (· != l)
              Invocation.read as { i with options := if on then l :: others else others }
            | .ok i, some none => Invocation.read as i
            | .ok _, none => .error ("Illegal option -o " ++ name)
        else
          match Invocation.letters on (c :: r) i with
          | .ok i => Invocation.read as i
          | .error e => .error e
      else .ok { i with operands := a :: as }
    | _ => .ok { i with operands := a :: as }

/-- The session of a shell that begins. -/
def startSession (name : String) (p : Process) : Session :=
  let physical := Text.octetsOf ("/" ++ Text.joined "/" p.current)
  let bindings := (startVariables p.environment p.parent).put "PWD"
    { value := some physical, exported := true }
  { process := p
    rootProcess := p.id
    name
    bindings
    directory := physical }

end Isolation.Shell
