import Isolation.CrossCheck
import Isolation.Inventory
import Isolation.Text.Decimal

/-!
# Command lines

The arguments of a run, read from left to right. A command line has two levels, the one before the
name of a subcommand and the one after it; a level has switches, of which some take a value, and
places for arguments that are no switches. A value follows its switch as the next argument or is
attached to it (`-d2`, `-d=2`, `--depth=2`); short switches without values can be written together.

A value that is the next argument is not looked at until the next switch or place is reached, so of
two mistakes the one that is met first in this sense is reported.
-/

namespace Isolation.CommandLine

/-! ## 1. What can be asked for -/

/-- The form in which a report is printed. -/
inductive Format where
  | text
  | json
deriving DecidableEq, Repr

/-- What a run does. -/
inductive Action where
  | verify (format : Format)
  | list
  | tree (request : TreeRequest)
  | crossCheck (request : CrossRequest) (format : Format)
deriving DecidableEq, Repr

/-- A command line that has been understood. -/
structure Invocation where
  /-- The configuration to use; the nearest one when absent. -/
  config : Option String
  action : Action
deriving DecidableEq, Repr

/-- Why a command line asks for no run: it asks for a description of the program, or it is
    mistaken. -/
inductive Usage where
  | help
  | version
  /-- There is no argument at all. -/
  | helpForNothing
  | missingSubcommand
  | missingRequired
  | invalidSubcommand
  | unknownArgument
  | invalidValue
  | valueValidation
  | tooManyValues
  | argumentConflict
deriving DecidableEq, Repr

/-- The exit status for a command line that asks for no run. -/
def Usage.exitCode : Usage → Nat
  | help | version => 0
  | _ => 2

/-! ## 2. Levels -/

/-- A switch. -/
inductive Switch where
  | config
  | verbose
  | help
  | version
  | format
  | depth
  | why
  | inverted
  | flat
  | bundles
  | moduleBuilds
deriving DecidableEq, Repr

namespace Switch

/-- The name of a switch behind two dashes. -/
def long : Switch → String
  | config => "config"
  | verbose => "verbose"
  | help => "help"
  | version => "version"
  | format => "format"
  | depth => "depth"
  | why => "why"
  | inverted => "inverted"
  | flat => "flat"
  | bundles => "bundles"
  | moduleBuilds => "module-builds"

/-- The letter of a switch behind one dash. -/
def short? : Switch → Option Char
  | config => some 'c'
  | verbose => some 'v'
  | help => some 'h'
  | version => some 'V'
  | format => some 'f'
  | depth => some 'd'
  | inverted => some 'i'
  | _ => none

/-- Whether a switch takes a value. -/
def takesValue : Switch → Bool
  | config | format | depth | why => true
  | _ => false

/-- What is wrong with a value of a switch. -/
def objection? (s : Switch) (value : String) : Option Usage :=
  match s with
  | config => if value = "" then some .invalidValue else none
  | format => if value = "text" || value = "json" then none else some .invalidValue
  | depth =>
    let digits := (Text.after? ['+'] value.toList).getD value.toList
    if (Text.decimal? Text.wordLimit digits).isSome then none else some .valueValidation
  | _ => none

end Switch

/-- The places of a level for arguments that are no switches. -/
inductive Places where
  | none
  | one
  | many
deriving DecidableEq, Repr

/-- A subcommand. -/
inductive Subcommand where
  | verify
  | list
  | tree
  | crossCheck
  | help
deriving DecidableEq, Repr

namespace Subcommand

/-- The subcommand of a name. -/
def named? : String → Option Subcommand
  | "verify" => some verify
  | "list" | "scan" => some list
  | "tree" => some tree
  | "crosscheck" => some crossCheck
  | "help" => some help
  | _ => none

/-- The switches behind a subcommand. -/
def switches : Subcommand → List Switch
  | verify => [.config, .verbose, .help, .format]
  | tree => [.config, .verbose, .help, .depth, .why, .inverted, .flat]
  | crossCheck => [.config, .verbose, .help, .bundles, .moduleBuilds, .format]
  | list | help => [.config, .verbose, .help]

/-- The places behind a subcommand. -/
def places : Subcommand → Places
  | tree => .one
  | crossCheck => .many
  | _ => .none

end Subcommand

/-- One level of a command line. -/
structure Level where
  switches : List Switch
  places : Places
  /-- The names of subcommands are looked for. -/
  outer : Bool

/-- The level before the subcommand. -/
def Level.top : Level := ⟨[.config, .verbose, .help, .version], .none, true⟩

/-- The level behind a subcommand. -/
def Level.behind (s : Subcommand) : Level := ⟨s.switches, s.places, false⟩

/-! ## 3. Reading a level -/

/-- The arguments of a level read so far. -/
structure Reading where
  /-- The switches that were given, with their values. -/
  given : List (Switch × String) := []
  /-- The arguments that are no switches. -/
  words : List String := []
  /-- The last switch, when its value has not been looked at or not been reached yet. -/
  pending : Option (Switch × Option String) := none
deriving DecidableEq, Repr

namespace Reading

/-- The value of a switch. -/
def value? (r : Reading) (s : Switch) : Option String := r.given.lookup s

/-- Whether a switch was given. -/
def has (r : Reading) (s : Switch) : Bool := (r.value? s).isSome

/-- Whether the next argument is the value of a switch. -/
def awaitsValue (r : Reading) : Bool := r.pending.any fun p => p.2.isNone

/-- Look at the value of the last switch. -/
def settle (r : Reading) : Except Usage Reading :=
  match r.pending with
  | none => .ok r
  | some (_, none) => .error .invalidValue
  | some (s, some value) =>
    if r.has s then .error .argumentConflict
    else
      match s.objection? value with
      | some u => .error u
      | none => .ok { r with given := r.given ++ [(s, value)], pending := none }

/-- A switch with its value at hand. -/
def take (r : Reading) (s : Switch) (value : String) : Except Usage Reading := do
  let r ← r.settle
  Reading.settle { r with pending := some (s, some value) }

/-- A switch that takes no value. -/
def flag (r : Reading) (s : Switch) : Except Usage Reading := do
  let r ← r.settle
  match s with
  | .help => .error .help
  | .version => .error .version
  | s =>
    if r.has s then .error .argumentConflict
    else return { r with given := r.given ++ [(s, "")] }

/-- A switch whose value is the next argument. -/
def await (r : Reading) (s : Switch) : Except Usage Reading := do
  let r ← r.settle
  return { r with pending := some (s, none) }

/-- An argument behind two dashes. -/
def long (l : Level) (r : Reading) (argument : List Char) : Except Usage Reading :=
  let name := String.ofList (argument.takeWhile (· != '='))
  match l.switches.find? fun s => s.long == name, argument.dropWhile (· != '=') with
  | none, _ => .error .unknownArgument
  | some s, [] => if s.takesValue then r.await s else r.flag s
  | some s, _ :: value =>
    if s.takesValue then r.take s (String.ofList value) else .error .tooManyValues

/-- The letters behind one dash. -/
def short (l : Level) (r : Reading) : List Char → Except Usage Reading
  | [] => .ok r
  | c :: rest =>
    match l.switches.find? fun s => s.short? == some c with
    | none => .error .unknownArgument
    | some s =>
      if s.takesValue then
        match rest with
        | [] => r.await s
        | '=' :: value => r.take s (String.ofList value)
        | value => r.take s (String.ofList value)
      else
        match r.flag s with
        | .ok r => short l r rest
        | .error u => .error u

/-- An argument that is no switch. -/
def word (l : Level) (r : Reading) (argument : String) : Except Usage Reading :=
  let free :=
    match l.places with
    | .none => false
    | .one => r.words.isEmpty
    | .many => true
  if free then do
    let r ← r.settle
    return { r with words := r.words ++ [argument] }
  else .error .unknownArgument

end Reading

/-- Read the arguments of a level, up to the name of a subcommand: what was read, and the subcommand
    with the arguments behind it. `closed` says that there are no switches any more. -/
def readLevel (l : Level) (closed : Bool) (r : Reading) :
    List String → Except Usage (Reading × Option (Subcommand × List String))
  | [] => .ok (r, none)
  | a :: rest =>
    let go (closed : Bool) (r : Except Usage Reading) :=
      match r with
      | .ok r => readLevel l closed r rest
      | .error u => .error u
    let subcommand := if l.outer then Subcommand.named? a else none
    if closed then
      if l.outer then .error (if subcommand.isSome then .unknownArgument else .invalidSubcommand)
      else go true (r.word l a)
    else
      match if r.awaitsValue then none else subcommand with
      | some s => .ok (r, some (s, rest))
      | none =>
        match a.toList with
        | ['-', '-'] => go true (.ok r)
        | '-' :: '-' :: argument => go false (r.long l argument)
        | '-' :: c :: letters => go false (r.short l (c :: letters))
        | _ =>
          match r.pending with
          | some (s, none) => go false (.ok { r with pending := some (s, some a) })
          | _ => if l.outer then .error .invalidSubcommand else go false (r.word l a)

/-- A level that has been read to its end. An empty setting of the environment is a mistake where it
    would be used. -/
def closeLevel (environment : Option String) (r : Reading) : Except Usage Reading := do
  let r ← r.settle
  if !r.has .config && environment == some "" then .error .invalidValue else return r

/-! ## 4. Understanding the arguments -/

/-- The action of a subcommand with its arguments. -/
def Subcommand.action (s : Subcommand) (r : Reading) : Except Usage Action :=
  let format := if r.value? .format = some "json" then Format.json else .text
  match s with
  | .verify => .ok (.verify format)
  | .list => .ok .list
  | .tree =>
    match r.words with
    | [] => .error .missingRequired
    | module :: _ =>
      let depth := (r.value? .depth).map fun v => Text.decimalValue (v.toList.filter Char.isDigit)
      .ok (.tree ⟨module, depth, r.value? .why, r.has .inverted, r.has .flat⟩)
  | .crossCheck => .ok (.crossCheck ⟨r.words, r.has .bundles, r.has .moduleBuilds⟩ format)
  | .help => .error .help

/-- What a request for help on some subcommands comes to. -/
def helpOn : List String → Usage
  | [] => .help
  | [s] => if (Subcommand.named? s).isSome then .help else .invalidSubcommand
  | _ => .invalidSubcommand

/-- The invocation that a command line asks for. The configuration is named behind the subcommand,
    before it, or by the environment, in this order. -/
def Invocation.ofArguments (environment : Option String) (args : List String) :
    Except Usage Invocation := do
  match ← readLevel .top false {} args with
  | (top, none) =>
    let top ← closeLevel environment top
    .error (if top.given.isEmpty && environment.isNone then .helpForNothing else .missingSubcommand)
  | (_, some (.help, rest)) => .error (helpOn rest)
  | (top, some (s, rest)) =>
    let (inner, _) ← readLevel (.behind s) false {} rest
    let inner ← closeLevel environment inner
    let action ← s.action inner
    let top ← closeLevel environment top
    return ⟨((inner.value? .config).or (top.value? .config)).or environment, action⟩

end Isolation.CommandLine
