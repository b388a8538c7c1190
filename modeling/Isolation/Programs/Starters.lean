import Isolation.Programs.Options
import Isolation.Text.Floating

/-!
# Starting and waiting

`env` starts a program in another environment; what cannot be started has the status 127 if it is
not there, and 126 otherwise. `sleep` reads how long it is to wait; no time passes here.
-/

namespace Isolation.Programs.Starters

open Machine
open Files (Refusal)

/-- The status for a program that cannot be started. -/
def refusalStatus (r : Refusal) : Nat := if r = .notFound then 127 else 126

/-! ## 1. Another environment -/

/-- The words of a text that is split as a shell would split it, expansions aside. -/
def splitWords : (open? : Option Char) → (word : Option (List Char)) → List Char →
    Except String (List String)
  | none, word, [] => .ok (word.toList.map fun w => String.ofList w.reverse)
  | some _, _, [] => .error "no terminating quote in -S string"
  | quote, word, '\\' :: c :: r =>
    let now := word.getD []
    let add (d : Char) : Except String (List String) := splitWords quote (some (d :: now)) r
    if quote == some '\'' && c != '\\' && c != '\'' then
      splitWords quote (some (c :: '\\' :: now)) r
    else
      match c with
      | 'n' => add '\n'
      | 't' => add '\t'
      | 'r' => add '\r'
      | 'f' => add (Char.ofNat 12)
      | 'v' => add (Char.ofNat 11)
      | '_' =>
        if quote == some '"' then add ' '
        else do
          let more ← splitWords none none r
          return (word.toList.map fun w => String.ofList w.reverse) ++ more
      | 'c' => .ok (word.toList.map fun w => String.ofList w.reverse)
      | c =>
        if "#$\"'\\".toList.contains c then add c
        else .error ("invalid sequence '\\" ++ String.singleton c ++ "' in -S")
  | some q, word, c :: r =>
    if c = q then splitWords none (some (word.getD [])) r
    else splitWords (some q) (some (c :: word.getD [])) r
  | none, word, c :: r =>
    if c == '"' || c == '\'' then splitWords (some c) (some (word.getD [])) r
    else if Text.isSpace c then
      match word with
      | none => splitWords none none r
      | some w => do return String.ofList w.reverse :: (← splitWords none none r)
    else if c == '#' && word.isNone then .ok []
    else splitWords none (some (c :: word.getD [])) r

/-- The arguments with every text that is to be split in its parts. -/
def withSplit : List String → Except String (List String)
  | [] => .ok []
  | arg :: rest =>
    match arg.toList, rest with
    | ['-', 'S'], text :: rest => do return (← splitWords none none text.toList) ++ rest
    | '-' :: 'S' :: text, rest => do return (← splitWords none none text) ++ rest
    | '-' :: 'v' :: 'S' :: text, rest => do return (← splitWords none none text) ++ rest
    | _, rest =>
      match Text.afterStart? "--split-string=" arg with
      | some text => do return (← splitWords none none text.toList) ++ rest
      | none =>
        if Text.startsWith arg "-" && arg != "--" then do return arg :: (← withSplit rest)
        else .ok (arg :: rest)

/-- The environment with a setting. -/
def withSetting (environment : List (String × String)) (setting : String) :
    List (String × String) :=
  match Text.cut? ['='] setting.toList with
  | none => environment
  | some (name, value) =>
    let name := String.ofList name
    let value := String.ofList value
    if environment.any fun e => e.1 == name then
      environment.map fun e => if e.1 == name then (name, value) else e
    else environment ++ [(name, value)]

/-- Start a program in another environment, or write the environment. -/
def env (spawn : Spawn) : Program := fun args => do
  let args ← match withSplit args with
    | .ok args => pure args
    | .error e => Act.fail 125 e
  let g : Grammar :=
    { Grammar.of "0C:iu:v"
        [("null", '0'), ("chdir", 'C'), ("ignore-environment", 'i'), ("unset", 'u'), ("debug", 'v')]
      with mixed := false }
  let p ← options g args 125
  let (bare, operands) :=
    match p.operands with
    | "-" :: rest => (true, rest)
    | os => (p.has 'i', os)
  let unset := p.all 'u'
  match unset.find? fun n => n = "" || n.toList.contains '=' with
  | some n => Act.fail 125 ("cannot unset " ++ quoted n ++ ": Invalid argument")
  | none => pure ()
  let inherited := (← Act.process).environment
  let old := if bare then [] else inherited
  let old := old.filter fun e => !unset.contains e.1
  let settings := operands.takeWhile fun o => o.toList.contains '='
  let environment := settings.foldl withSetting old
  let words := operands.drop settings.length
  modify fun b => { b with process := { b.process with environment } }
  if words.isEmpty then
    if p.has 'C' then usage 125 "must specify command with --chdir (-C)"
    let ending := if p.has '0' then String.singleton (Char.ofNat 0) else "\n"
    environment.forM fun e => Act.print (e.1 ++ "=" ++ e.2 ++ ending)
    return 0
  if p.has '0' then usage 125 "cannot specify --null (-0) with command"
  match p.last? 'C' with
  | none => pure ()
  | some directory =>
    let entered := (← Act.volume).enter (Text.textOfOctets directory)
    match entered with
    | .ok v => modify fun b => { b with process := { b.process with current := v.current } }
    | .error r =>
      Act.fail 125 ("cannot change directory to " ++ quoted directory ++ ": " ++ r.text)
  match ← spawn words with
  | .ok ending => throw ending
  | .error r =>
    let name := words.headD ""
    Act.complain (quoted name ++ ": " ++ r.text)
    if r = .notFound && name.toList.contains ' ' then
      Act.complain "use -[v]S to pass options in shebang lines"
    return refusalStatus r

/-! ## 2. Time -/

/-- Whether a text is a length of time: a number, behind which a unit may stand. -/
def isTime (text : String) : Bool :=
  match Text.Floating.read? Text.Floating.double text.toList with
  | some (false, .finite _, rest) => [[], ['s'], ['m'], ['h'], ['d']].contains rest
  | some (false, .infinite, []) => true
  | _ => false

/-- Wait. -/
def sleep : Program := fun args => do
  let p ← options (Grammar.of "") args
  if p.operands.isEmpty then missingOperand
  let bad := p.operands.filter fun o => !isTime o
  match bad with
  | [] => return 0
  | bad =>
    bad.dropLast.forM fun o => Act.complain ("invalid time interval " ++ quoted o)
    usage 1 ("invalid time interval " ++ quoted (bad.getLast?.getD ""))

end Isolation.Programs.Starters
