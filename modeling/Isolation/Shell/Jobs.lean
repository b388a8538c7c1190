import Isolation.Machine.Signal
import Isolation.Shell.Session

/-!
# Commands in the background

The commands in the background are known by small numbers. A number is free again when its command
has ended and was waited for, and **whatever the shell starts takes the lowest number that is
free**, so that a command that ended is forgotten with the next that is started.
-/

namespace Isolation.Shell

open Machine

/-! ## 1. Numbers -/

/-- Whether a command has not been run yet. -/
def Job.isWaiting (j : Job) : Bool :=
  match j.state with
  | .waiting .. => true
  | .done _ => false

/-- The lowest number that no command keeps. -/
def Session.freeJobNumber (s : Session) : Nat :=
  let kept := s.jobs.filter fun j => !j.waited
  (((List.range (kept.length + 1)).map (· + 1)).find? fun n =>
    !kept.any fun j => j.number == n).getD 1

/-- Forget the command whose number is given to what is started next. -/
def freeNumber : Step Unit := change fun s =>
  let n := s.freeJobNumber
  { s with jobs := s.jobs.filter fun j => j.number != n }

/-- How many commands stand in a pipeline. -/
def Command.width : Command → Nat
  | .pipe cs => cs.length
  | _ => 1

/-! ## 2. Names -/

/-- The command that a name stands for, the last one if it is not given. -/
def jobOf (name : Option String) : Step Job := do
  let jobs := (← session).jobs.reverse
  let orElse (j : Option Job) (complaint : String) : Step Job :=
    match j with
    | some j => return j
    | none => raise complaint
  let name := name.getD "%"
  if name = "%" || name = "%%" || name = "%+" then orElse jobs.head? "No current job"
  else if name = "%-" then orElse jobs[1]? "No previous job"
  else
    let number := match name.toList with
      | '%' :: ds =>
        if ds.all Char.isDigit then
          some (ds.foldl (fun n c => 10 * n + (c.toNat - '0'.toNat)) 0)
        else none
      | _ => none
    orElse (jobs.find? fun j => some j.number == number) ("No such job: " ++ name)

/-! ## 3. Reports -/

/-- How a command stands, in words. -/
def Job.standing (j : Job) : String :=
  match j.state with
  | .waiting .. => "Running"
  | .done (.exited 0) => "Done"
  | .done (.exited n) => "Done(" ++ toString n ++ ")"
  | .done (.killed n) => Signal.description n

/-- The line about a command among others, with its process if that is asked for. -/
def Job.line (j : Job) (jobs : List Job) (withProcess : Bool) : String :=
  let sign :=
    match jobs.reverse with
    | last :: others =>
      if last.number = j.number then '+'
      else if (others.head?.map Job.number) == some j.number then '-'
      else ' '
    | [] => ' '
  let head := "[" ++ toString j.number ++ "] " ++ String.singleton sign ++ " " ++
    (if withProcess then toString j.process ++ " " else "") ++ j.standing
  let padded := head ++ String.ofList (List.replicate (max 1 (33 - head.length)) ' ')
  padded ++ if withProcess then "" else String.join (List.replicate (j.size - 1) " | ")

end Isolation.Shell
