import Isolation.Programs.Options

/-!
# Paths

The programs that work on paths. `basename` and `dirname` look at nothing but the text of a path, and
`pwd` tells where the process is.
-/

namespace Isolation.Programs.Paths

open Machine

/-! ## 1. Texts of paths -/

/-- A path without the slashes at its end. -/
def bare (cs : List Char) : List Char := (cs.reverse.dropWhile (· == '/')).reverse

/-- The last name of a path; a slash for a path of slashes. -/
def lastName (path : String) : String :=
  match bare path.toList with
  | [] => if path = "" then "" else "/"
  | cs => String.ofList (cs.reverse.takeWhile (· != '/')).reverse

/-- A path without its last name. -/
def above (path : String) : String :=
  let cs := bare path.toList
  let front := (cs.reverse.dropWhile (· != '/')).reverse
  match bare front with
  | [] => if front.isEmpty && (cs != [] || path = "") then "." else "/"
  | kept => String.ofList kept

/-- A name without an ending, unless it is nothing else. -/
def withoutEnding (ending name : String) : String :=
  let backwards (s : String) : String := String.ofList s.toList.reverse
  match Text.afterStart? (backwards ending) (backwards name) with
  | some "" | none => name
  | some rest => if ending = "" || name = "/" then name else String.ofList rest.toList.reverse

/-- Write the last names of paths. -/
def basename : Program := fun args => do
  let g : Grammar :=
    { Grammar.of "as:z" [("multiple", 'a'), ("suffix", 's'), ("zero", 'z')] with mixed := false }
  let p ← options g args
  let ending := if p.has 'z' then String.singleton (Char.ofNat 0) else "\n"
  let write (suffix path : String) : Act Unit :=
    Act.print (withoutEnding suffix (lastName path) ++ ending)
  if p.has 'a' || p.has 's' then
    if p.operands.isEmpty then missingOperand
    p.operands.forM (write ((p.last? 's').getD ""))
    return 0
  match p.operands with
  | [] => missingOperand
  | [path] => write "" path
  | [path, suffix] => write suffix path
  | _ :: _ :: c :: _ => extraOperand c
  return 0

/-- Write paths without their last names. -/
def dirname : Program := fun args => do
  let p ← options (Grammar.of "z" [("zero", 'z')]) args
  let ending := if p.has 'z' then String.singleton (Char.ofNat 0) else "\n"
  if p.operands.isEmpty then missingOperand
  p.operands.forM fun path => Act.print (above path ++ ending)
  return 0

/-! ## 2. Where the process is -/

/-- A place as an absolute path. -/
def placeText (place : List String) : String :=
  Text.octetsOf ("/" ++ Text.joined "/" place)

/-- Write the current directory. -/
def pwd : Program := fun args => do
  let p ← options (Grammar.of "LP" [("logical", 'L'), ("physical", 'P')]) args
  if !p.operands.isEmpty then Act.complain "ignoring non-option arguments"
  let physical := placeText (← Act.process).current
  match p.lastOf? ['L', 'P'], ← Act.valueOf? "PWD" with
  | some 'L', some named =>
    match ← Act.placeOf named true with
    | .ok (place, _) =>
      let same := Text.startsWith named "/" && placeText place == physical
      Act.printLine (if same then named else physical)
    | .error _ => Act.printLine physical
  | _, _ => Act.printLine physical
  return 0

end Isolation.Programs.Paths
