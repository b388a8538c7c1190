import Isolation.Files.Tree
import Isolation.Programs.Printf

/-!
# Permissions

The permissions of files, and changes of them as they are written: in octal digits, or as clauses
that name users, a sign and letters. Of its permissions a file keeps nothing but whether it may be
run, so that its mode reads as one of two: 0755 if it may, and 0644 if not.
-/

namespace Isolation.Programs.Permissions

open Files (Tree)

/-- The mode of a thing. -/
def modeOf : Tree → Nat
  | .file _ true | .program _ | .directory _ => 0o755
  | .file _ false => 0o644
  | .link _ => 0o777
  | .device _ => 0o666

/-- The letters for the permissions of a mode. -/
def signs (mode : Nat) : String :=
  String.ofList ((List.range 9).map fun i =>
    if mode.testBit (8 - i) then (['r', 'w', 'x'][i % 3]?).getD '-' else '-')

/-- The sign of the kind of a thing. -/
def kindSign : Tree → Char
  | .directory _ => 'd'
  | .link _ => 'l'
  | .device _ => 'c'
  | .file .. | .program _ => '-'

/-! ## 1. Modes as they are written -/

/-- A change of permissions. -/
structure Change where
  op : Char
  /-- The permissions that it is about. -/
  bits : Nat
  /-- The permissions that it may reach. -/
  reach : Nat
  /-- Whether running is meant only where something may be run already. -/
  whereRun : Bool := false
  /-- The class whose permissions are taken over. -/
  source : Option Char := none

/-- The permissions of a class of users: all three, and the special one. -/
def classBits : Char → Nat
  | 'u' => 0o4700
  | 'g' => 0o2070
  | 'o' => 0o1007
  | _ => 0o7777

/-- The permissions that a letter means, for all users. -/
def letterBits? : Char → Option Nat
  | 'r' => some 0o444
  | 'w' => some 0o222
  | 'x' => some 0o111
  | 'X' => some 0
  | 's' => some 0o6000
  | 't' => some 0o1000
  | _ => none

/-- The changes that one clause asks for. -/
def clause (umask : Nat) : Nat → (who : List Char) → List Char → Option (List Change)
  | 0, _, _ => none
  | n + 1, who, op :: r =>
    if !(op == '+' || op == '-' || op == '=') then none
    else
      let reach :=
        if who.isEmpty then 0o7777 - (umask &&& 0o777)
        else (who.map classBits).foldl (· ||| ·) 0
      let body := r.takeWhile fun c => !(c == '+' || c == '-' || c == '=')
      let rest := r.drop body.length
      let change : Option Change :=
        match body with
        | [c] =>
          if c == 'u' || c == 'g' || c == 'o' then
            some { op, bits := 0, reach, source := some c }
          else (letterBits? c).map fun b => { op, bits := b, reach, whereRun := c == 'X' }
        | body => do
          let bits ← body.mapM letterBits?
          return { op, bits := bits.foldl (· ||| ·) 0, reach, whereRun := body.contains 'X' }
      match change, rest with
      | none, _ => none
      | some c, [] => some [c]
      | some c, rest => (clause umask n who rest).map (c :: ·)
  | _, _, [] => none

/-- The changes that a mode asks for; a number sets all permissions. -/
def changes? (umask : Nat) (mode : String) : Option (List Change) :=
  let cs := mode.toList
  if cs.isEmpty then none
  else if cs.all Printf.isOctal then
    let n := Printf.octalValue cs
    if n ≤ 0o7777 then some [{ op := '=', bits := n, reach := 0o7777 }] else none
  else do
    let parts ← (Text.fields (· == ',') cs).mapM fun part =>
      let who := part.takeWhile fun c => "ugoa".toList.contains c
      clause umask (part.length + 1) who (part.drop who.length)
    return parts.flatten

/-- A mode with a change. -/
def Change.apply (isDirectory : Bool) (mode : Nat) (c : Change) : Nat :=
  let taken : Nat :=
    match c.source with
    | some 'u' => let b := mode / 64 % 8; b * 64 + b * 8 + b
    | some 'g' => let b := mode / 8 % 8; b * 64 + b * 8 + b
    | some _ => let b := mode % 8; b * 64 + b * 8 + b
    | none =>
      if c.whereRun && (isDirectory || mode &&& 0o111 != 0) then c.bits ||| 0o111 else c.bits
  let bits := taken &&& c.reach
  match c.op with
  | '+' => mode ||| bits
  | '-' => mode - (mode &&& bits)
  | _ => (mode - (mode &&& c.reach)) ||| bits

end Isolation.Programs.Permissions
