import Isolation.Programs.Texts

/-!
# The ends of texts

The programs that write the beginning of a text (`head`) or its end (`tail`), in lines or in bytes.
Several texts are told apart by a line with their names.
-/

namespace Isolation.Programs.Ends

open Machine
open Files (Refusal)

/-- A part of a text. -/
inductive Part where
  | first (n : Nat)
  | allButLast (n : Nat)
  | last (n : Nat)
  /-- Everything from a piece on, counted from one. -/
  | fromOn (n : Nat)
deriving DecidableEq, Repr

/-- The pieces that belong to a part. -/
def Part.pieces {α : Type} (ps : List α) : Part → List α
  | first n => ps.take n
  | allButLast n => ps.take (ps.length - n)
  | last n => ps.drop (ps.length - n)
  | fromOn n => ps.drop (n - 1)

/-- The lines of a text with their ends. -/
def endedLines (cs : List Char) : List (List Char) :=
  let parts := Text.fields (· == '\n') cs
  let ended := parts.dropLast.map (· ++ ['\n'])
  match parts.getLast? with
  | some (c :: r) => ended ++ [c :: r]
  | _ => ended

/-- What is asked for: a part, in lines or in bytes. -/
structure Request where
  part : Part
  bytes : Bool := false

/-- The characters that are asked for. -/
def Request.take (r : Request) (cs : List Char) : List Char :=
  if r.bytes then r.part.pieces cs else (r.part.pieces (endedLines cs)).flatten

/-- What is asked for, as the part that is taken and what is left behind it. A part that depends on
    the end takes everything. -/
def Request.split (r : Request) (cs : List Char) : List Char × List Char :=
  match r.part with
  | .first _ =>
    let taken := r.take cs
    (taken, cs.drop taken.length)
  | _ => (cs, [])

/-- The greatest count. -/
def countLimit : Nat := Nat.pow 2 64

/-- The number of a count. -/
def count (bytes : Bool) (text : String) : Act Nat := do
  let what := if bytes then "bytes" else "lines"
  let wrong := "invalid number of " ++ what ++ ": " ++ quoted text
  match quantity? text with
  | some n =>
    if n < countLimit then return n
    else Act.fail 1 (wrong ++ ": Value too large for defined data type")
  | none => Act.fail 1 wrong

/-- A count with a sign before it, as the sign and the rest. -/
def signed (text : String) : Option Char × String :=
  match text.toList with
  | '-' :: r => (some '-', String.ofList r)
  | '+' :: r => (some '+', String.ofList r)
  | _ => (none, text)

/-- Write the part that is asked for of every operand, with names if that is wanted. -/
def eachPart (r : Request) (named : Bool) (operands : List String) : Act Nat := do
  let one (acc : Bool × Nat) (path : String) : Act (Bool × Nat) := do
    let name := if path = "-" then "standard input" else path
    let heading := (if acc.1 then "" else "\n") ++ "==> " ++ name ++ " <==\n"
    match ← (if path = "-" then Act.inputUpTo r.split else Act.readFile path) with
    | .ok text =>
      if named then Act.print heading
      Act.print (String.ofList (r.take text.toList))
      return (false, acc.2)
    | .error .isDirectory =>
      if named then Act.print heading
      Act.complain ("error reading " ++ quoted path ++ ": " ++ Refusal.text .isDirectory)
      return (false, 1)
    | .error e =>
      if path = "-" then Act.complain ("error reading 'standard input': " ++ e.text)
      else Act.complain ("cannot open " ++ quoted path ++ " for reading: " ++ e.text)
      return (acc.1, 1)
  return (← operands.foldlM one (true, 0)).2

/-- Whether names are written: the last option that says so counts. -/
def areNamed (p : Parsed) (operands : List String) : Bool :=
  match p.lastOf? ['q', 'v'] with
  | some 'q' => false
  | some _ => true
  | none => operands.length > 1

/-- The options of a count that is given as an option itself: the digits, and the letters behind
    them. -/
def digitsFirst? (arg : String) : Option (String × List Char) :=
  match arg.toList with
  | '-' :: r =>
    let ds := r.takeWhile Char.isDigit
    if ds.isEmpty then none else some (String.ofList ds, r.drop ds.length)
  | _ => none

/-- Write the beginning of texts. -/
def head : Program := fun args => do
  let args : List String ←
    match args with
    | [] => pure []
    | arg :: rest =>
      match digitsFirst? arg with
      | none => pure args
      | some (digits, marks) =>
        match marks.find? fun c => !("bckmlqvz".toList.contains c) with
        | some c => usage 1 ("invalid trailing option -- " ++ String.singleton c)
        | none =>
          let units := marks.filter fun c => c == 'b' || c == 'k' || c == 'm'
          let option := if marks.contains 'c' || !units.isEmpty then "-c" else "-n"
          let named := marks.filter fun c => c == 'q' || c == 'v'
          let others := named.map fun c => String.ofList ['-', c]
          pure (others ++ [option ++ digits ++ (String.ofList units).toUpper] ++ rest)
  let g := Grammar.of "c:n:qvz0123456789"
    [("bytes", 'c'), ("lines", 'n'), ("quiet", 'q'), ("silent", 'q'), ("verbose", 'v')]
  let p ← options g args
  match p.firstDigit? with
  | some d => usage 1 ("invalid trailing option -- " ++ String.singleton d)
  | none => pure ()
  let bytes := p.lastOf? ['c', 'n'] == some 'c'
  let request : Request ←
    match p.last? (if bytes then 'c' else 'n') with
    | none => pure { part := .first 10 }
    | some text =>
      let (sign, text) := signed text
      let n ← count bytes text
      pure { part := if sign == some '-' then .allButLast n else .first n, bytes }
  let operands := if p.operands.isEmpty then ["-"] else p.operands
  eachPart request (areNamed p operands) operands

/-- What the first argument asks for if it is a count by itself, the others being operands. -/
def bareCount? (arg : String) (rest : List String) : Option (String × Bool) :=
  let fits :=
    match rest with
    | [] => true
    | [operand] => operand = "-" || !Text.startsWith operand "-"
    | _ => false
  match arg.toList with
  | sign :: r =>
    let ds := r.takeWhile Char.isDigit
    let kind := r.drop ds.length
    if !fits || ds.isEmpty || !(sign == '-' || sign == '+') then none
    else if kind = [] || kind = ['l'] then some (String.ofList (sign :: ds), false)
    else if kind = ['c'] then some (String.ofList (sign :: ds), true)
    else none
  | [] => none

/-- Write the end of texts. -/
def tail : Program := fun args => do
  let args :=
    match args with
    | [] => []
    | arg :: rest =>
      match bareCount? arg rest with
      | none => args
      | some (text, bytes) => (if bytes then "-c" else "-n") :: text :: rest
  let g := Grammar.of "c:n:qvfFz0123456789"
    [("bytes", 'c'), ("lines", 'n'), ("quiet", 'q'), ("silent", 'q'), ("verbose", 'v')]
  let p ← options g args
  match p.firstDigit? with
  | some d => Act.fail 1 ("option used in invalid context -- " ++ String.singleton d)
  | none => pure ()
  let bytes := p.lastOf? ['c', 'n'] == some 'c'
  let request : Request ←
    match p.last? (if bytes then 'c' else 'n') with
    | none => pure { part := .last 10 }
    | some text =>
      match signed text with
      | (some '+', digits) =>
        match quantity? digits with
        | some n => pure { part := .fromOn n, bytes }
        | none => pure { part := .fromOn (← count bytes text), bytes }
      | (_, digits) => pure { part := .last (← count bytes digits), bytes }
  let operands := if p.operands.isEmpty then ["-"] else p.operands
  eachPart request (areNamed p operands) operands

end Isolation.Programs.Ends
