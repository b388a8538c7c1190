import Isolation.Machine.Act
import Isolation.Text.Charset

/-!
# Options of programs

Command lines with options: single letters behind a dash, several of which may stand together, and
long names behind two dashes, which may be cut short as long as they stay unambiguous. Options may
follow operands unless the grammar says otherwise, and `--` ends them.

Names in complaints are quoted as a shell would have to quote them (`quoted`), or only where a shell
would need it (`shown`).
-/

namespace Isolation.Programs

open Machine

/-! ## 1. Quoting -/

/-- The octal digits of a byte. -/
def octal (c : Char) : String :=
  let n := c.toNat
  String.ofList [Nat.digitChar (n / 64), Nat.digitChar (n / 8 % 8), Nat.digitChar (n % 8)]

/-- The letter that stands for a control character behind a backslash. -/
def controlLetter? (c : Char) : Option Char :=
  [(7, 'a'), (8, 'b'), (9, 't'), (10, 'n'), (11, 'v'), (12, 'f'), (13, 'r')].lookup c.toNat

/-- A character that cannot be printed, behind a backslash. -/
def escapedText (c : Char) : String :=
  match controlLetter? c with
  | some l => "\\" ++ String.singleton l
  | none => "\\" ++ octal c

/-- Whether a shell takes a character, at the front of a word or not, for more than itself. -/
def isShellSign (front : Bool) (c : Char) : Bool :=
  if c = '#' || c = '~' then front
  else "\t\n !\"$&()*;<=>[^|\\'?".toList.contains c || c == Char.ofNat 96

/-- A row of characters as parts that can be printed and parts that cannot. -/
def shellParts : (plain : Bool) → List Char → String
  | _, [] => "'"
  | plain, c :: r =>
    if Text.isPrintable c then
      let start := if plain then "" else "''"
      let here := if c = '\'' then "'\\''" else String.singleton c
      start ++ here ++ shellParts true r
    else
      let start := if plain then "'$'" else ""
      start ++ escapedText c ++ shellParts false r

/-- A name as a shell would quote it. -/
def quoted (name : String) : String :=
  let cs := name.toList
  let harmless (c : Char) : Bool :=
    Text.isPrintable c && (c == ' ' || c == '\'' || !isShellSign false c)
  if cs.contains '\'' && cs.all harmless && !cs.any (fun c => c == '\\' || c == '?') then
    "\"" ++ name ++ "\""
  else "'" ++ shellParts true cs

/-- A name, quoted if a shell would need it. -/
def shown (name : String) : String :=
  match name.toList with
  | [] => "''"
  | c :: r =>
    let special (c : Char) : Bool := c == ':' || isShellSign false c || !Text.isPrintable c
    let braces := name = "\x7b" || name = "\x7d"
    if isShellSign true c || special c || r.any special || braces then quoted name else name

/-- A text between quotes, its characters escaped where that is needed. -/
def cited (text : String) : String :=
  "'" ++ String.join (text.toList.map fun c =>
    if c = '\'' || c = '\\' then "\\" ++ String.singleton c
    else if Text.isPrintable c then String.singleton c
    else escapedText c) ++ "'"

/-! ## 2. Options -/

/-- Whether an option takes a value. -/
inductive Takes where
  | nothing
  | value
  /-- A value that is attached to the option, if there is one. -/
  | attached
deriving DecidableEq, Repr

/-- The options that a program knows. -/
structure Grammar where
  short : List (Char × Takes)
  /-- The long names, with the letters that they stand for. -/
  long : List (String × Char) := []
  /-- Whether options may follow operands. -/
  mixed : Bool := true

/-- The letters of a text as options: one that is followed by a colon takes a value. -/
def letters : List Char → List (Char × Takes)
  | c :: ':' :: ':' :: r => (c, .attached) :: letters r
  | c :: ':' :: r => (c, .value) :: letters r
  | c :: r => (c, .nothing) :: letters r
  | [] => []

/-- The grammar of a text of letters and of long names. -/
def Grammar.of (short : String) (long : List (String × Char) := []) (mixed : Bool := true) :
    Grammar :=
  ⟨letters short.toList, long, mixed⟩

/-- A command line as it was understood. -/
structure Parsed where
  options : List (Char × String) := []
  operands : List String := []

namespace Parsed

/-- Whether an option is set. -/
def has (p : Parsed) (c : Char) : Bool := p.options.any fun o => o.1 == c

/-- The last value of an option. -/
def last? (p : Parsed) (c : Char) : Option String :=
  (p.options.reverse.find? fun o => o.1 == c).map Prod.snd

/-- All values of an option. -/
def all (p : Parsed) (c : Char) : List String :=
  p.options.filterMap fun o => if o.1 = c then some o.2 else none

/-- The last of some options that is set. -/
def lastOf? (p : Parsed) (cs : List Char) : Option Char :=
  (p.options.reverse.find? fun o => cs.contains o.1).map Prod.fst

/-- The first digit that is set as an option. -/
def firstDigit? (p : Parsed) : Option Char := (p.options.find? fun o => o.1.isDigit).map Prod.fst

end Parsed

namespace Grammar

/-- The options of a group of letters, and whether the last of them still needs a value. -/
def group (g : Grammar) : List Char → Except String (List (Char × String) × Option Char)
  | [] => .ok ([], none)
  | c :: r =>
    match g.short.lookup c with
    | none => .error ("invalid option -- '" ++ String.singleton c ++ "'")
    | some .nothing => do
      let (os, open?) ← g.group r
      return ((c, "") :: os, open?)
    | some .value => .ok (if r.isEmpty then ([], some c) else ([(c, String.ofList r)], none))
    | some .attached => .ok ([(c, String.ofList r)], none)

/-- The long name that a text stands for. -/
def longName (g : Grammar) (text : String) : Except String (String × Char) :=
  match g.long.find? fun p => p.1 == text with
  | some p => .ok p
  | none =>
    match g.long.filter fun p => Text.startsWith p.1 text with
    | [p] => .ok p
    | [] => .error ("unrecognized option '--" ++ text ++ "'")
    | p :: ps =>
      if ps.all fun q => q.2 == p.2 then .ok p
      else
        .error ("option '--" ++ text ++ "' is ambiguous; possibilities:" ++
          String.join ((p :: ps).map fun q => " '--" ++ q.1 ++ "'"))

/-- Understand a command line, or say what is wrong with it. -/
def parse (g : Grammar) : List String → Except String Parsed
  | [] => .ok {}
  | arg :: args =>
    match arg.toList with
    | ['-', '-'] => .ok { operands := args }
    | '-' :: '-' :: name =>
      let (name, value?) :=
        match Text.cut? ['='] name with
        | some (name, value) => (String.ofList name, some (String.ofList value))
        | none => (String.ofList name, none)
      match g.longName name with
      | .error e => .error e
      | .ok (full, c) =>
        match (g.short.lookup c).getD .nothing, value?, args with
        | .nothing, some _, _ => .error ("option '--" ++ full ++ "' doesn't allow an argument")
        | .nothing, none, args => do
          let p ← g.parse args
          return { p with options := (c, "") :: p.options }
        | .attached, value?, args => do
          let p ← g.parse args
          return { p with options := (c, value?.getD "") :: p.options }
        | .value, some value, args => do
          let p ← g.parse args
          return { p with options := (c, value) :: p.options }
        | .value, none, value :: args => do
          let p ← g.parse args
          return { p with options := (c, value) :: p.options }
        | .value, none, [] => .error ("option '--" ++ full ++ "' requires an argument")
    | '-' :: c :: r =>
      match g.group (c :: r), args with
      | .error e, _ => .error e
      | .ok (os, none), args => do
        let p ← g.parse args
        return { p with options := os ++ p.options }
      | .ok (os, some c), value :: args => do
        let p ← g.parse args
        return { p with options := os ++ (c, value) :: p.options }
      | .ok (_, some c), [] =>
        .error ("option requires an argument -- '" ++ String.singleton c ++ "'")
    | _ =>
      if g.mixed then do
        let p ← g.parse args
        return { p with operands := arg :: p.operands }
      else .ok { operands := arg :: args }

end Grammar

/-- End with a complaint about the command line. -/
def usage {α : Type} (status : Nat) (message : String) : Act α := do
  Act.complain message
  let name := (← get).name
  Act.printError ("Try '" ++ name ++ " --help' for more information.\n")
  Act.quit status

/-- Understand a command line, or end with a complaint. -/
def options (g : Grammar) (args : List String) (status : Nat := 1) : Act Parsed :=
  match g.parse args with
  | .ok p => return p
  | .error e => usage status e

/-- End with the complaint that no operand is given. -/
def missingOperand {α : Type} (status : Nat := 1) : Act α := usage status "missing operand"

/-- End with the complaint that there is one operand too many. -/
def extraOperand {α : Type} (operand : String) (status : Nat := 1) : Act α :=
  usage status ("extra operand " ++ quoted operand)

/-- The number that a text of digits denotes. -/
def natural? (text : String) : Option Nat :=
  let cs := text.toList
  if cs.isEmpty || !cs.all Char.isDigit then none
  else some (cs.foldl (fun n c => 10 * n + (c.toNat - '0'.toNat)) 0)

/-- What the letters behind a number multiply it by. -/
def unit? (text : String) : Option Nat :=
  let power (base : Nat) : List Char → Option Nat
    | ['K'] | ['k'] => some base
    | ['M'] => some (base * base)
    | ['G'] => some (base * base * base)
    | ['T'] => some (base * base * base * base)
    | _ => none
  match text.toList with
  | [] => some 1
  | ['b'] => some 512
  | [c, 'B'] => power 1000 [c]
  | [c, 'i', 'B'] => power 1024 [c]
  | cs => power 1024 cs

/-- The number that a text of digits and a unit denotes. -/
def quantity? (text : String) : Option Nat := do
  let ds := text.toList.takeWhile Char.isDigit
  let n ← natural? (String.ofList ds)
  let u ← unit? (String.ofList (text.toList.drop ds.length))
  return n * u

/-- Do something for every operand; the status is that of the worst. -/
def worst (f : String → Act Nat) : List String → Act Nat
  | [] => return 0
  | a :: as => do
    let s ← f a
    return max s (← worst f as)

/-- The text of an operand; that it cannot be read is complained of. -/
def textOf? (refused : String → Files.Refusal → Act Unit) (path : String) :
    Act (Option String) := do
  match ← Act.readOperand path with
  | .ok text => return some text
  | .error r =>
    refused path r
    return none

/-- Do something with the text of every operand, or with the input if there is none. The status is 1
    if one of them cannot be read, which is complained of. -/
def eachText (refused : String → Files.Refusal → Act Unit) (f : String → Act Unit)
    (operands : List String) : Act Nat :=
  let one (path : String) : Act Nat := do
    match ← textOf? refused path with
    | none => return 1
    | some text =>
      f text
      return 0
  worst one (if operands.isEmpty then ["-"] else operands)

/-- The lines of a text, without their ends. -/
def linesOf (text : String) : List String :=
  let parts := (Text.fields (· == '\n') text.toList).map String.ofList
  if parts.getLast? == some "" then parts.dropLast else parts

/-- Lines as a text, each with its end. -/
def unlines (ls : List String) : String := String.join (ls.map (· ++ "\n"))

end Isolation.Programs
