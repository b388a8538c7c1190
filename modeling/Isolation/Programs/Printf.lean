import Isolation.Programs.Options
import Isolation.Text.Floating

/-!
# Formatted output

A format is a text with directives, each of which takes an argument and writes it in a field. The
format is used again as long as there are arguments. There are two manners: that of the program
`printf`, and that of the shell, which knows fewer directives and escapes.

Formatting gives back what was met in order (`Event`): texts, and problems, which are worded by
whoever prints them.
-/

namespace Isolation.Programs.Printf

open Machine Isolation.Text

/-- What is met while a format is used. -/
inductive Event where
  | text (s : String)
  /-- An argument that is no number. -/
  | notNumeric (argument : String)
  /-- An argument that goes on behind a number. -/
  | notComplete (argument : String)
  | outOfRange (argument : String)
  /-- An argument that goes on behind a character. -/
  | afterCharacter (rest : String)
  /-- A directive that there is not. Nothing follows. -/
  | invalid (directive : String)
  /-- A format that ends in a directive. Nothing follows. -/
  | unfinished
  /-- An escape without a digit. Nothing follows. -/
  | noDigit
  /-- More arguments than the format asks for. -/
  | excess (argument : String)
deriving DecidableEq, Repr

/-! ## 1. Escapes -/

/-- The character of a number, as one byte. -/
def byteChar (n : Nat) : Char := Char.ofNat (n % 256)

/-- The number that octal digits denote. -/
def octalValue (cs : List Char) : Nat := cs.foldl (fun n c => 8 * n + (c.toNat - '0'.toNat)) 0

/-- Whether a character is an octal digit. -/
def isOctal (c : Char) : Bool := '0' ≤ c && c ≤ '7'

/-- The character that a letter stands for behind a backslash. -/
def letterEscape? : Char → Option Char
  | 'a' => some (Char.ofNat 7)
  | 'b' => some (Char.ofNat 8)
  | 'e' => some (Char.ofNat 27)
  | 'f' => some (Char.ofNat 12)
  | 'n' => some '\n'
  | 'r' => some '\r'
  | 't' => some '\t'
  | 'v' => some (Char.ofNat 11)
  | '\\' => some '\\'
  | _ => none

/-- What stands behind a backslash. -/
inductive Escape where
  | char (c : Char) (rest : List Char)
  /-- The output ends here. -/
  | stop
  | noDigit
  /-- The backslash stands for itself. -/
  | literal

/-- Read what stands behind a backslash. Where `zeroFirst` is set, octal digits may stand behind a
    zero; where `wide` is, there are hexadecimal digits and an end of the output. -/
def escape (zeroFirst wide : Bool) : List Char → Escape
  | [] => .literal
  | c :: r =>
    match letterEscape? c with
    | some d => .char d r
    | none =>
      if zeroFirst && c = '0' then
        let ds := (r.take 3).takeWhile isOctal
        .char (byteChar (octalValue ds)) (r.drop ds.length)
      else if isOctal c then
        let ds := ((c :: r).take 3).takeWhile isOctal
        .char (byteChar (octalValue ds)) ((c :: r).drop ds.length)
      else if (wide || zeroFirst) && c = 'c' then .stop
      else if wide && c = '"' then .char '"' r
      else if wide && c = 'x' then
        let ds := (r.take 2).takeWhile isHexDigit
        if ds.isEmpty then .noDigit
        else
          .char (byteChar (ds.foldl (fun n d => 16 * n + (Floating.hexValue? d).getD 0) 0))
            (r.drop ds.length)
      else .literal

/-- A text with its escapes read, and whether the output ends in it. -/
def unescaped (wide : Bool) : Nat → List Char → List Char × Bool
  | 0, _ => ([], false)
  | _, [] => ([], false)
  | n + 1, '\\' :: r =>
    match escape true wide r with
    | .char c rest =>
      let (more, stops) := unescaped wide n rest
      (c :: more, stops)
    | .stop => ([], true)
    | .noDigit | .literal =>
      let (more, stops) := unescaped wide n r
      ('\\' :: more, stops)
  | n + 1, c :: r =>
    let (more, stops) := unescaped wide n r
    (c :: more, stops)

/-- A text with its escapes read, and whether the output ends in it. -/
def readEscapes (wide : Bool) (s : String) : String × Bool :=
  let cs := s.toList
  let (text, stops) := unescaped wide (cs.length + 1) cs
  (String.ofList text, stops)

/-! ## 2. Fields -/

/-- How a field is written. -/
structure Field where
  left : Bool := false
  plus : Bool := false
  space : Bool := false
  alternate : Bool := false
  zeros : Bool := false
  width : Nat := 0
  precision : Option Nat := none

/-- So many characters. -/
def filling (n : Nat) (c : Char) : String := String.ofList (List.replicate n c)

/-- A text in a field. -/
def Field.text (f : Field) (s : String) : String :=
  let s := match f.precision with
    | some p => String.ofList (s.toList.take p)
    | none => s
  let gap := f.width - s.length
  if f.left then s ++ filling gap ' ' else filling gap ' ' ++ s

/-- A number in a field: what stands before its digits, and the digits. -/
def Field.number (f : Field) (zeros : Bool) (lead digits : String) : String :=
  let gap := f.width - (lead.length + digits.length)
  if f.left then lead ++ digits ++ filling gap ' '
  else if zeros then lead ++ filling gap '0' ++ digits
  else filling gap ' ' ++ lead ++ digits

/-- The sign of a number. -/
def Field.sign (f : Field) (negative : Bool) : String :=
  if negative then "-" else if f.plus then "+" else if f.space then " " else ""

/-- The digits of an integer, as many as the precision asks for. -/
def Field.digits (f : Field) (s : String) : String :=
  match f.precision with
  | some p => if p = 0 && s = "0" then "" else filling (p - s.length) '0' ++ s
  | none => s

/-- An integer with a sign in a field. -/
def Field.signed (f : Field) (n : Int) : String :=
  f.number (f.zeros && f.precision.isNone) (f.sign (n < 0)) (f.digits (toString n.natAbs))

/-- The digits of a natural number in a base. -/
def inBase (base n : Nat) : String := String.ofList (Nat.toDigits base n)

/-- A natural number in a field. -/
def Field.unsigned (f : Field) (conversion : Char) (n : Nat) : String :=
  let zeros := f.zeros && f.precision.isNone
  if conversion = 'o' then
    let ds := f.digits (inBase 8 n)
    f.number zeros "" (if f.alternate && ds.toList.head? != some '0' then "0" ++ ds else ds)
  else if conversion = 'x' || conversion = 'X' then
    let ds := f.digits (inBase 16 n)
    let lead := if f.alternate && n != 0 then "0x" else ""
    if conversion = 'X' then f.number zeros lead.toUpper ds.toUpper else f.number zeros lead ds
  else f.number zeros "" (f.digits (toString n))

/-- A number with a point in a field. -/
def Field.floating (f : Field) (conversion : Char) (negative : Bool) (v : Floating.Value) :
    String :=
  let upper := conversion.isUpper
  let cased (s : String) : String := if upper then s.toUpper else s
  match v with
  | .infinite => f.number false (f.sign negative) (cased "inf")
  | .notANumber => f.number false (f.sign negative) (cased "nan")
  | .finite m =>
    let p := f.precision.getD 6
    let c := conversion.toLower
    let body :=
      if c = 'e' then Floating.exponential p f.alternate upper m
      else if c = 'g' then Floating.general p f.alternate upper m
      else Floating.fixed p f.alternate m
    f.number f.zeros (f.sign negative) body

/-! ## 3. Arguments -/

/-- The integer at the front of a text in the notation of numerals, and what follows; `none` if
    there is none. -/
def integerFront? (s : String) : Option (Int × List Char) :=
  let cs := s.toList.dropWhile isSpace
  let (negative, body) :=
    match cs with
    | '-' :: r => (true, r)
    | '+' :: r => (false, r)
    | r => (false, r)
  let digits (base : Nat) (holds : Char → Bool) (body : List Char) : Option (Int × List Char) :=
    let ds := body.takeWhile holds
    if ds.isEmpty then none
    else
      let n : Nat := ds.foldl (fun n d => base * n + (Floating.hexValue? d).getD 0) 0
      some (if negative then -(n : Int) else n, body.drop ds.length)
  match body with
  | '0' :: x :: r =>
    if x = 'x' || x = 'X' then
      match digits 16 isHexDigit r with
      | some p => some p
      | none => some (0, x :: r)
    else digits 8 isOctal body
  | _ => digits 10 Char.isDigit body

/-- The value of an argument that should be an integer between two bounds, and the problems with
    it. -/
def integerArgument (program : Bool) (low high : Int) (s : String) : Int × List Event :=
  match s.toList with
  | [] => (0, if program then [.notNumeric s] else [])
  | q :: r =>
    if (q = '"' || q = '\'') && (!program || !r.isEmpty) then
      let value : Int := (r.head?.map Char.toNat).getD 0
      (value, if program && 1 < r.length then [.afterCharacter (String.ofList (r.drop 1))] else [])
    else
      match integerFront? s with
      | none => (0, [.notNumeric s])
      | some (n, rest) =>
        let bounded := if n < low then low else if high < n then high else n
        let problems : List Event :=
          if !rest.isEmpty then [.notComplete s]
          else if n != bounded then [.outOfRange s]
          else []
        (bounded, problems)

/-- The least and the greatest integer of 64 bits. -/
def signedBounds : Int × Int := (-9223372036854775808, 9223372036854775807)

/-- An integer of 64 bits as a natural number. -/
def unsignedOf (program : Bool) (s : String) : Nat × List Event :=
  let (n, problems) := integerArgument program (-18446744073709551615) 18446744073709551615 s
  ((n % 18446744073709551616).toNat, problems)

/-- The value of an argument that should be a number, and the problems with it. -/
def floatingArgument (program : Bool) (s : String) : Bool × Floating.Value × List Event :=
  match s.toList with
  | [] => (false, .finite ⟨0, 0⟩, if program then [.notNumeric s] else [])
  | q :: r =>
    if (q = '"' || q = '\'') && (!program || !r.isEmpty) then
      (false, .finite ⟨(r.head?.map Char.toNat).getD 0, 0⟩, [])
    else
      match Floating.read? (if program then Floating.extended else Floating.double) s.toList with
      | none => (false, .finite ⟨0, 0⟩, [.notNumeric s])
      | some (negative, v, rest) =>
        let infinite := v = .infinite && s.toList.any Char.isDigit
        (negative, v,
          if !rest.isEmpty then [.notComplete s] else if infinite then [.outOfRange s] else [])

/-! ## 4. Formats -/

/-- A formatting under way. -/
structure Progress where
  arguments : List String
  /-- What was met, the last first. -/
  events : List Event := []
  /-- Whether an argument was asked for. -/
  asked : Bool := false
  stopped : Bool := false

namespace Progress

/-- One more text. -/
def text (p : Progress) (s : String) : Progress := { p with events := .text s :: p.events }

/-- The next argument. -/
def next (p : Progress) : Option String × Progress :=
  (p.arguments.head?, { p with arguments := p.arguments.drop 1, asked := true })

/-- The problems with an argument. -/
def problems (p : Progress) (es : List Event) : Progress :=
  { p with events := es.reverse ++ p.events }

/-- The formatting with an event behind which nothing follows. -/
def stop (p : Progress) (e : Event) : Progress :=
  { p with events := e :: p.events, stopped := true }

/-- The formatting with one directive carried out. -/
def directive (program : Bool) (p : Progress) (f : Field) (conversion : Char) : Option Progress :=
  let (argument, q) := p.next
  let given := argument.getD ""
  if conversion = 's' then some (q.text (f.text given))
  else if conversion = 'b' then
    let (s, stops) := readEscapes program given
    let q := q.text (f.text s)
    some (if stops then { q with stopped := true } else q)
  else if conversion = 'q' && program then some (q.text (f.text (shown given)))
  else if conversion = 'c' then
    let c := given.toList.head?
    let letter := String.singleton (c.getD (Char.ofNat 0))
    some (q.text ({ f with precision := none : Field }.text letter))
  else if conversion = 'd' || conversion = 'i' then
    let (n, es) := match argument with
      | some s => integerArgument program signedBounds.1 signedBounds.2 s
      | none => (0, [])
    some ((q.problems es).text (f.signed n))
  else if ['o', 'u', 'x', 'X'].contains conversion then
    let (n, es) := match argument with
      | some s => unsignedOf program s
      | none => (0, [])
    some ((q.problems es).text (f.unsigned conversion n))
  else if ['e', 'E', 'f', 'F', 'g', 'G'].contains conversion then
    let (negative, v, es) := match argument with
      | some s => floatingArgument program s
      | none => (false, .finite ⟨0, 0⟩, [])
    some ((q.problems es).text (f.floating conversion negative v))
  else none

end Progress

/-- The flags at the front of a directive. -/
def flags (program : Bool) : List Char → Field → Field × List Char
  | '-' :: r, f => flags program r { f with left := true }
  | '+' :: r, f => flags program r { f with plus := true }
  | ' ' :: r, f => flags program r { f with space := true }
  | '#' :: r, f => flags program r { f with alternate := true }
  | '0' :: r, f => flags program r { f with zeros := true }
  | '\'' :: r, f => if program then flags program r f else (f, '\'' :: r)
  | r, f => (f, r)

/-- A number at the front of a text, or an argument for a star. -/
def measure (program : Bool) (p : Progress) : List Char → Option Int × Progress × List Char
  | '*' :: r =>
    let (argument, q) := p.next
    let (n, es) := match argument with
      | some s => integerArgument program (-2147483647) 2147483647 s
      | none => (0, [])
    (some n, q.problems es, r)
  | cs =>
    let ds := cs.takeWhile Char.isDigit
    if ds.isEmpty then (none, p, cs)
    else (some (ds.foldl (fun n c => 10 * n + (c.toNat - '0'.toNat)) 0 : Nat), p, cs.drop ds.length)

/-- Carry out a directive behind its sign; what is left of the format comes back too. -/
def field (program : Bool) (p : Progress) (cs : List Char) : Progress × List Char :=
  let (f, behind) := flags program cs {}
  let (width, p, behind) := measure program p behind
  let f := match width with
    | some w => { f with width := w.natAbs, left := f.left || w < 0 }
    | none => f
  let (f, p, behind) :=
    match behind with
    | '.' :: r =>
      let (precision, p, r) := measure program p r
      let precision := precision.getD 0
      ({ f with precision := if precision < 0 then none else some precision.natAbs }, p, r)
    | r => (f, p, r)
  let behind :=
    if program then behind.dropWhile fun c => ['h', 'l', 'L', 'j', 'z', 't'].contains c
    else behind
  let written (rest : List Char) : String :=
    "%" ++ String.ofList (cs.take (cs.length - rest.length))
  match behind with
  | [] => (p.stop (if program then .invalid (written []) else .unfinished), [])
  | c :: rest =>
    match p.directive program f c with
    | some q => (q, rest)
    | none => (p.stop (.invalid (written rest)), [])

/-- Use a format once. -/
def once (program : Bool) : Nat → Progress → List Char → Progress
  | 0, p, _ => p
  | _, p, [] => p
  | n + 1, p, '\\' :: r =>
    match escape false program r with
    | .char c rest => once program n (p.text (String.singleton c)) rest
    | .stop => { p with stopped := true }
    | .noDigit => p.stop .noDigit
    | .literal => once program n (p.text "\\") r
  | n + 1, p, '%' :: '%' :: r => once program n (p.text "%") r
  | n + 1, p, '%' :: r =>
    let (p, rest) := field program p r
    if p.stopped then p else once program n p rest
  | n + 1, p, c :: r => once program n (p.text (String.singleton c)) r

/-- Use a format as long as there are arguments. -/
def whole (program : Bool) (format : List Char) : Nat → Progress → Progress
  | 0, p => p
  | n + 1, p =>
    let before := p.arguments
    let q := once program (format.length + 1) { p with asked := false } format
    if q.stopped || q.arguments.isEmpty then q
    else if q.arguments.length = before.length then
      if program then { q with events := .excess (q.arguments.headD "") :: q.events } else q
    else whole program format n q

/-- What is met when a format is used with some arguments. -/
def events (program : Bool) (format : String) (arguments : List String) : List Event :=
  (whole program format.toList (arguments.length + 1) { arguments }).events.reverse

/-! ## 5. The program -/

/-- Print an event, and say whether it is a problem. -/
def report (e : Event) : Act Bool :=
  match e with
  | .text s => do
    Act.print s
    return false
  | .notNumeric a => problem (cited a ++ ": expected a numeric value")
  | .notComplete a => problem (cited a ++ ": value not completely converted")
  | .outOfRange a => problem (cited a ++ ": Numerical result out of range")
  | .afterCharacter rest => do
    Act.complain ("warning: " ++ rest ++
      ": character(s) following character constant have been ignored")
    return false
  | .invalid d => problem (d ++ ": invalid conversion specification")
  | .unfinished => problem "%: invalid conversion specification"
  | .noDigit => problem "missing hexadecimal number in escape"
  | .excess a => do
    Act.complain ("warning: ignoring excess arguments, starting with " ++ cited a)
    return false
where
  /-- Complain of a problem. -/
  problem (message : String) : Act Bool := do
    Act.complain message
    return true

/-- The program `printf`. -/
def printf : Program := fun args => do
  let args := if args.head? = some "--" then args.drop 1 else args
  match args with
  | [] => missingOperand
  | format :: arguments =>
    let problems ← (events true format arguments).mapM report
    return if problems.any id then 1 else 0

/-! ## 6. Plain output -/

/-- Whether an argument sets options of `echo`. -/
def isEchoOption (s : String) : Bool :=
  match s.toList with
  | '-' :: c :: r => (c :: r).all fun c => c == 'n' || c == 'e' || c == 'E'
  | _ => false

/-- The text of some words, up to where the output ends, and whether it does. -/
def echoed (wide : Bool) : List String → String × Bool
  | [] => ("", false)
  | w :: ws =>
    match readEscapes wide w, ws with
    | (s, true), _ => (s, true)
    | (s, false), [] => (s, false)
    | (s, false), ws =>
      let (rest, stops) := echoed wide ws
      (s ++ " " ++ rest, stops)

/-- The program `echo`. -/
def echo : Program := fun args => do
  let set := args.takeWhile isEchoOption
  let words := args.drop set.length
  let letters := (String.join (set.map fun s => String.ofList (s.toList.drop 1))).toList
  let escapes := (letters.filter (· != 'n')).getLast? == some 'e'
  let (text, stops) := if escapes then echoed true words else (Text.joined " " words, false)
  Act.print (if stops || letters.contains 'n' then text else text ++ "\n")
  return 0

end Isolation.Programs.Printf
