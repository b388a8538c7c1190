import Isolation.Programs.Printf
import Isolation.Regex.Reading

/-!
# Numbers

The programs that reckon: `expr` works out an expression whose parts are its arguments, and `seq`
writes a row of numbers.
-/

namespace Isolation.Programs.Numbers

open Machine

/-! ## 1. Expressions -/

/-- The integer that a text denotes. -/
def integer? (s : String) : Option Int :=
  match s.toList with
  | '-' :: r => (natural? (String.ofList r)).map fun n => -(n : Int)
  | cs => (natural? (String.ofList cs)).map fun n => (n : Int)

/-- Whether a value counts as none: the empty text, or zero. -/
def isNull (s : String) : Bool :=
  match s.toList with
  | [] => true
  | '-' :: c :: r => (c :: r).all (· == '0')
  | cs => cs.all (· == '0')

/-- What a pattern stands for at the front of a text: what its first group stands for if it has
    one, and otherwise the number of characters. -/
def matched (text pattern : String) : Except String String :=
  match Regex.Pattern.read { extended := false } pattern with
  | .error d => .error d.message
  | .ok (p, groups) =>
    let s := Regex.Subject.ofText text
    match Regex.furthest (fun _ => true) (p.ways s ⟨0, []⟩) with
    | some r =>
      let found : Regex.Found := ⟨0, r.position, r.groups⟩
      .ok (if groups = 0 then toString r.position else String.ofList (found.group s 1))
    | none => .ok (if groups = 0 then "0" else "")

/-- Compare two values: as integers if both are, and otherwise by their bytes. -/
def compareValues (a b : String) : Ordering :=
  match integer? a, integer? b with
  | some m, some n => compare m n
  | _, _ => compare a b

/-- The operators that compare, with what they ask for. -/
def comparison? : String → Option (Ordering → Bool)
  | "<" => some (· == .lt)
  | "<=" => some (· != .gt)
  | "=" | "==" => some (· == .eq)
  | "!=" => some (· != .eq)
  | ">=" => some (· != .lt)
  | ">" => some (· == .gt)
  | _ => none

/-- The operators on integers by their ranks. -/
def arithmetic? (rank : Nat) (op : String) : Option (Int → Int → Except String Int) :=
  let divided (f : Int → Int → Int) (a b : Int) : Except String Int :=
    if b = 0 then .error "division by zero" else .ok (f a b)
  match rank, op with
  | 3, "+" => some fun a b => .ok (a + b)
  | 3, "-" => some fun a b => .ok (a - b)
  | 4, "*" => some fun a b => .ok (a * b)
  | 4, "/" => some (divided Int.tdiv)
  | 4, "%" => some (divided Int.tmod)
  | _, _ => none

/-- What two values make with an operator of a rank, if it is one. -/
def combined? (rank : Nat) (op a b : String) : Option (Except String String) :=
  let truth (b : Bool) : String := if b then "1" else "0"
  match rank with
  | 0 =>
    if op = "|" then some (.ok (if !isNull a then a else if isNull b then "0" else b)) else none
  | 1 => if op = "&" then some (.ok (if isNull a || isNull b then "0" else a)) else none
  | 2 => (comparison? op).map fun test => .ok (truth (test (compareValues a b)))
  | 5 => if op = ":" then some (matched a b) else none
  | rank =>
    (arithmetic? rank op).map fun f =>
      match integer? a, integer? b with
      | some m, some n => (f m n).map toString
      | _, _ => .error "non-integer argument"

/-- The place of a character of a set in a text, counted from one. -/
def placeAmong (text set : String) : Nat :=
  ((text.toList.findIdx? fun c => set.toList.contains c).map (· + 1)).getD 0

/-- Some characters of a text, from a place on that is counted from one. -/
def part (text start count : String) : String :=
  match integer? start, integer? count with
  | some s, some n =>
    if s < 1 || n < 1 then ""
    else String.ofList ((text.toList.drop (s.toNat - 1)).take n.toNat)
  | _, _ => ""

/-- An argument, unless there is no more. -/
def argument (args : Array String) (i : Nat) : Except String String :=
  match args[i]? with
  | some a => .ok a
  | none =>
    .error ("syntax error: missing argument after " ++ quoted ((args[i - 1]?).getD ""))

mutual

/-- Work out the expression that begins at an argument, with operators of at least some rank; six is
    the rank of what has no operator. Where `works` is not set, nothing is worked out. -/
def value (args : Array String) : Nat → (rank : Nat) → (works : Bool) → Nat →
    Except String (String × Nat)
  | 0, _, _, _ => .error "syntax error"
  | n + 1, 6, works, i => do
    match ← argument args i with
    | "+" => return (← argument args (i + 1), i + 2)
    | "length" =>
      let (a, i) ← value args n 6 works (i + 1)
      return (toString a.length, i)
    | "match" =>
      let (a, i) ← value args n 6 works (i + 1)
      let (b, i) ← value args n 6 works i
      return (← if works then matched a b else .ok "", i)
    | "index" =>
      let (a, i) ← value args n 6 works (i + 1)
      let (b, i) ← value args n 6 works i
      return (toString (placeAmong a b), i)
    | "substr" =>
      let (a, i) ← value args n 6 works (i + 1)
      let (b, i) ← value args n 6 works i
      let (c, i) ← value args n 6 works i
      return (part a b c, i)
    | "(" =>
      let (a, i) ← value args n 0 works (i + 1)
      match args[i]? with
      | some ")" => return (a, i + 1)
      | some other => .error ("syntax error: expecting ')' instead of " ++ quoted other)
      | none =>
        .error ("syntax error: expecting ')' after " ++ quoted ((args[i - 1]?).getD ""))
    | ")" => .error "syntax error: unexpected ')'"
    | a => return (a, i + 1)
  | n + 1, rank, works, i => do
    let (a, i) ← value args n (rank + 1) works i
    chain args n rank works a i

/-- Go on behind a value as long as there are operators of a rank. -/
def chain (args : Array String) : Nat → (rank : Nat) → (works : Bool) → String → Nat →
    Except String (String × Nat)
  | 0, _, _, _, _ => .error "syntax error"
  | n + 1, rank, works, a, i =>
    match args[i]? with
    | none => .ok (a, i)
    | some op =>
      if (combined? rank op "1" "1").isNone then .ok (a, i)
      else do
        let needed := if rank = 0 then isNull a else if rank = 1 then !isNull a else true
        let (b, i) ← value args n (rank + 1) (works && needed) (i + 1)
        let c ← if works then (combined? rank op a b).getD (.ok a) else .ok a
        chain args n rank works c i

end

/-- Work out the expression of the arguments. -/
def expr : Program := fun args => do
  let args := if args.head? == some "--" then args.drop 1 else args
  if args.isEmpty then missingOperand 2
  let row := args.toArray
  match value row (10 * (args.length + 2)) 0 true 0 with
  | .error e => Act.fail 2 e
  | .ok (v, i) =>
    match row[i]? with
    | some extra => Act.fail 2 ("syntax error: unexpected argument " ++ quoted extra)
    | none =>
      Act.printLine v
      return if isNull v then 1 else 0

/-! ## 2. Rows of numbers -/

/-- A decimal number: a whole number of the last place that it has behind its point. -/
structure Decimal where
  units : Int
  places : Nat
  /-- The number of characters that it is written with. -/
  width : Nat

/-- Read a decimal number. -/
def decimal? (text : String) : Option Decimal := do
  let cs := text.toList.dropWhile Text.isSpace
  let negative := cs.head? == some '-'
  let body := if negative || cs.head? == some '+' then cs.drop 1 else cs
  let whole := body.takeWhile Char.isDigit
  let behind := body.drop whole.length
  let (fraction, rest) :=
    match behind with
    | '.' :: r => (r.takeWhile Char.isDigit, r.dropWhile Char.isDigit)
    | r => ([], r)
  if whole.isEmpty && fraction.isEmpty then none
  let (exponent, rest) := Text.Floating.exponentPart ['e', 'E'] rest
  if !rest.isEmpty then none
  let n ← natural? (String.ofList (whole ++ fraction))
  let signed : Int := if negative then -(n : Int) else n
  let shift : Int := exponent - fraction.length
  let width := cs.length - (if cs.head? == some '+' then 1 else 0)
  if shift < 0 then return ⟨signed, min shift.natAbs 400, width⟩
  let units := signed * Nat.pow 10 (min shift.natAbs 400)
  return ⟨units, 0, if exponent = 0 then width else (toString units).length⟩

/-- The units of a number in some finer place. -/
def Decimal.scaled (d : Decimal) (places : Nat) : Int := d.units * Nat.pow 10 (places - d.places)

/-- So many units of a place, written with a point. -/
def decimalText (places : Nat) (units : Int) : String :=
  let power := Nat.pow 10 places
  let whole := toString (units.natAbs / power)
  let sign := if units < 0 then "-" else ""
  if places = 0 then sign ++ whole
  else sign ++ whole ++ "." ++ Text.Floating.digits (units.natAbs % power) places

/-- The most numbers of a row. -/
def rowLimit : Nat := 1000000

/-- The units of a row. -/
def row (first step last : Int) : List Int :=
  let count : Nat :=
    if step = 0 then 0
    else if 0 < step then if last < first then 0 else ((last - first) / step).toNat + 1
    else if first < last then 0
    else ((first - last) / -step).toNat + 1
  (List.range (min count rowLimit)).map fun (k : Nat) => first + step * (k : Int)

/-- A number of some width, with zeros at the front. -/
def widened (width : Nat) (s : String) : String :=
  let zeros (n : Nat) : List Char := List.replicate n '0'
  match s.toList with
  | '-' :: r => String.ofList ('-' :: zeros (width - s.length) ++ r)
  | cs => String.ofList (zeros (width - s.length) ++ cs)

/-- What is wrong with a format for one number, if anything is. -/
def formatFault? (format : String) : Option String :=
  let said (what : String) : Option String := some ("format " ++ quoted format ++ what)
  let rec directives : Nat → List Char → List (Option Char)
    | 0, _ | _, [] => []
    | n + 1, '%' :: '%' :: r => directives n r
    | n + 1, '%' :: r =>
      let rest := r.dropWhile fun c =>
        "-+#0 '".toList.contains c || c.isDigit || c == '.' || c == 'L'
      rest.head? :: directives n (rest.drop 1)
    | n + 1, _ :: r => directives n r
  match directives (format.length + 1) format.toList with
  | [] => said " has no % directive"
  | none :: _ => said " ends in %"
  | some c :: more =>
    if !("efgaEFGA".toList.contains c) then
      said (" has unknown %" ++ String.singleton c ++ " directive")
    else if more.isEmpty then none
    else said " has too many % directives"

/-- The arguments up to the first that is a number with a sign are options; what follows are
    operands. -/
def splitNegative : List String → List String
  | [] => []
  | a :: r =>
    match a.toList, r with
    | ['-', c], value :: r =>
      if c.isDigit then "--" :: a :: value :: r
      else if c = 's' || c = 'f' then a :: value :: splitNegative r
      else a :: splitNegative (value :: r)
    | '-' :: c :: _, r => if c.isDigit || c == '.' then "--" :: a :: r else a :: splitNegative r
    | _, r => a :: r

/-- Write a row of numbers. -/
def seq : Program := fun args => do
  let g : Grammar :=
    { Grammar.of "f:s:w" [("format", 'f'), ("separator", 's'), ("equal-width", 'w')] with
      mixed := false }
  let p ← options g (splitNegative args)
  let read (text : String) : Act Decimal :=
    match decimal? text with
    | some d => return d
    | none => usage 1 ("invalid floating point argument: " ++ quoted text)
  let (first, step, last) : String × String × String ←
    match p.operands with
    | [] => missingOperand
    | [c] => pure ("1", "1", c)
    | [a, c] => pure (a, "1", c)
    | [a, b, c] => pure (a, b, c)
    | _ :: _ :: _ :: d :: _ => extraOperand d
  match (p.last? 'f').bind formatFault? with
  | some e => Act.fail 1 e
  | none => pure ()
  let a ← read first
  let b ← read step
  if b.units = 0 then usage 1 ("invalid Zero increment value: " ++ quoted step)
  let c ← read last
  if p.has 'f' && p.has 'w' then
    usage 1 "format string may not be specified when printing equal width strings"
  let places := max a.places b.places
  let all := max places c.places
  let fine (d : Decimal) : Int := d.scaled all
  let coarse (n : Int) : Int := n / Nat.pow 10 (all - places)
  let wide (d : Decimal) : Nat :=
    let point := if d.places = 0 && places != 0 then 1 else 0
    let less := if d.places != 0 && places = 0 then 1 else 0
    d.width + places - d.places + point - less
  let width := if p.has 'w' then max (wide a) (wide c) else 0
  let text (n : Int) : String :=
    match p.last? 'f' with
    | none => widened width (decimalText places (coarse n))
    | some format =>
      String.join ((Printf.events true format [decimalText places (coarse n)]).map fun
        | .text s => s
        | _ => "")
  let texts := (row (fine a) (fine b) (fine c)).map text
  if !texts.isEmpty then
    Act.print (Text.joined ((p.last? 's').getD "\n") texts ++ "\n")
  return 0

end Isolation.Programs.Numbers
