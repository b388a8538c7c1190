import Isolation.Toml.Lexical
import Isolation.Toml.Value

/-!
# Numbers and moments in TOML

Readers for the values that begin with a digit or a sign. A number is decimal, or hexadecimal, octal
or binary behind a mark; underscores stand between digits. An integer fits 64 bits with its sign; a
float that would be beyond every finite number is refused. A moment is a date, a time, or both with
an optional offset, and has to exist in the calendar.
-/

namespace Isolation.Toml

/-! ## 1. Digits -/

/-- More digits of a kind, with single underscores between them. -/
def moreDigits (p : Char → Bool) : List Char → List Char × List Char
  | '_' :: c :: r =>
    if p c then
      let (ds, rest) := moreDigits p r
      (c :: ds, rest)
    else ([], '_' :: c :: r)
  | c :: r =>
    if p c then
      let (ds, rest) := moreDigits p r
      (c :: ds, rest)
    else ([], c :: r)
  | [] => ([], [])

/-- One or more digits of a kind. -/
def digits (p : Char → Bool) : Reader (List Char)
  | c :: r =>
    if p c then
      let (ds, rest) := moreDigits p r
      some (c :: ds, rest)
    else none
  | [] => none

/-- A sign, if there is one; whether it is a minus. -/
def sign : List Char → Bool × List Char
  | '+' :: r => (false, r)
  | '-' :: r => (true, r)
  | r => (false, r)

/-- The digits of a decimal number before any fraction: no zero before other digits. -/
def wholeDigits : Reader (List Char)
  | '0' :: r => some (['0'], r)
  | cs => digits Char.isDigit cs

/-! ## 2. Numbers -/

/-- An integer that fits 64 bits. -/
def word? (n : Int) : Option Value :=
  if -9223372036854775808 ≤ n ∧ n ≤ 9223372036854775807 then some (.integer n) else none

/-- Whether a digit is one of the given base, and what it is worth. -/
def baseValue? (base : Nat) (c : Char) : Option Nat := (hexValue? c).filter (· < base)

/-- A number in the digits of a base. -/
def basedInteger (base : Nat) : Reader Value := fun cs => do
  let (ds, r) ← digits (fun c => (baseValue? base c).isSome) cs
  let n := ds.foldl (fun n c => base * n + (baseValue? base c).getD 0) 0
  return (← word? n, r)

/-- The exponent of a float: its value and how it is written. -/
def exponent : Reader (Int × List Char)
  | [] => none
  | c :: r =>
    if c = 'e' || c = 'E' then
      let (minus, r) := sign r
      match digits Char.isDigit r with
      | some (ds, rest) =>
        let n : Int := Text.decimalValue ds
        some ((if minus then -n else n, ds), rest)
      | none => none
    else none

/-- Whether the decimal number `mantissa · 10 ^ exponent` is read as infinite: it lies at or above
    the midpoint between the greatest finite number of 64 bits and the next power of two. An
    exponent far beyond the digits decides by itself. -/
def isInfinite (mantissa : Nat) (digitCount : Nat) (exponent : Int) : Bool :=
  if mantissa = 0 then false
  else if exponent > 400 then true
  else if exponent + digitCount < 300 then false
  else
    let limit := Nat.pow 2 1024 - Nat.pow 2 970
    if exponent ≥ 0 then mantissa * Nat.pow 10 exponent.toNat ≥ limit
    else mantissa ≥ limit * Nat.pow 10 (-exponent).toNat

/-- A decimal number: an integer, or a float when a fraction or an exponent follows. Only a positive
    number may be too great for a float. -/
def decimalNumber : Reader Value := fun cs => do
  let (minus, r) := sign cs
  let (whole, rest) ← wholeDigits r
  let finish (fraction : List Char) (power : Int) (rest : List Char) : Option (Value × List Char) :=
    let mantissa := Text.decimalValue (whole ++ fraction)
    let scale : Int := power - fraction.length
    if !minus && isInfinite mantissa (whole.length + fraction.length) scale then none
    else some (.float (String.ofList (cs.take (cs.length - rest.length))), rest)
  match rest with
  | '.' :: r =>
    let (fraction, r) ← digits Char.isDigit r
    match exponent r with
    | some ((power, _), r) => finish fraction power r
    | none => finish fraction 0 r
  | r =>
    match exponent r with
    | some ((power, _), r) => finish [] power r
    | none =>
      let n : Int := Text.decimalValue whole
      return (← word? (if minus then -n else n), r)

/-- What follows a word at the front of a text. -/
def word (w : String) (v : Value) : Reader Value := fun cs =>
  if w.toList.isPrefixOf cs then some (v, cs.drop w.length) else none

/-- A number. -/
def number : Reader Value
  | '0' :: 'x' :: r => basedInteger 16 r
  | '0' :: 'o' :: r => basedInteger 8 r
  | '0' :: 'b' :: r => basedInteger 2 r
  | cs =>
    let (_, r) := sign cs
    match word "inf" (.float "inf") r, word "nan" (.float "nan") r with
    | some p, _ => some p
    | none, some p => some p
    | none, none => decimalNumber cs

/-! ## 3. Moments -/

/-- Exactly so many digits, as a number. -/
def fixedDigits (count : Nat) : Reader Nat := fun cs =>
  let ds := cs.take count
  if ds.length = count && Text.allDigits ds then some (Text.decimalValue ds, cs.drop count)
  else none

/-- A given character. -/
def char (c : Char) : Reader Unit
  | [] => none
  | d :: r => if d = c then some ((), r) else none

/-- The days of a month. -/
def daysIn (year month : Nat) : Nat :=
  if month = 2 then
    if year % 4 = 0 ∧ (year % 100 ≠ 0 ∨ year % 400 = 0) then 29 else 28
  else if month = 4 ∨ month = 6 ∨ month = 9 ∨ month = 11 then 30
  else 31

/-- A number with zeros before it, to a width. -/
def zeroPadded (width n : Nat) : String :=
  let s := toString n
  String.ofList (List.replicate (width - s.length) '0') ++ s

/-- A date of the calendar. -/
def date : Reader String := fun cs => do
  let (year, r) ← fixedDigits 4 cs
  let (_, r) ← char '-' r
  let (month, r) ← fixedDigits 2 r
  let (_, r) ← char '-' r
  let (day, r) ← fixedDigits 2 r
  if 1 ≤ month ∧ month ≤ 12 ∧ 1 ≤ day ∧ day ≤ daysIn year month then
    return (zeroPadded 4 year ++ "-" ++ zeroPadded 2 month ++ "-" ++ zeroPadded 2 day, r)
  else none

/-- Hours and minutes. -/
def hoursMinutes : Reader String := fun cs => do
  let (hour, r) ← fixedDigits 2 cs
  let (_, r) ← char ':' r
  let (minute, r) ← fixedDigits 2 r
  if hour < 24 ∧ minute < 60 then return (zeroPadded 2 hour ++ ":" ++ zeroPadded 2 minute, r)
  else none

/-- The fraction of a second: at most nine digits count, and zeros at its end are not written. -/
def fraction (cs : List Char) : String × List Char :=
  match cs with
  | '.' :: r =>
    match r.takeWhile Char.isDigit with
    | [] => ("", cs)
    | ds =>
      let kept := ((ds.take 9).reverse.dropWhile (· == '0')).reverse
      (if kept.isEmpty then "" else String.ofList ('.' :: kept), r.dropWhile Char.isDigit)
  | _ => ("", cs)

/-- A time of the day. -/
def time : Reader String := fun cs => do
  let (hm, r) ← hoursMinutes cs
  let (_, r) ← char ':' r
  let (second, r) ← fixedDigits 2 r
  if second ≤ 60 then
    let (frac, r) := fraction r
    return (hm ++ ":" ++ zeroPadded 2 second ++ frac, r)
  else none

/-- The offset of a time from universal time, if one follows; no offset is written with a plus. -/
def offset (cs : List Char) : String × List Char :=
  match cs with
  | 'Z' :: r => ("Z", r)
  | 'z' :: r => ("Z", r)
  | '+' :: r =>
    match hoursMinutes r with
    | some (hm, r) => ("+" ++ hm, r)
    | none => ("", cs)
  | '-' :: r =>
    match hoursMinutes r with
    | some (hm, r) => ((if hm = "00:00" then "+" else "-") ++ hm, r)
    | none => ("", cs)
  | _ => ("", cs)

/-- A date, a time, or both. -/
def moment : Reader Value := fun cs =>
  match date cs with
  | some (d, r) =>
    match r with
    | [] => some (.moment d, [])
    | c :: rest =>
      match if c = 'T' || c = 't' || c = ' ' then time rest else none with
      | some (t, r) =>
        let (o, r) := offset r
        some (.moment (d ++ "T" ++ t ++ o), r)
      | none => some (.moment d, c :: rest)
  | none => (time cs).map fun p => (.moment p.1, p.2)

/-- A value that is neither a string nor made of other values. -/
def scalar : Reader Value := fun cs =>
  match cs with
  | [] => none
  | c :: _ =>
    if c = 't' then word "true" (.boolean true) cs
    else if c = 'f' then word "false" (.boolean false) cs
    else
      match moment cs with
      | some p => some p
      | none => number cs

end Isolation.Toml
