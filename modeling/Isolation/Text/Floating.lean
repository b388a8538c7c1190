/-!
# Binary floating-point numbers

Numbers of the form `m · 2 ^ e` with a bounded `m`, as exact values: reading a decimal numeral takes
the nearest of them, and writing one gives the digits of its exact value, rounded to so many places.
**Every rounding is to nearest, ties to even**, and all arithmetic is on natural numbers.
-/

namespace Isolation.Text.Floating

/-- A number without its sign: `mantissa · 2 ^ exponent`. -/
structure Magnitude where
  mantissa : Nat
  exponent : Int
deriving DecidableEq, Repr

/-- A number that was read. -/
inductive Value where
  | finite (m : Magnitude)
  | infinite
  | notANumber
deriving DecidableEq, Repr

/-- The width of a mantissa and the range of exponents. -/
structure Format where
  bits : Nat
  least : Int
  greatest : Int

/-- Numbers of 64 bits. -/
def double : Format := ⟨53, -1074, 971⟩

/-- Numbers of 80 bits. -/
def extended : Format := ⟨64, -16445, 16320⟩

/-- A quotient rounded to the nearest natural number, ties to even. -/
def roundedQuotient (n d : Nat) : Nat :=
  let q := n / d
  let r := n % d
  if 2 * r < d then q else if d < 2 * r then q + 1 else if q % 2 = 0 then q else q + 1

/-- The number of binary digits. -/
def width (n : Nat) : Nat := if n = 0 then 0 else Nat.log2 n + 1

/-- The nearest number of a format to a quotient of natural numbers. -/
def nearest (f : Format) (n d : Nat) : Value :=
  if n = 0 || d = 0 then .finite ⟨0, 0⟩
  else
    let guess : Int := (width n : Int) - width d - f.bits
    let quotient (e : Int) : Nat :=
      if e < 0 then roundedQuotient (n * Nat.pow 2 e.natAbs) d
      else roundedQuotient n (d * Nat.pow 2 e.natAbs)
    let e := max guess f.least
    let m := quotient e
    let (m, e) := if f.bits < width m then (quotient (e + 1), e + 1) else (m, e)
    let (m, e) := if f.bits < width m then (m / 2, e + 1) else (m, e)
    if f.greatest < e then .infinite else .finite ⟨m, e⟩

/-- The nearest number of a format to `n · 10 ^ e`. -/
def ofDecimal (f : Format) (n : Nat) (e : Int) : Value :=
  if e < -20000 then .finite ⟨0, 0⟩
  else if 20000 < e && n != 0 then .infinite
  else if e < 0 then nearest f n (Nat.pow 10 e.natAbs)
  else nearest f (n * Nat.pow 10 e.natAbs) 1

/-- A magnitude as a quotient. -/
def Magnitude.quotient (m : Magnitude) : Nat × Nat :=
  if m.exponent < 0 then (m.mantissa, Nat.pow 2 m.exponent.natAbs)
  else (m.mantissa * Nat.pow 2 m.exponent.natAbs, 1)

/-- The decimal digits of a number, with zeros before them up to a width. -/
def digits (n : Nat) (least : Nat) : String :=
  let ds := Nat.toDigits 10 n
  String.ofList (List.replicate (least - ds.length) '0' ++ ds)

/-- A magnitude with so many places behind the point. -/
def fixed (places : Nat) (alternate : Bool) (m : Magnitude) : String :=
  let (n, d) := m.quotient
  let scaled := roundedQuotient (n * Nat.pow 10 places) d
  let whole := toString (scaled / Nat.pow 10 places)
  if places = 0 then if alternate then whole ++ "." else whole
  else whole ++ "." ++ digits (scaled % Nat.pow 10 places) places

/-- The largest `e`, among so many from some number on downwards, with `10 ^ e` not above a
    quotient. -/
def decimalExponent (n d : Nat) : Nat → Int → Int
  | 0, e => e
  | k + 1, e =>
    let fits := if e < 0 then d ≤ n * Nat.pow 10 e.natAbs else d * Nat.pow 10 e.natAbs ≤ n
    if fits then e else decimalExponent n d k (e - 1)

/-- The significant digits of a magnitude, so many, and its decimal exponent. -/
def scientific (count : Nat) (m : Magnitude) : Nat × Int :=
  let (n, d) := m.quotient
  if n = 0 then (0, 0)
  else
    let bound : Int := ((width n : Int) - width d) * 30103 / 100000 + 2
    let e := decimalExponent n d 6 bound
    let shift : Int := (count : Int) - 1 - e
    let scaled :=
      if shift < 0 then roundedQuotient n (d * Nat.pow 10 shift.natAbs)
      else roundedQuotient (n * Nat.pow 10 shift.natAbs) d
    if Nat.pow 10 count ≤ scaled then (scaled / 10, e + 1) else (scaled, e)

/-- An exponent with its sign and at least two digits. -/
def exponentText (upper : Bool) (e : Int) : String :=
  (if upper then "E" else "e") ++ (if e < 0 then "-" else "+") ++ digits e.natAbs 2

/-- A magnitude with one digit before the point, so many behind it, and an exponent. -/
def exponential (places : Nat) (alternate upper : Bool) (m : Magnitude) : String :=
  let (n, e) := scientific (places + 1) m
  let ds := digits n (places + 1)
  let front := (ds.toList.take 1)
  let behind := ds.toList.drop 1
  let point := if places = 0 && !alternate then "" else "."
  String.ofList front ++ point ++ String.ofList behind ++ exponentText upper e

/-- A numeral without the zeros behind its point. -/
def withoutZeros (s : String) : String :=
  if s.toList.contains '.' then
    let cs := s.toList.reverse.dropWhile (· == '0')
    String.ofList (if cs.head? = some '.' then cs.drop 1 else cs).reverse
  else s

/-- A magnitude in the shorter of the two ways, with so many significant digits. -/
def general (precision : Nat) (alternate upper : Bool) (m : Magnitude) : String :=
  let p := max precision 1
  let (n, e) := scientific p m
  let trimmed (s : String) : String := if alternate then s else withoutZeros s
  if e < -4 || (p : Int) ≤ e then
    let ds := (digits n p).toList
    let point := if p = 1 && !alternate then "" else "."
    let mantissa := trimmed (String.ofList (ds.take 1) ++ point ++ String.ofList (ds.drop 1))
    mantissa ++ exponentText upper e
  else trimmed (fixed ((p : Int) - 1 - e).toNat alternate m)

/-- A hexadecimal digit of a text, if it is one. -/
def hexValue? (c : Char) : Option Nat :=
  if c.isDigit then some (c.toNat - '0'.toNat)
  else if 'a' ≤ c && c ≤ 'f' then some (c.toNat - 'a'.toNat + 10)
  else if 'A' ≤ c && c ≤ 'F' then some (c.toNat - 'A'.toNat + 10)
  else none

/-- The exponent behind a mark at the front of a text, and what follows. -/
def exponentPart (marks : List Char) (cs : List Char) : Int × List Char :=
  match cs with
  | c :: r =>
    if marks.contains c then
      let (negative, ds) :=
        match r with
        | '-' :: r => (true, r)
        | '+' :: r => (false, r)
        | r => (false, r)
      let digits := ds.takeWhile Char.isDigit
      if digits.isEmpty then (0, cs)
      else
        let n : Nat := digits.foldl (fun n c => 10 * n + (c.toNat - '0'.toNat)) 0
        (if negative then -(n : Int) else n, ds.drop digits.length)
    else (0, cs)
  | [] => (0, [])

/-- The number at the front of a text: its sign, its value and what follows; `none` if there is
    none. -/
def read? (f : Format) (cs : List Char) : Option (Bool × Value × List Char) :=
  let cs := cs.dropWhile fun c => c == ' ' || (9 ≤ c.toNat && c.toNat ≤ 13)
  let (negative, body) :=
    match cs with
    | '-' :: r => (true, r)
    | '+' :: r => (false, r)
    | r => (false, r)
  let lower := body.map Char.toLower
  let number (base : Nat) (value? : Char → Option Nat) (marks : List Char) (body : List Char) :
      Option (Bool × Value × List Char) :=
    let whole := body.takeWhile fun c => (value? c).isSome
    let rest := body.drop whole.length
    let fraction :=
      match rest with
      | '.' :: r => r.takeWhile fun c => (value? c).isSome
      | _ => []
    let rest := match rest with
      | '.' :: r => if whole.isEmpty && fraction.isEmpty then rest else r.drop fraction.length
      | r => r
    if whole.isEmpty && fraction.isEmpty then none
    else
      let n := (whole ++ fraction).foldl (fun n c => base * n + (value? c).getD 0) 0
      let (e, rest) := exponentPart marks rest
      let v :=
        if base = 16 then
          let e := e - 4 * fraction.length
          if e < 0 then nearest f n (Nat.pow 2 e.natAbs) else nearest f (n * Nat.pow 2 e.natAbs) 1
        else ofDecimal f n (e - fraction.length)
      some (negative, v, rest)
  let decimal? (c : Char) : Option Nat := if c.isDigit then some (c.toNat - '0'.toNat) else none
  if lower.take 8 = "infinity".toList then some (negative, .infinite, body.drop 8)
  else if lower.take 3 = "inf".toList then some (negative, .infinite, body.drop 3)
  else if lower.take 3 = "nan".toList then some (negative, .notANumber, body.drop 3)
  else
    match body with
    | '0' :: x :: r =>
      if x = 'x' || x = 'X' then
        match number 16 hexValue? ['p', 'P'] r with
        | some v => some v
        | none => some (negative, .finite ⟨0, 0⟩, x :: r)
      else number 10 decimal? ['e', 'E'] body
    | _ => number 10 decimal? ['e', 'E'] body

end Isolation.Text.Floating
